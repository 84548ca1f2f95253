import TaskPlatform.Routes
import TaskPlatform.TaskRuns

/-! # The data of a workspace

    What belongs to a workspace: its row, its members, its projects, its tasks, and the
    comments on them.  A statement either leaves all of it alone (`Quiet`), or writes
    rows of one workspace and leaves the others alone (`Elsewhere`), or is a `DELETE`
    whose cascade may reach further (`removeTasks_data`). -/

namespace PlatformApi

open AsyncProgram PlatformEntities PlatformTasks RowTable RecursiveQuery Relation

/-! ## Workspaces and their rows -/

/-- The rows of one workspace. -/
structure WorkspaceData where
  workspaces : List Workspace
  members : List WorkspaceMember
  projects : List Project
  tasks : List Task
  comments : List Comment
  deriving DecidableEq

/-- The tasks of a workspace, deleted ones too. -/
def tasksOf (db : Database) (workspaceId : String) : List Task :=
  db.tasks.filter fun t => t.workspaceId = workspaceId

/-- The rows of a workspace, those that hang on others among them. -/
def dataOf (db : Database) (workspaceId : String) : WorkspaceData where
  workspaces := db.workspaces.filter fun w => w.id = workspaceId
  members := db.members.filter fun m => m.workspaceId = workspaceId
  projects := db.projects.filter fun p => p.workspaceId = workspaceId
  tasks := tasksOf db workspaceId
  comments := db.comments.filter fun c =>
    (tasksOf db workspaceId).any fun t => t.id = c.taskId

/-- The constraints that the schema declares: primary keys, unique slugs, foreign
    keys, and parents that were there before their children. -/
structure WellFormed (db : Database) : Prop where
  workspaceIds : Unique Workspace.id db.workspaces
  slugs : Unique Workspace.slug db.workspaces
  projectIds : Unique Project.id db.projects
  taskIds : Unique Task.id db.tasks
  named : ∀ t ∈ db.tasks, t.id ≠ ""
  parents : ParentsFirst db.tasks
  placed : ∀ t ∈ db.tasks, ∃ w ∈ db.workspaces, w.id = t.workspaceId
  members : ∀ m ∈ db.members, ∃ w ∈ db.workspaces, w.id = m.workspaceId

/-- The data of every other workspace is as it was. -/
def Elsewhere (workspaceId : String) (db db' : Database) : Prop :=
  ∀ x, x ≠ workspaceId → dataOf db' x = dataOf db x

theorem dataOf_congr {db db' : Database} {x : String}
    (hw : db'.workspaces.filter (fun w => w.id = x) = db.workspaces.filter fun w => w.id = x)
    (hm : db'.members.filter (fun m => m.workspaceId = x)
      = db.members.filter fun m => m.workspaceId = x)
    (hp : db'.projects.filter (fun p => p.workspaceId = x)
      = db.projects.filter fun p => p.workspaceId = x)
    (ht : tasksOf db' x = tasksOf db x)
    (hc : db'.comments = db.comments) : dataOf db' x = dataOf db x := by
  unfold dataOf
  rw [hw, hm, hp, ht, hc]

/-! ## Statements that write for one workspace -/

theorem elsewhere_append_task (db : Database) (row : Task) :
    Elsewhere row.workspaceId db { db with tasks := db.tasks ++ [row] } := by
  intro x hx
  exact dataOf_congr rfl rfl rfl
    (filter_append_ne db.tasks (decide_eq_false (Ne.symm hx))) rfl

/-- Overwriting a task by one of the same identity. -/
theorem elsewhere_replace_task {db : Database} (hids : Unique Task.id db.tasks)
    {old row : Task} (hold : lookup Task.id row.id db.tasks = some old)
    (hsame : SameIdentity row old) :
    Elsewhere row.workspaceId db
      { db with tasks := RowTable.replace Task.id row db.tasks } := by
  intro x hx
  refine dataOf_congr rfl rfl rfl ?_ rfl
  refine filter_replace (decide_eq_false (Ne.symm hx)) ?_
  intro r hr hid
  obtain ⟨hmem, holdid⟩ := lookup_mem hold
  rw [hids.eq_of_key hr hmem (hid.trans holdid.symm), ← hsame.workspaceId]
  exact decide_eq_false (Ne.symm hx)

theorem elsewhere_save_workspace {db db' : Database} {w saved : LoadedWorkspace}
    (h : saveWorkspace db w = .ok (db', saved)) :
    Elsewhere w.row.id db db' ∧ saved = w := by
  obtain ⟨rfl, hsaved⟩ := saveWorkspace_ok h
  refine ⟨?_, hsaved⟩
  intro x hx
  refine dataOf_congr ?_ rfl rfl rfl rfl
  have hne : ¬ (LoadedWorkspace.toRow w).id = x := Ne.symm hx
  refine filter_upsert (decide_eq_false hne) ?_
  intro r _ hid
  rw [hid]
  exact decide_eq_false hne

theorem elsewhere_save_member {db db' : Database} {m saved : WorkspaceMember}
    (h : saveMember db m = .ok (db', saved)) :
    Elsewhere m.workspaceId db db' ∧ saved = m := by
  obtain ⟨-, rfl, hsaved⟩ := saveMember_ok h
  refine ⟨?_, hsaved⟩
  intro x hx
  refine dataOf_congr rfl ?_ rfl rfl rfl
  refine filter_upsert (decide_eq_false (Ne.symm hx)) ?_
  intro r _ hkey
  rw [show r.workspaceId = m.workspaceId from congrArg Prod.fst hkey]
  exact decide_eq_false (Ne.symm hx)

theorem elsewhere_insert_project {db db' : Database} {newId workspaceId name : String}
    {now : Nat} {description : Option String} {status : String} {p : Project}
    (h : insertProject db newId now workspaceId name description status = .ok (db', p)) :
    Elsewhere workspaceId db db' ∧ p.workspaceId = workspaceId := by
  obtain ⟨-, -, -, rfl, rfl⟩ := insertProject_ok h
  refine ⟨?_, rfl⟩
  intro x hx
  exact dataOf_congr rfl rfl
    (filter_append_ne db.projects (decide_eq_false (Ne.symm hx))) rfl rfl

/-- Saving a project object whose row belongs to the same workspace. -/
theorem elsewhere_save_project {db db' : Database} (hids : Unique Project.id db.projects)
    {p old saved : Project} (hold : old ∈ db.projects) (hid : old.id = p.id)
    (hw : old.workspaceId = p.workspaceId) (h : saveProject db p = .ok (db', saved)) :
    Elsewhere p.workspaceId db db' ∧ saved = p := by
  obtain ⟨rfl, hsaved⟩ := saveProject_ok h
  refine ⟨?_, hsaved⟩
  intro x hx
  refine dataOf_congr rfl rfl ?_ rfl rfl
  refine filter_upsert (decide_eq_false (Ne.symm hx)) ?_
  intro r hr hkey
  rw [hids.eq_of_key hr hold (hkey.trans hid.symm), hw]
  exact decide_eq_false (Ne.symm hx)

/-- A comment on a task of the workspace. -/
theorem elsewhere_insert_comment {db db' : Database} (hids : Unique Task.id db.tasks)
    {newId userId message : String} {now : Nat} {t : Task} (ht : t ∈ db.tasks)
    {c : Comment} (h : insertComment db newId now t.id userId message = .ok (db', c)) :
    Elsewhere t.workspaceId db db' ∧ c.taskId = t.id := by
  obtain ⟨hct, rfl⟩ := insertComment_ok h
  refine ⟨?_, hct⟩
  intro x hx
  have hother : (tasksOf db x).any (fun r => r.id = c.taskId) = false := by
    rw [List.any_eq_false]
    intro r hr hid
    obtain ⟨hmem, hrx⟩ := List.mem_filter.mp hr
    rw [hids.eq_of_key hmem ht ((of_decide_eq_true hid).trans hct)] at hrx
    exact hx (of_decide_eq_true hrx).symm
  show WorkspaceData.mk _ _ _ _ ((db.comments ++ [_]).filter _) = _
  rw [filter_append_ne db.comments hother]
  rfl

/-! ## Deletions -/

/-- A cascade that takes no task of a workspace leaves its tasks and comments alone. -/
theorem removeTasks_data {db : Database} (hids : Unique Task.id db.tasks)
    (hparents : ParentsFirst db.tasks) {gone : Task → Bool} {x : String}
    (h : ∀ t, HangsBelow db gone t → t.workspaceId ≠ x) :
    dataOf (removeTasks db gone) x = dataOf db x := by
  have hkept : ∀ t ∈ tasksOf db x, ¬ ∃ r ∈ cascadeOf db gone, r.id = t.id := by
    rintro t ht ⟨r, hr, hid⟩
    obtain ⟨hmem, htx⟩ := List.mem_filter.mp ht
    have hbelow := (mem_cascadeOf hids hparents).mp hr
    rw [hids.eq_of_key hbelow.stored hmem hid] at hbelow
    exact h t hbelow (of_decide_eq_true htx)
  have htasks : tasksOf (removeTasks db gone) x = tasksOf db x := by
    show (db.tasks.filter _).filter _ = db.tasks.filter _
    rw [List.filter_filter]
    refine List.filter_congr ?_
    intro t ht
    by_cases htx : t.workspaceId = x
    · have hnot := hkept t (List.mem_filter.mpr ⟨ht, decide_eq_true htx⟩)
      have hany : (cascadeOf db gone).any (fun r => r.id = t.id) = false := by
        rw [List.any_eq_false]
        exact fun r hr hid => hnot ⟨r, hr, of_decide_eq_true hid⟩
      simp [hany]
    · simp [htx]
  have hcomments : (removeTasks db gone).comments.filter
      (fun c => (tasksOf db x).any fun t => t.id = c.taskId)
      = db.comments.filter fun c => (tasksOf db x).any fun t => t.id = c.taskId := by
    show (db.comments.filter _).filter _ = _
    rw [List.filter_filter]
    refine List.filter_congr ?_
    intro c _
    cases hc : (tasksOf db x).any fun t => t.id = c.taskId with
    | false => rfl
    | true =>
        -- the task of the comment is kept, so the comment is
        obtain ⟨t, ht, hid⟩ := List.any_eq_true.mp hc
        have hany : (cascadeOf db gone).any (fun r => r.id = c.taskId) = false := by
          rw [List.any_eq_false]
          intro r hr hrid
          refine hkept t ht ⟨r, hr, ?_⟩
          rw [of_decide_eq_true hrid, of_decide_eq_true hid]
        simp [hany]
  unfold dataOf
  rw [htasks, hcomments]
  rfl

/-- One that takes a task of a workspace changes its data. -/
theorem removeTasks_changes {db : Database} (hids : Unique Task.id db.tasks)
    (hparents : ParentsFirst db.tasks) {gone : Task → Bool} {t : Task}
    (h : HangsBelow db gone t) : t ∉ tasksOf (removeTasks db gone) t.workspaceId := by
  intro hmem
  exact ((mem_removeTasks hids hparents).mp (List.mem_filter.mp hmem).1).2 h

/-- The data of other workspaces after the deletion of a project. -/
theorem removeProject_data {db : Database} (hdb : WellFormed db) {p : Project}
    (hp : p ∈ db.projects) {x : String} (hx : x ≠ p.workspaceId)
    (h : ∀ t, HangsBelow db (fun t => t.projectId = p.id) t → t.workspaceId ≠ x) :
    dataOf (removeProject db p.id) x = dataOf db x := by
  rw [← removeTasks_data hdb.taskIds hdb.parents h]
  refine dataOf_congr rfl rfl ?_ rfl rfl
  show (db.projects.filter _).filter _ = db.projects.filter _
  rw [List.filter_filter]
  refine List.filter_congr ?_
  intro q hq
  by_cases hid : q.id = p.id
  · rw [hdb.projectIds.eq_of_key hq hp hid]
    simp [Ne.symm hx]
  · simp [hid]

/-- The data of other workspaces after the deletion of a workspace. -/
theorem removeWorkspace_data {db : Database} (hdb : WellFormed db) {id x : String}
    (hx : x ≠ id) (h : ∀ t, HangsBelow db (ofWorkspace db id) t → t.workspaceId ≠ x) :
    dataOf (removeWorkspace db id) x = dataOf db x := by
  have hkeep : ∀ {ρ : Type} (key : ρ → String) (l : List ρ),
      (l.filter fun r => key r ≠ id).filter (fun r => key r = x)
        = l.filter fun r => key r = x := by
    intro ρ key l
    rw [List.filter_filter]
    refine List.filter_congr ?_
    intro r _
    by_cases hr : key r = x
    · have hne : ¬ key r = id := fun hid => hx (hr.symm.trans hid)
      simp [hr, hx]
    · simp [hr]
  rw [← removeTasks_data hdb.taskIds hdb.parents h]
  exact dataOf_congr (hkeep Workspace.id db.workspaces)
    (hkeep WorkspaceMember.workspaceId db.members)
    (hkeep Project.workspaceId db.projects) rfl rfl

/-! ## Statements that leave all of it alone -/

/-- The operations that write nothing that belongs to a workspace. -/
def Quiet : ApiOp → Prop
  | .task op => ¬ WritesTasks op
  | .insertWorkspace _ _ _ => False
  | .saveWorkspace _ => False
  | .removeWorkspace _ => False
  | .saveMember _ => False
  | .insertProject _ _ _ _ => False
  | .saveProject _ => False
  | .removeProject _ => False
  | .insertComment _ _ _ => False
  | _ => True

theorem quiet_data (pg : Postgres) (ω : Choice) {op : ApiOp} (h : Quiet op)
    (s : TaskState) (x : String) :
    dataOf (apiExec pg ω op s).1.db x = dataOf s.db x := by
  cases op with
  | task op =>
      cases op with
      | insertNotification u ty ti m =>
          rcases exec_notification_cases pg.text ω u ty ti m s with ⟨-, h0⟩ | ⟨-, h0⟩
          · show dataOf (exec pg.text ω _ s).1.db x = _
            rw [h0]
            rfl
          · show dataOf (exec pg.text ω _ s).1.db x = _
            rw [h0]
            rfl
      | insert n => exact absurd trivial h
      | save e => exact absurd trivial h
      | softRemove t => exact absurd trivial h
      | _ => rfl
  | insertWorkspace n sl o => exact absurd h not_false
  | saveWorkspace w => exact absurd h not_false
  | removeWorkspace w => exact absurd h not_false
  | saveMember m => exact absurd h not_false
  | insertProject w n d st => exact absurd h not_false
  | saveProject p => exact absurd h not_false
  | removeProject p => exact absurd h not_false
  | insertComment t u m => exact absurd h not_false
  | _ => rfl

end PlatformApi
