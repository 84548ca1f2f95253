import TaskPlatform.TaskHierarchy

/-! # `ON DELETE CASCADE`

    Deleting a project or a workspace deletes the rows that refer to it, and the rows
    that refer to those, as the entities of `src/database/entities` declare.  For the
    tasks that goes through the parent links, round after round, and asks neither for
    the workspace nor for `deletedAt`. -/

namespace PlatformTasks

open PlatformEntities RowTable RecursiveQuery Relation

/-- The tasks whose parent is `a`, deleted or not. -/
def childTasks (db : Database) (a : Task) : List Task :=
  db.tasks.filter fun t => t.parentTaskId = some a.id

/-- The tasks that go with these ones. -/
def cascadeOf (db : Database) (gone : Task → Bool) : List Task :=
  (withRecursive (childTasks db) db.tasks.length (db.tasks.filter gone)).getD []

/-- `DELETE` of tasks, with their subtasks and the comments on all of them. -/
def removeTasks (db : Database) (gone : Task → Bool) : Database :=
  let removed := cascadeOf db gone
  { db with
    tasks := db.tasks.filter fun t => !removed.any fun r => r.id = t.id
    comments := db.comments.filter fun c => !removed.any fun r => r.id = c.taskId }

/-- `DELETE FROM projects WHERE id = $1`. -/
def removeProject (db : Database) (id : String) : Database :=
  { removeTasks db (fun t => t.projectId = id) with
    projects := db.projects.filter fun p => p.id ≠ id }

/-- The tasks that a workspace takes along: its own, and those of its projects. -/
def ofWorkspace (db : Database) (id : String) (t : Task) : Bool :=
  t.workspaceId = id || db.projects.any fun p => p.workspaceId = id && p.id = t.projectId

/-- `DELETE FROM workspaces WHERE id = $1`. -/
def removeWorkspace (db : Database) (id : String) : Database :=
  { removeTasks db (ofWorkspace db id) with
    workspaces := db.workspaces.filter fun w => w.id ≠ id
    members := db.members.filter fun m => m.workspaceId ≠ id
    projects := db.projects.filter fun p => p.workspaceId ≠ id }

/-! ## What a cascade takes -/

/-- `b` is a task whose parent is `a`, deleted or not. -/
structure ChildRow (db : Database) (a b : Task) : Prop where
  stored : b ∈ db.tasks
  parent : b.parentTaskId = some a.id

/-- `x` is one of these tasks, or hangs below one. -/
def HangsBelow (db : Database) (gone : Task → Bool) (x : Task) : Prop :=
  ∃ a ∈ db.tasks, gone a = true ∧ ReflTransGen (ChildRow db) a x

theorem HangsBelow.stored {db : Database} {gone : Task → Bool} {x : Task}
    (h : HangsBelow db gone x) : x ∈ db.tasks := by
  obtain ⟨a, ha, -, hchain⟩ := h
  rcases ReflTransGen.cases_tail hchain with rfl | ⟨b, -, hlink⟩
  · exact ha
  · exact hlink.stored

theorem link_childTasks {db : Database} {a b : Task} :
    Link (childTasks db) a b ↔ ChildRow db a b := by
  unfold Link childTasks
  rw [List.mem_filter, decide_eq_true_eq]
  exact ⟨fun h => ⟨h.1, h.2⟩, fun h => ⟨h.stored, h.parent⟩⟩

section Consistent

variable {db : Database} (hids : Unique Task.id db.tasks)
  (hparents : ParentsFirst db.tasks)

include hids hparents in
/-- A cascade takes what hangs below the tasks it starts from. -/
theorem mem_cascadeOf {gone : Task → Bool} {x : Task} :
    x ∈ cascadeOf db gone ↔ HangsBelow db gone x := by
  have hclimbs : Climbs (childTasks db) (fun t => place db t.id) db.tasks.length := by
    constructor
    · intro a b hlink
      obtain ⟨hb, hparent⟩ := link_childTasks.mp hlink
      exact place_parent hids hparents hb hparent
    · intro a b hlink
      exact place_lt (link_childTasks.mp hlink).stored
  obtain ⟨removed, hremoved⟩ := withRecursive_ends hclimbs db.tasks.length
    (db.tasks.filter gone) fun b hb => ⟨place_lt (List.mem_of_mem_filter hb), by omega⟩
  have hlinks : Link (childTasks db) = ChildRow db := by
    ext a b
    exact link_childTasks
  unfold cascadeOf
  rw [hremoved, Option.getD_some, mem_withRecursive hremoved, hlinks]
  constructor
  · rintro ⟨a, ha, hchain⟩
    exact ⟨a, (List.mem_filter.mp ha).1, (List.mem_filter.mp ha).2, hchain⟩
  · rintro ⟨a, ha, hgone, hchain⟩
    exact ⟨a, List.mem_filter.mpr ⟨ha, hgone⟩, hchain⟩

include hids hparents in
/-- The tasks that are left. -/
theorem mem_removeTasks {gone : Task → Bool} {x : Task} :
    x ∈ (removeTasks db gone).tasks ↔ x ∈ db.tasks ∧ ¬ HangsBelow db gone x := by
  show x ∈ db.tasks.filter _ ↔ _
  rw [List.mem_filter]
  refine and_congr_right fun hx => ?_
  rw [Bool.not_eq_true', ← Bool.not_eq_true, List.any_eq_true, not_iff_not]
  constructor
  · rintro ⟨r, hr, hid⟩
    have hbelow := (mem_cascadeOf hids hparents).mp hr
    rw [← hids.eq_of_key hbelow.stored hx (of_decide_eq_true hid)]
    exact hbelow
  · intro h
    exact ⟨x, (mem_cascadeOf hids hparents).mpr h, decide_eq_true rfl⟩

end Consistent

end PlatformTasks
