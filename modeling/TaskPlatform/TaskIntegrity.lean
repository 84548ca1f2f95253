import TaskPlatform.Routes
import TaskPlatform.ApiRuns

/-! # Tenant and hierarchy integrity

    A live task should be in a project of its workspace, below a live task of its
    workspace, and with a member of its workspace.  The foreign keys ask for existence
    alone, and so does the task service: `createTask` takes any project, any parent and
    any assignee, `updateTask` any assignee, and `deleteTask` leaves the subtasks where
    they are; `findProjectById` and `addComment` do ask for the workspace.

    `KeepsIntact` says for each call when it does no harm, and sequences of such calls
    keep the integrity (`tasks_intact`): the cache, which outlives the rows that a
    deleted project takes along, cannot bring a task back, because its project or its
    parent is gone for good (`Gone`). -/

namespace PlatformApi

open AsyncProgram Interleaving PlatformEntities PlatformTasks RowTable

/-! ## Integrity -/

/-- What a task refers to is there, in its own workspace. -/
structure Integral (db : Database) (t : Task) : Prop where
  project : ∃ p ∈ db.projects, p.id = t.projectId ∧ p.workspaceId = t.workspaceId
  parent : ∀ x, t.parentTaskId = some x →
    ∃ r ∈ db.tasks, r.id = x ∧ r.deletedAt = none ∧ r.workspaceId = t.workspaceId
  assignee : ∀ a, t.assignedTo = some a → IsMember db a t.workspaceId

/-- Every live task is integral. -/
def Intact (db : Database) : Prop := ∀ t ∈ db.tasks, t.deletedAt = none → Integral db t

/-! ## Calls -/

/-- The guards find a membership with this permission. -/
def permits (db : Database) (userId workspaceId : String) (permission : Permission) : Bool :=
  (findMember db workspaceId userId).any fun m => permission ∈ rolePermissions m.role

/-- `@Matches(/^[a-z0-9-]+$/)`. -/
def validSlug (slug : String) : Bool :=
  slug ≠ "" && slug.toList.all fun c => inSlug c || c = '-'

/-- Guards and DTOs accept the call: one of the seven that the integrity is about. -/
def accepts (db : Database) : ApiCall → Bool
  | .task (.createTask w _ u dto) => permits db u w .taskCreate && dto.title ≠ ""
  | .task (.updateTask _ w u _) => permits db u w .taskUpdate
  | .task (.deleteTask _ w u) => permits db u w .taskDelete
  | .createProject w u name _ => permits db u w .projectCreate && name ≠ ""
  | .deleteProject _ w u => permits db u w .projectDelete
  | .createWorkspace u name slug =>
      db.users.any (fun user => user.id = u) && name ≠ "" && slug.all validSlug
  | .inviteMember w u _ _ => permits db u w .workspaceInvite
  | _ => false

/-- The project and the parent of a new task are those of its workspace, and its
    assignee is a member there. -/
structure FitsIn (db : Database) (workspaceId projectId : String) (dto : CreateTaskDto) :
    Prop where
  project : ∀ p ∈ db.projects, p.id = projectId → p.workspaceId = workspaceId
  parent : ∀ r ∈ db.tasks, dto.parentTaskId = some r.id →
    r.deletedAt = none ∧ r.workspaceId = workspaceId
  assignee : ∀ user ∈ db.users, dto.assignedTo = some user.id →
    IsMember db user.id workspaceId

/-- The rows that a new task refers to are there. -/
structure KeysFound (db : Database) (workspaceId projectId userId : String)
    (dto : CreateTaskDto) : Prop where
  workspace : ∃ w ∈ db.workspaces, w.id = workspaceId
  project : ∃ p ∈ db.projects, p.id = projectId
  parent : ∀ x, dto.parentTaskId = some x → ∃ r ∈ db.tasks, r.id = x
  assignee : ∀ a, dto.assignedTo = some a → ∃ user ∈ db.users, user.id = a
  creator : ∃ user ∈ db.users, user.id = userId

/-- The update writes an assignee into the row: the row has none, the version fits, and
    no column that must not be null is set to null. -/
structure Reassigns (r : Task) (dto : UpdateTaskDto) (assignee : String) : Prop where
  wanted : dto.assignedTo = .val assignee
  free : r.assignedTo = none
  version : versionMismatch dto.version r.version = false
  title : dto.title ≠ .null
  status : dto.status ≠ .null
  priority : dto.priority ≠ .null

/-- The call does no harm to the integrity of the tasks. -/
def KeepsIntact (db : Database) : ApiCall → Prop
  | .task (.createTask w p u dto) => KeysFound db w p u dto → FitsIn db w p dto
  | .task (.updateTask id w _ dto) =>
      ∀ r ∈ db.tasks, r.id = id → r.workspaceId = w → r.deletedAt = none →
        ∀ user ∈ db.users, Reassigns r dto user.id → IsMember db user.id w
  | .task (.deleteTask id w _) =>
      ∀ r ∈ db.tasks, r.id = id → r.workspaceId = w → r.deletedAt = none →
        ∀ child ∈ db.tasks, child.parentTaskId = some id → child.deletedAt ≠ none
  | _ => True

/-! ## What holds between the calls -/

/-- The project of the task has been deleted, or its parent with that one's project. -/
def Gone (db : Database) (t : Task) : Prop :=
  (∀ p ∈ db.projects, p.id ≠ t.projectId) ∨
    ∃ x, t.parentTaskId = some x ∧ ∀ r ∈ db.tasks, r.id ≠ x

/-- A task object as it was loaded. -/
structure Copy (h : ApiHistory) (t : LoadedTask) : Prop where
  loaded : t = loadTask h.state.db t.row
  live : t.row.deletedAt = none
  issued : t.row.id ∈ h.issued
  projectIssued : t.row.projectId ∈ h.issued
  parentIssued : ∀ x, t.row.parentTaskId = some x → x ∈ h.issued
  stored : (∃ r ∈ h.state.db.tasks, r.id = t.row.id) ∨ Gone h.state.db t.row

/-- The row is still what was loaded. -/
def Current (h : ApiHistory) (t : LoadedTask) : Prop :=
  ∀ r ∈ h.state.db.tasks, r.id = t.row.id → r = t.row

/-- The invariant.  Under a dirty key the cache may hold an older copy. -/
structure Tidy (dirty : String → Prop) (h : ApiHistory) : Prop where
  ids : RowTable.Unique Task.id h.state.db.tasks
  parents : ParentsFirst h.state.db.tasks
  issued : ∀ r ∈ h.state.db.tasks, r.id ∈ h.issued
  projects : ∀ r ∈ h.state.db.tasks, ∃ p ∈ h.state.db.projects, p.id = r.projectId
  users : ∀ r ∈ h.state.db.tasks, ∀ a, r.assignedTo = some a →
    ∃ u ∈ h.state.db.users, u.id = a
  projectsIssued : ∀ p ∈ h.state.db.projects, p.id ∈ h.issued
  intact : Intact h.state.db
  cached : ∀ k t, h.state.cache k = some (.task t) →
    k = getTaskCacheKey t.row.id ∧ Copy h t ∧ (¬ dirty k → Current h t)

/-- No key is dirty. -/
abbrev Clean : ApiHistory → Prop := Tidy fun _ => False

/-! ## Steps that leave the tasks alone -/

/-- What most operations do to the rows that the integrity is about. -/
structure Undisturbed (ω : Choice) (s s' : TaskState) : Prop where
  tasks : s'.db.tasks = s.db.tasks
  users : s'.db.users = s.db.users
  kept : ∀ p ∈ s.db.projects, p ∈ s'.db.projects
  added : ∀ p ∈ s'.db.projects, p ∈ s.db.projects ∨ (p.id = ω.newId ∧ ω.newId ≠ "")
  members : ∀ m ∈ s.db.members, ∃ m' ∈ s'.db.members, memberKey m' = memberKey m
  cache : ∀ k t, s'.cache k = some (.task t) → s.cache k = some (.task t)

/-- Operations of this kind. -/
def Calm : ApiOp → Prop
  | .task (.insert _) => False
  | .task (.save _) => False
  | .task (.softRemove _) => False
  | .task (.cacheSet _ v _) => ∀ t, v ≠ .task t
  | .removeWorkspace _ => False
  | .removeProject _ => False
  | .saveProject _ => False
  | _ => True

theorem undisturbed_of_same {ω : Choice} {s s' : TaskState} (htasks : s'.db.tasks = s.db.tasks)
    (husers : s'.db.users = s.db.users) (hprojects : s'.db.projects = s.db.projects)
    (hmembers : s'.db.members = s.db.members)
    (hcache : ∀ k t, s'.cache k = some (.task t) → s.cache k = some (.task t)) :
    Undisturbed ω s s' where
  tasks := htasks
  users := husers
  kept := by
    rw [hprojects]
    exact fun p hp => hp
  added := by
    rw [hprojects]
    exact fun p hp => Or.inl hp
  members := fun m hm => ⟨m, hmembers ▸ hm, rfl⟩
  cache := hcache

theorem upsert_members {m : WorkspaceMember} {l : List WorkspaceMember} :
    ∀ m₀ ∈ l, ∃ m' ∈ upsert memberKey m l, memberKey m' = memberKey m₀ := by
  intro m₀ hm₀
  by_cases hkey : memberKey m₀ = memberKey m
  · exact ⟨m, mem_upsert_self _ _, hkey.symm⟩
  · exact ⟨m₀, mem_upsert_of_ne hm₀ hkey, rfl⟩

theorem calm_undisturbed (pg : Postgres) (ω : Choice) {op : ApiOp} (s : TaskState)
    (hc : Calm op) : Undisturbed ω s (apiExec pg ω op s).1 := by
  have hcache : ∀ k t, (apiExec pg ω op s).1.cache k = some (.task t) →
      s.cache k = some (.task t) := by
    intro k t hk
    rcases apiExec_cache pg hk with hk | ⟨ttl, rfl⟩
    · exact hk
    · exact absurd rfl (hc t)
  have hcommit : ∀ {α : Type} (r : Except HttpError (Database × α)),
      (∀ db a, r = .ok (db, a) → Undisturbed ω s { s.wait ω with db := db }) →
      Undisturbed ω s (commit (s.wait ω) r).1 := by
    intro α r hr
    cases r with
    | error e => exact undisturbed_of_same rfl rfl rfl rfl fun k t => wait_cache
    | ok out => exact hr out.1 out.2 rfl
  cases op with
  | task op =>
      obtain ⟨tasks, notifications, hframe⟩ := exec_frame pg.text ω op s
      have hframe' : (apiExec pg ω (.task op) s).1.db
        = { s.db with tasks := tasks, notifications := notifications } := hframe
      refine undisturbed_of_same ?_ (by rw [hframe']) (by rw [hframe']) (by rw [hframe']) hcache
      refine exec_tasks pg.text ω op s ?_
      cases op with
      | insert n => exact absurd hc not_false
      | save e => exact absurd hc not_false
      | softRemove t => exact absurd hc not_false
      | _ => exact not_false
  | insertWorkspace name slug ownerId =>
      refine hcommit _ ?_
      intro db w h
      obtain ⟨-, -, -, rfl⟩ := insertWorkspace_ok h
      exact ⟨rfl, rfl, fun p hp => hp, fun p hp => Or.inl hp, upsert_members,
        fun k t => wait_cache⟩
  | saveWorkspace w =>
      refine hcommit _ ?_
      intro db saved h
      obtain ⟨rfl, -⟩ := saveWorkspace_ok h
      exact undisturbed_of_same rfl rfl rfl rfl fun k t => wait_cache
  | saveMember m =>
      refine hcommit _ ?_
      intro db saved h
      obtain ⟨-, rfl, -⟩ := saveMember_ok h
      exact ⟨rfl, rfl, fun p hp => hp, fun p hp => Or.inl hp, upsert_members,
        fun k t => wait_cache⟩
  | insertProject w name d st =>
      -- a new project has the id that the step generated
      refine hcommit _ ?_
      intro db p h
      obtain ⟨hid, -, -, rfl, rfl⟩ := insertProject_ok h
      refine ⟨rfl, rfl, fun q hq => List.mem_append_left _ hq, ?_, fun m hm => ⟨m, hm, rfl⟩,
        fun k t => wait_cache⟩
      intro q hq
      rcases List.mem_append.mp hq with hq | hq
      · exact Or.inl hq
      · rw [List.mem_singleton.mp hq]
        exact Or.inr ⟨rfl, hid⟩
  | insertComment t u m =>
      refine hcommit _ ?_
      intro db c h
      obtain ⟨-, rfl⟩ := insertComment_ok h
      exact undisturbed_of_same rfl rfl rfl rfl fun k t => wait_cache
  | removeWorkspace id => exact absurd hc not_false
  | removeProject id => exact absurd hc not_false
  | saveProject p => exact absurd hc not_false
  | _ => exact undisturbed_of_same rfl rfl rfl rfl hcache

section Steps

variable {pg : Postgres} {h : ApiHistory} {ω : Choice} {dirty : String → Prop}

theorem Integral.mono {db db' : Database} {t : Task} (ht : Integral db t)
    (hprojects : ∀ p ∈ db.projects, p.id = t.projectId → p ∈ db'.projects)
    (hparent : ∀ r ∈ db.tasks, t.parentTaskId = some r.id → r.deletedAt = none →
      ∃ r' ∈ db'.tasks, r'.id = r.id ∧ r'.deletedAt = none ∧ r'.workspaceId = r.workspaceId)
    (hmembers : ∀ a w, IsMember db a w → IsMember db' a w) : Integral db' t where
  project := by
    obtain ⟨p, hp, hid, hw⟩ := ht.project
    exact ⟨p, hprojects p hp hid, hid, hw⟩
  parent := by
    intro x hx
    obtain ⟨r, hr, rfl, hlive, hw⟩ := ht.parent x hx
    obtain ⟨r', hr', hid', hlive', hw'⟩ := hparent r hr hx hlive
    exact ⟨r', hr', hid', hlive', hw'.trans hw⟩
  assignee := fun a ha => hmembers a _ (ht.assignee a ha)

theorem isMember_mono {db db' : Database}
    (h : ∀ m ∈ db.members, ∃ m' ∈ db'.members, memberKey m' = memberKey m) (a w : String)
    (ha : IsMember db a w) : IsMember db' a w := by
  obtain ⟨m, hm, rfl, rfl⟩ := ha
  obtain ⟨m', hm', hkey⟩ := h m hm
  exact ⟨m', hm', congrArg Prod.fst hkey, congrArg Prod.snd hkey⟩

theorem loadTask_congr {db db' : Database} (h : db'.users = db.users) (t : Task) :
    loadTask db' t = loadTask db t := by
  have husers : findUser db' = findUser db := by
    funext id
    unfold findUser
    rw [h]
  unfold loadTask
  rw [husers]

/-- A copy stays one as long as its row stays, or is gone for good. -/
theorem Copy.mono {h h' : ApiHistory} {t : LoadedTask} (ht : Copy h t)
    (husers : h'.state.db.users = h.state.db.users) (hissued : h.issued ⊆ h'.issued)
    (hstored : (∃ r ∈ h'.state.db.tasks, r.id = t.row.id) ∨ Gone h'.state.db t.row) :
    Copy h' t where
  loaded := by
    rw [loadTask_congr husers]
    exact ht.loaded
  live := ht.live
  issued := hissued ht.issued
  projectIssued := hissued ht.projectIssued
  parentIssued := fun x hx => hissued (ht.parentIssued x hx)
  stored := hstored

/-- What is gone does not come back by such a step. -/
theorem Gone.undisturbed {s' : TaskState} {t : Task} (hgone : Gone h.state.db t)
    (hu : Undisturbed (h.fresh ω) h.state s') (hissued : t.projectId ∈ h.issued) :
    Gone s'.db t := by
  rcases hgone with hproject | ⟨x, hx, hparent⟩
  · refine Or.inl ?_
    intro p hp heq
    rcases hu.added p hp with hp | ⟨hid, hne⟩
    · exact hproject p hp heq
    · obtain ⟨hω, hfresh⟩ := fresh_newId hne
      rw [heq, hω] at hid
      exact hfresh (hid ▸ hissued)
  · refine Or.inr ⟨x, hx, ?_⟩
    rw [hu.tasks]
    exact hparent

theorem Tidy.calm (hT : Tidy dirty h) {op : ApiOp} (hc : Calm op) :
    Tidy dirty (historyExec pg ω op h).1 := by
  have hu : Undisturbed (h.fresh ω) h.state (historyExec pg ω op h).1.state :=
    calm_undisturbed pg (h.fresh ω) h.state hc
  generalize hs : (historyExec pg ω op h).1 = h' at hu
  have hissued : h'.issued = ω.newId :: h.issued := by
    rw [← hs]
    rfl
  have hsub : h.issued ⊆ h'.issued := by
    rw [hissued]
    exact fun id hid => List.mem_cons_of_mem _ hid
  refine ⟨?_, ?_, ?_, ?_, ?_, ?_, ?_, ?_⟩
  · rw [hu.tasks]
    exact hT.ids
  · rw [hu.tasks]
    exact hT.parents
  · rw [hu.tasks]
    exact fun r hr => hsub (hT.issued r hr)
  · rw [hu.tasks]
    intro r hr
    obtain ⟨p, hp, hid⟩ := hT.projects r hr
    exact ⟨p, hu.kept p hp, hid⟩
  · rw [hu.tasks, hu.users]
    exact hT.users
  · intro p hp
    rcases hu.added p hp with hp | ⟨hid, hne⟩
    · exact hsub (hT.projectsIssued p hp)
    · rw [hid, (fresh_newId hne).1, hissued]
      exact List.mem_cons_self ..
  · intro t ht hlive
    rw [hu.tasks] at ht
    refine (hT.intact t ht hlive).mono (fun p hp _ => hu.kept p hp) ?_ (isMember_mono hu.members)
    intro r hr _ hr'
    rw [hu.tasks]
    exact ⟨r, hr, rfl, hr', rfl⟩
  · intro k t hk
    obtain ⟨hkey, hcopy, hcurrent⟩ := hT.cached k t (hu.cache k t hk)
    refine ⟨hkey, hcopy.mono hu.users hsub ?_, ?_⟩
    · rw [hu.tasks]
      exact hcopy.stored.imp id fun hgone => hgone.undisturbed hu hcopy.projectIssued
    · intro hd
      unfold Current
      rw [hu.tasks]
      exact hcurrent hd

/-- Dropping a key makes it clean. -/
theorem Tidy.drop (hT : Tidy dirty h) (key : String) :
    Tidy (fun k => dirty k ∧ k ≠ key) (historyExec pg ω (.task (.cacheDel key)) h).1 := by
  have hcalm : Tidy dirty (historyExec pg ω (.task (.cacheDel key)) h).1 := hT.calm trivial
  refine { hcalm with cached := ?_ }
  intro k t hk
  obtain ⟨hkey, hcopy, hcurrent⟩ := hcalm.cached k t hk
  refine ⟨hkey, hcopy, ?_⟩
  intro hd
  refine hcurrent fun hdk => hd ⟨hdk, ?_⟩
  rintro rfl
  -- the key has just been dropped
  have hnone : (if k = k then none else ((h.state.wait (h.fresh ω)).cache k)) = some (.task t) :=
    hk
  rw [if_pos rfl] at hnone
  cases hnone

/-- Filling the cache with a copy. -/
theorem Tidy.fill (hT : Tidy dirty h) {t : LoadedTask} (ht : Copy h t) (hcurrent : Current h t)
    (ttl : Nat) :
    Tidy dirty (historyExec pg ω
      (.task (.cacheSet (getTaskCacheKey t.row.id) (.task t) ttl)) h).1 := by
  have hsub : h.issued ⊆ ω.newId :: h.issued := fun id hid => List.mem_cons_of_mem _ hid
  refine ⟨hT.ids, hT.parents, fun r hr => hsub (hT.issued r hr), hT.projects, hT.users,
    fun p hp => hsub (hT.projectsIssued p hp), hT.intact, ?_⟩
  intro k t' hk
  have hk' : (apiExec pg (h.fresh ω)
      (.task (.cacheSet (getTaskCacheKey t.row.id) (.task t) ttl)) h.state).1.cache k
        = some (.task t') := hk
  rcases apiExec_cache pg hk' with hk | ⟨ttl', heq⟩
  · obtain ⟨hkey, hcopy, hcur⟩ := hT.cached k t' hk
    exact ⟨hkey, hcopy.mono rfl hsub hcopy.stored, hcur⟩
  · injection heq with heq
    injection heq with hkey hv _
    injection hv with hv
    rw [← hv, ← hkey]
    exact ⟨rfl, ht.mono rfl hsub ht.stored, fun _ => hcurrent⟩

/-! ### Writes -/

/-- A step that only waits. -/
theorem Tidy.wait (hT : Tidy dirty h) {h' : ApiHistory}
    (hs : h'.state = h.state.wait (h.fresh ω)) (hi : h'.issued = ω.newId :: h.issued) :
    Tidy dirty h' := by
  have hsub : h.issued ⊆ h'.issued := by
    rw [hi]
    exact fun id hid => List.mem_cons_of_mem _ hid
  have hdb : h'.state.db = h.state.db := by rw [hs]; rfl
  refine ⟨hdb ▸ hT.ids, hdb ▸ hT.parents, fun r hr => hsub (hT.issued r (hdb ▸ hr)),
    hdb ▸ hT.projects, hdb ▸ hT.users, fun p hp => hsub (hT.projectsIssued p (hdb ▸ hp)),
    hdb ▸ hT.intact, ?_⟩
  intro k t hk
  rw [hs] at hk
  obtain ⟨hkey, hcopy, hcur⟩ := hT.cached k t (wait_cache hk)
  refine ⟨hkey, hcopy.mono (by rw [hdb]) hsub (hdb ▸ hcopy.stored), ?_⟩
  intro hd
  unfold Current
  rw [hdb]
  exact hcur hd

/-- An insert of a task that fits in. -/
theorem Tidy.insert (hT : Tidy dirty h) {n : NewTask} {dto : CreateTaskDto}
    (hparent : n.parentTaskId = dto.parentTaskId) (hassignee : n.assignedTo = dto.assignedTo)
    (hfits : KeysFound h.state.db n.workspaceId n.projectId n.createdBy dto →
      FitsIn h.state.db n.workspaceId n.projectId dto) :
    Tidy dirty (historyExec pg ω (.task (.insert n)) h).1 := by
  rcases exec_insert_cases pg.text (h.fresh ω) n h.state with ⟨e, hexec⟩
    | ⟨db, row, hins, hexec⟩
  · refine hT.wait (ω := ω) ?_ rfl
    show (exec pg.text (h.fresh ω) (.insert n) h.state).1 = _
    rw [hexec]
  · obtain ⟨hnew, hfk, hdb, hrow, hid⟩ := insertTask_ok hins
    obtain ⟨hws, ⟨p, hp, hpid⟩, hpar, hass, hcreator⟩ := foreignKeysHold_iff.mp hfk
    have hfit : FitsIn h.state.db n.workspaceId n.projectId dto := by
      rw [hrow] at hws hpid hpar hass hcreator
      exact hfits ⟨hws, ⟨p, hp, hpid⟩, hparent ▸ hpar, hassignee ▸ hass, hcreator⟩
    have hrowid : row.id = (h.fresh ω).newId := by
      rw [hrow]
      rfl
    obtain ⟨hω, hfresh⟩ := fresh_newId (hrowid ▸ hid)
    generalize hh : (historyExec pg ω (.task (.insert n)) h).1 = h'
    have hstate : h'.state = { h.state.wait (h.fresh ω) with db := db } := by
      rw [← hh]
      show (exec pg.text (h.fresh ω) (.insert n) h.state).1 = _
      rw [hexec]
    have hissued : h'.issued = ω.newId :: h.issued := by
      rw [← hh]
      rfl
    have hsub : h.issued ⊆ h'.issued := by
      rw [hissued]
      exact fun id hid => List.mem_cons_of_mem _ hid
    have hdb' : h'.state.db = { h.state.db with tasks := h.state.db.tasks ++ [row] } := by
      rw [hstate, hdb]
    have hold : ∀ t, Integral h.state.db t → Integral h'.state.db t := by
      intro t ht
      rw [hdb']
      exact ht.mono (fun p hp _ => hp)
        (fun r hr _ hlive => ⟨r, List.mem_append_left _ hr, rfl, hlive, rfl⟩)
        (fun _ _ ha => ha)
    refine ⟨?_, ?_, ?_, ?_, ?_, ?_, ?_, ?_⟩
    · rw [hdb']
      exact hT.ids.append hnew
    · rw [hdb']
      exact hT.parents.append hpar
    · intro r hr
      rw [hdb'] at hr
      rcases List.mem_append.mp hr with hr | hr
      · exact hsub (hT.issued r hr)
      · rw [List.mem_singleton.mp hr, hrowid, hω, hissued]
        exact List.mem_cons_self ..
    · rw [hdb']
      intro r hr
      rcases List.mem_append.mp hr with hr | hr
      · exact hT.projects r hr
      · rw [List.mem_singleton.mp hr]
        exact ⟨p, hp, hpid⟩
    · rw [hdb']
      intro r hr
      rcases List.mem_append.mp hr with hr | hr
      · exact hT.users r hr
      · rw [List.mem_singleton.mp hr]
        exact hass
    · rw [hdb']
      exact fun q hq => hsub (hT.projectsIssued q hq)
    · intro t ht hlive
      have ht' : t ∈ h.state.db.tasks ++ [row] := by
        rw [hdb'] at ht
        exact ht
      rcases List.mem_append.mp ht' with ht' | ht'
      · exact hold t (hT.intact t ht' hlive)
      · -- the new task
        rw [List.mem_singleton.mp ht', hdb']
        have hpw : p.workspaceId = row.workspaceId := by
          rw [hrow] at hpid ⊢
          exact hfit.project p hp hpid
        refine ⟨⟨p, hp, hpid, hpw⟩, ?_, ?_⟩
        · intro x hx
          obtain ⟨r, hr, rfl⟩ := hpar x hx
          rw [hrow] at hx ⊢
          obtain ⟨hrlive, hrw⟩ := hfit.parent r hr (hparent ▸ hx)
          exact ⟨r, List.mem_append_left _ hr, rfl, hrlive, hrw⟩
        · intro a ha
          obtain ⟨user, huser, rfl⟩ := hass a ha
          rw [hrow] at ha ⊢
          exact hfit.assignee user huser (hassignee ▸ ha)
    · intro k t hk
      rw [hstate] at hk
      obtain ⟨hkey, hcopy, hcur⟩ := hT.cached k t (wait_cache hk)
      have hne : row.id ≠ t.row.id := by
        intro heq
        rw [hrowid, hω] at heq
        exact hfresh (heq ▸ hcopy.issued)
      refine ⟨hkey, hcopy.mono (by rw [hdb']) hsub ?_, ?_⟩
      · rw [hdb']
        rcases hcopy.stored with ⟨r, hr, hrid⟩ | hproj | ⟨x, hx, hpar'⟩
        · exact Or.inl ⟨r, List.mem_append_left _ hr, hrid⟩
        · exact Or.inr (Or.inl hproj)
        · refine Or.inr (Or.inr ⟨x, hx, ?_⟩)
          intro r hr
          rcases List.mem_append.mp hr with hr | hr
          · exact hpar' r hr
          · rw [List.mem_singleton.mp hr, hrowid, hω]
            intro heq
            exact hfresh (heq ▸ hcopy.parentIssued x hx)
      · intro hd r hr hrid
        rw [hdb'] at hr
        rcases List.mem_append.mp hr with hr | hr
        · exact hcur hd r hr hrid
        · rw [List.mem_singleton.mp hr] at hrid
          exact absurd hrid hne

/-- Overwriting the row of a task makes its key dirty. -/
theorem Tidy.replace (hT : Tidy dirty h) {old row : Task}
    (hold : lookup Task.id row.id h.state.db.tasks = some old) (hsame : SameIdentity row old)
    (husers : ∀ a, row.assignedTo = some a → ∃ u ∈ h.state.db.users, u.id = a)
    {h' : ApiHistory} (hs : h'.state = { h.state.wait (h.fresh ω) with
      db := { h.state.db with tasks := RowTable.replace Task.id row h.state.db.tasks } })
    (hi : h'.issued = ω.newId :: h.issued) (hintact : Intact h'.state.db) :
    Tidy (fun k => dirty k ∨ k = getTaskCacheKey row.id) h' := by
  obtain ⟨holdmem, holdid⟩ := lookup_mem hold
  have hsub : h.issued ⊆ h'.issued := by
    rw [hi]
    exact fun id hid => List.mem_cons_of_mem _ hid
  have hdb : h'.state.db = { h.state.db with
      tasks := RowTable.replace Task.id row h.state.db.tasks } := by rw [hs]
  have hids : ∀ id, (∃ r ∈ RowTable.replace Task.id row h.state.db.tasks, r.id = id) ↔
      ∃ r ∈ h.state.db.tasks, r.id = id := by
    intro id
    have hmap : (RowTable.replace Task.id row h.state.db.tasks).map Task.id
        = h.state.db.tasks.map Task.id := map_key_replace row h.state.db.tasks
    rw [← List.mem_map, ← List.mem_map, hmap]
  refine ⟨?_, ?_, ?_, ?_, ?_, ?_, hintact, ?_⟩
  · rw [hdb]
    exact hT.ids.replace row
  · rw [hdb]
    exact hT.parents.replace hT.ids hold hsame
  · rw [hdb]
    intro r hr
    rcases mem_replace.mp hr with ⟨rfl, -⟩ | ⟨hr, -⟩
    · rw [← holdid]
      exact hsub (hT.issued old holdmem)
    · exact hsub (hT.issued r hr)
  · rw [hdb]
    intro r hr
    rcases mem_replace.mp hr with ⟨rfl, -⟩ | ⟨hr, -⟩
    · rw [hsame.projectId]
      exact hT.projects old holdmem
    · exact hT.projects r hr
  · rw [hdb]
    intro r hr
    rcases mem_replace.mp hr with ⟨rfl, -⟩ | ⟨hr, -⟩
    · exact husers
    · exact hT.users r hr
  · rw [hdb]
    exact fun p hp => hsub (hT.projectsIssued p hp)
  · intro k t hk
    rw [hs] at hk
    obtain ⟨hkey, hcopy, hcur⟩ := hT.cached k t (wait_cache hk)
    refine ⟨hkey, hcopy.mono (by rw [hdb]) hsub ?_, ?_⟩
    · rw [hdb]
      rcases hcopy.stored with hst | hproj | ⟨x, hx, hpar⟩
      · exact Or.inl ((hids _).mpr hst)
      · exact Or.inr (Or.inl hproj)
      · -- the parent is still gone: no row of that id has come back
        refine Or.inr (Or.inr ⟨x, hx, ?_⟩)
        intro r hr hrx
        obtain ⟨r', hr', hrx'⟩ := (hids x).mp ⟨r, hr, hrx⟩
        exact hpar r' hr' hrx'
    · intro hd r hr hrid
      rw [hdb] at hr
      rcases mem_replace.mp hr with ⟨rfl, -⟩ | ⟨hr, -⟩
      · exact absurd (Or.inr (by rw [hkey, hrid])) hd
      · exact hcur (fun hdk => hd (Or.inl hdk)) r hr hrid

/-- Rows besides the one that is overwritten, which is deleted at most if it is not
    their parent. -/
theorem Integral.replace {db : Database} (hids : RowTable.Unique Task.id db.tasks)
    {old row t : Task} (hold : lookup Task.id row.id db.tasks = some old)
    (hsame : SameIdentity row old) (ht : Integral db t)
    (hlive : t.parentTaskId = some row.id → row.deletedAt = none) :
    Integral { db with tasks := RowTable.replace Task.id row db.tasks } t := by
  obtain ⟨holdmem, holdid⟩ := lookup_mem hold
  refine { project := ht.project, parent := ?_, assignee := ht.assignee }
  intro x hx
  obtain ⟨r, hr, rfl, hrlive, hrw⟩ := ht.parent x hx
  by_cases hid : r.id = row.id
  · -- the parent is the row that is overwritten
    have hrold : r = old := hids.eq_of_key hr holdmem (hid.trans holdid.symm)
    refine ⟨row, mem_replace.mpr (Or.inl ⟨rfl, r, hr, hid⟩), hid.symm, ?_, ?_⟩
    · exact hlive (hid ▸ hx)
    · rw [hsame.workspaceId, ← hrold]
      exact hrw
  · exact ⟨r, mem_replace.mpr (Or.inr ⟨hr, hid⟩), rfl, hrlive, hrw⟩

/-- The join column that is written holds the loaded assignee, or, without one, nobody
    but the user that the object was given. -/
theorem joinColumn_cases (e : TaskEntity) (stored : Option Task) :
    (∃ u, e.assignee = some u ∧ e.joinColumn stored = some u.id) ∨
      e.assignee = none ∧ ∀ a, e.joinColumn stored = some a → e.row.assignedTo = some a := by
  unfold TaskEntity.joinColumn
  cases e.assignee with
  | some u => exact Or.inl ⟨u, rfl, rfl⟩
  | none =>
      refine Or.inr ⟨rfl, ?_⟩
      intro a ha
      by_cases hsame : (stored.any fun old => old.assignedTo = e.row.assignedTo) = true
      · simp only [if_pos hsame] at ha
        cases ha
      · simp only [if_neg hsame] at ha
        exact ha

/-- An accepted update has no null for a column that takes none. -/
theorem applyDto_toRow {t : LoadedTask} {dto : UpdateTaskDto} {c : Option Nat}
    {stored : Option Task} {new : Task} (hnew : (applyDto t dto c).toRow stored = some new) :
    dto.title ≠ .null ∧ dto.status ≠ .null ∧ dto.priority ≠ .null := by
  unfold TaskEntity.toRow at hnew
  dsimp only [applyDto] at hnew
  cases htitle : dto.title.assign (some t.row.title) with
  | none =>
      rw [htitle] at hnew
      cases hnew
  | some title =>
      cases hstatus : dto.status.assign (some t.row.status) with
      | none =>
          rw [htitle, hstatus] at hnew
          cases hnew
      | some status =>
          cases hpriority : dto.priority.assign (some t.row.priority) with
          | none =>
              rw [htitle, hstatus, hpriority] at hnew
              cases hnew
          | some priority =>
              refine ⟨?_, ?_, ?_⟩
              · intro heq
                rw [assign_eq_none.mpr heq] at htitle
                cases htitle
              · intro heq
                rw [assign_eq_none.mpr heq] at hstatus
                cases hstatus
              · intro heq
                rw [assign_eq_none.mpr heq] at hpriority
                cases hpriority

theorem Tidy.mono (hT : Tidy dirty h) {dirty' : String → Prop}
    (hd : ∀ k, dirty k → dirty' k) :
    Tidy dirty' h := by
  refine { hT with cached := ?_ }
  intro k t hk
  obtain ⟨hkey, hcopy, hcur⟩ := hT.cached k t hk
  exact ⟨hkey, hcopy, fun hclean => hcur fun hdk => hclean (hd k hdk)⟩

/-- A save of a current copy.  It cannot insert: a copy whose row is missing is gone. -/
theorem Tidy.save (hT : Tidy dirty h) {t : LoadedTask} (ht : Copy h t) (hcur : Current h t)
    {dto : UpdateTaskDto} (c : Option Nat)
    (hversion : versionMismatch dto.version t.row.version = false)
    (hkeeps : ∀ user ∈ h.state.db.users, t.row ∈ h.state.db.tasks →
      Reassigns t.row dto user.id → IsMember h.state.db user.id t.row.workspaceId) :
    Tidy (fun k => dirty k ∨ k = getTaskCacheKey t.row.id)
      (historyExec pg ω (.task (.save (applyDto t dto c))) h).1 := by
  rcases exec_save_cases pg.text (h.fresh ω) (applyDto t dto c) h.state with
    ⟨e, hexec⟩ | ⟨db, saved, hsaved, hexec⟩
  · refine (hT.wait (ω := ω) ?_ rfl).mono fun _ => Or.inl
    show (exec pg.text (h.fresh ω) (.save (applyDto t dto c)) h.state).1 = _
    rw [hexec]
  · have hstate : (historyExec pg ω (.task (.save (applyDto t dto c))) h).1.state
        = { h.state.wait (h.fresh ω) with db := db } := by
      show (exec pg.text (h.fresh ω) (.save (applyDto t dto c)) h.state).1 = _
      rw [hexec]
    cases hsaved with
    | unchanged row stored wanted nothing =>
        exact (hT.wait (ω := ω) hstate rfl).mono fun _ => Or.inl
    | inserted new wanted gone keys =>
        obtain ⟨hsame, -, -⟩ := toRow_some wanted
        obtain ⟨-, ⟨p, hp, hpid⟩, hpar, -, -⟩ := foreignKeysHold_iff.mp keys
        rcases ht.stored with ⟨r, hr, hrid⟩ | hproj | ⟨x, hx, hnone⟩
        · exact absurd (hrid.trans hsame.id.symm) (lookup_eq_none.mp gone r hr)
        · exact absurd (hpid.trans hsame.projectId) (hproj p hp)
        · obtain ⟨r, hr, hrx⟩ := hpar x (hsame.parentTaskId.trans hx)
          exact absurd hrx (hnone r hr)
    | updated old new wanted stored writes keys =>
        obtain ⟨hsame, -, hdel⟩ := toRow_some wanted
        obtain ⟨htitle, hstatus, hpriority⟩ := applyDto_toRow wanted
        have hassigned := toRow_joinColumn wanted
        obtain ⟨-, -, -, hass, -⟩ := foreignKeysHold_iff.mp keys
        obtain ⟨holdmem, holdid⟩ := lookup_mem stored
        -- the row is the one that was loaded
        have hold : old = t.row := hcur old holdmem (holdid.trans hsame.id)
        have hrow : SameIdentity (updateRow (h.state.now + (h.fresh ω).elapsed) old new) old :=
          (updateRow_identity _ _ _).trans (hold ▸ hsame.trans ⟨rfl, rfl, rfl, rfl, rfl⟩)
        have hlive : (updateRow (h.state.now + (h.fresh ω).elapsed) old new).deletedAt = none := by
          show new.deletedAt = none
          rw [hdel]
          exact ht.live
        have hint : Integral h.state.db old := hT.intact old holdmem (hold ▸ ht.live)
        have hmember : ∀ a, new.assignedTo = some a →
            IsMember h.state.db a t.row.workspaceId := by
          intro a ha
          have hloaded : t.assignee = t.row.assignedTo.bind (findUser h.state.db) :=
            congrArg LoadedTask.assignee ht.loaded
          rcases joinColumn_cases (applyDto t dto c) (some old) with
            ⟨u, hta, hjoin⟩ | ⟨hta, hjoin⟩
          · -- the loaded assignee is written back
            rw [hassigned, hjoin] at ha
            rw [show t.assignee = some u from hta] at hloaded
            obtain ⟨b, hb, hub⟩ := Option.bind_eq_some_iff.mp hloaded.symm
            have hba : b = a := (findUser_id hub).symm.trans (Option.some.inj ha)
            rw [← hba, ← hold]
            exact hint.assignee b (hold ▸ hb)
          · obtain ⟨user, huser, huid⟩ := hass a ha
            have hgiven : dto.assignedTo.assign t.row.assignedTo = some a :=
              hjoin a (hassigned ▸ ha)
            rw [show t.assignee = none from hta] at hloaded
            have hfree : t.row.assignedTo = none := by
              cases hb : t.row.assignedTo with
              | none => rfl
              | some b =>
                  rw [hb] at hloaded
                  exact absurd hloaded.symm
                    (findUser_ne_none (hT.users old holdmem b (hold ▸ hb)))
            cases hdto : dto.assignedTo with
            | undefined =>
                rw [hdto, hfree] at hgiven
                cases hgiven
            | null =>
                rw [hdto] at hgiven
                cases hgiven
            | val b =>
                rw [hdto] at hgiven
                obtain rfl : b = a := Option.some.inj hgiven
                subst huid
                exact hkeeps user huser (hold ▸ holdmem)
                  ⟨hdto, hfree, hversion, htitle, hstatus, hpriority⟩
        have hkey : getTaskCacheKey t.row.id = getTaskCacheKey
            (updateRow (h.state.now + (h.fresh ω).elapsed) old new).id := by
          rw [hrow.id, hold]
        rw [hkey]
        have hstored : lookup Task.id (updateRow (h.state.now + (h.fresh ω).elapsed) old new).id
            h.state.db.tasks = some old := stored
        refine hT.replace hstored hrow hass hstate rfl ?_
        · intro t' ht' hlive'
          rw [hstate] at ht' ⊢
          rcases mem_replace.mp ht' with ⟨rfl, -⟩ | ⟨ht', -⟩
          · have h₁ : Integral h.state.db
                (updateRow (h.state.now + (h.fresh ω).elapsed) old new) := by
              refine ⟨?_, ?_, ?_⟩
              · rw [hrow.projectId, hrow.workspaceId]
                exact hint.project
              · rw [hrow.parentTaskId, hrow.workspaceId]
                exact hint.parent
              · intro a ha
                rw [hrow.workspaceId, hold]
                exact hmember a ha
            exact Integral.replace hT.ids stored hrow h₁ fun _ => hlive
          · exact Integral.replace hT.ids stored hrow (hT.intact t' ht' hlive') fun _ => hlive

/-- A soft deletion of a task without live children. -/
theorem Tidy.softRemove (hT : Tidy dirty h) {t : LoadedTask} (hcur : Current h t)
    (hkeeps : t.row ∈ h.state.db.tasks → ∀ child ∈ h.state.db.tasks,
      child.parentTaskId = some t.row.id → child.deletedAt ≠ none) :
    Tidy (fun k => dirty k ∨ k = getTaskCacheKey t.row.id)
      (historyExec pg ω (.task (.softRemove t)) h).1 := by
  generalize hh : (historyExec pg ω (.task (.softRemove t)) h).1 = h'
  have hissued : h'.issued = ω.newId :: h.issued := by
    rw [← hh]
    rfl
  have hstate : h'.state = { h.state.wait (h.fresh ω) with
      db := softRemoveTask h.state.db (h.state.now + (h.fresh ω).elapsed) t.row.id } := by
    rw [← hh]
    rfl
  rcases softRemoveTask_cases h.state.db (h.state.now + (h.fresh ω).elapsed) t.row.id with
    ⟨-, hsame⟩ | ⟨row, hrow, hsoft⟩
  · rw [hsame] at hstate
    exact (hT.wait hstate hissued).mono fun _ => Or.inl
  · rw [hsoft] at hstate
    obtain ⟨hmem, hid⟩ := lookup_mem hrow
    -- the copy that was loaded is current, so its row is the one that goes
    have heq : row = t.row := hcur row hmem hid
    have hidentity := markDeleted_identity (h.state.now + (h.fresh ω).elapsed) row
    have hold : lookup Task.id (markDeleted (h.state.now + (h.fresh ω).elapsed) row).id
        h.state.db.tasks = some row := by
      show lookup Task.id row.id _ = _
      rw [hid]
      exact hrow
    have hkey : getTaskCacheKey t.row.id
        = getTaskCacheKey (markDeleted (h.state.now + (h.fresh ω).elapsed) row).id := by
      show _ = getTaskCacheKey row.id
      rw [hid]
    rw [hkey]
    refine hT.replace hold hidentity (hT.users row hmem) hstate hissued ?_
    intro t' ht' hlive
    rw [hstate] at ht' ⊢
    rcases mem_replace.mp ht' with ⟨rfl, -⟩ | ⟨ht', -⟩
    · cases hlive
    · refine Integral.replace hT.ids hold hidentity (hT.intact t' ht' hlive) ?_
      intro hchild
      exact absurd hlive (hkeeps (heq ▸ hmem) t' ht' (hid ▸ hchild))

/-- The deletion of a project. -/
theorem Tidy.removeProject (hT : Clean h) (id : String) :
    Clean (historyExec pg ω (.removeProject id) h).1 := by
  generalize hh : (historyExec pg ω (.removeProject id) h).1 = h'
  have hissued : h'.issued = ω.newId :: h.issued := by
    rw [← hh]
    rfl
  have hsub : h.issued ⊆ h'.issued := by
    rw [hissued]
    exact fun id hid => List.mem_cons_of_mem _ hid
  have hstate : h'.state = { h.state.wait (h.fresh ω) with
      db := PlatformTasks.removeProject h.state.db id } := by
    rw [← hh]
    rfl
  have hdb : h'.state.db = PlatformTasks.removeProject h.state.db id := by rw [hstate]
  have hmem : ∀ r, r ∈ h'.state.db.tasks ↔
      r ∈ h.state.db.tasks ∧ ¬ HangsBelow h.state.db (fun t => t.projectId = id) r := by
    intro r
    rw [hdb]
    exact mem_removeTasks hT.ids hT.parents
  have hprojects : ∀ p, p ∈ h'.state.db.projects ↔ p ∈ h.state.db.projects ∧
    p.id ≠ id := by
    intro p
    rw [hdb]
    show p ∈ h.state.db.projects.filter _ ↔ _
    rw [List.mem_filter, decide_eq_true_eq]
  -- a task goes with its project, and with its parent
  have hself : ∀ r ∈ h.state.db.tasks, r.projectId = id →
      HangsBelow h.state.db (fun t => t.projectId = id) r :=
    fun r hr hid => ⟨r, hr, decide_eq_true hid, .refl⟩
  have hchild : ∀ r ∈ h.state.db.tasks, ∀ p, r.parentTaskId = some p.id →
      HangsBelow h.state.db (fun t => t.projectId = id) p →
        HangsBelow h.state.db (fun t => t.projectId = id) r := by
    rintro r hr p hparent ⟨a, ha, hgone, hchain⟩
    exact ⟨a, ha, hgone, hchain.tail ⟨hr, hparent⟩⟩
  have hkeptProject : ∀ r ∈ h'.state.db.tasks, ∀ p ∈ h.state.db.projects,
      p.id = r.projectId → p ∈ h'.state.db.projects := by
    intro r hr p hp hpr
    obtain ⟨hr, hnot⟩ := (hmem r).mp hr
    exact (hprojects p).mpr ⟨hp, fun hid => hnot (hself r hr (hpr.symm.trans hid))⟩
  refine ⟨?_, ?_, ?_, ?_, ?_, ?_, ?_, ?_⟩
  · rw [hdb]
    exact Unique.filter hT.ids _
  · rw [hdb]
    show ParentsFirst (h.state.db.tasks.filter _)
    refine hT.parents.filter ?_
    intro r hr hkept r' hr' hparent
    have hr₁ := (mem_removeTasks hT.ids hT.parents).mp (List.mem_filter.mpr ⟨hr, hkept⟩)
    have hr₁' : r' ∈ (removeTasks h.state.db fun t => t.projectId = id).tasks :=
      (mem_removeTasks hT.ids hT.parents).mpr
        ⟨hr', fun hbelow => hr₁.2 (hchild r hr r' hparent hbelow)⟩
    exact (List.mem_filter.mp hr₁').2
  · exact fun r hr => hsub (hT.issued r ((hmem r).mp hr).1)
  · intro r hr
    obtain ⟨p, hp, hpr⟩ := hT.projects r ((hmem r).mp hr).1
    exact ⟨p, hkeptProject r hr p hp hpr, hpr⟩
  · intro r hr
    rw [hdb]
    exact hT.users r ((hmem r).mp hr).1
  · exact fun p hp => hsub (hT.projectsIssued p ((hprojects p).mp hp).1)
  · intro t ht hlive
    obtain ⟨ht₀, hnot⟩ := (hmem t).mp ht
    refine (hT.intact t ht₀ hlive).mono (hkeptProject t ht) ?_ ?_
    · intro r hr hparent hrlive
      exact ⟨r, (hmem r).mpr ⟨hr, fun hbelow => hnot (hchild t ht₀ r hparent hbelow)⟩, rfl,
        hrlive, rfl⟩
    · rw [hdb]
      exact fun _ _ ha => ha
  · intro k t hk
    rw [hstate] at hk
    obtain ⟨hkey, hcopy, hcur⟩ := hT.cached k t (wait_cache hk)
    refine ⟨hkey, hcopy.mono (by rw [hdb]; rfl) hsub ?_, ?_⟩
    · rcases hcopy.stored with ⟨r, hr, hrid⟩ | hproj | ⟨x, hx, hnone⟩
      · by_cases hbelow : HangsBelow h.state.db (fun t => t.projectId = id) r
        · -- the row is taken along: with its project, or with its parent
          rw [hcur not_false r hr hrid] at hbelow hr
          obtain ⟨a, ha, hgone, hchain⟩ := hbelow
          rcases Relation.ReflTransGen.cases_tail hchain with heq | ⟨b, hab, hlink⟩
          · refine Or.inr (Or.inl ?_)
            intro p hp
            rw [heq, of_decide_eq_true hgone]
            exact ((hprojects p).mp hp).2
          · refine Or.inr (Or.inr ⟨b.id, hlink.parent, ?_⟩)
            intro r' hr' hid
            have hbb : HangsBelow h.state.db (fun t => t.projectId = id) b :=
              ⟨a, ha, hgone, hab⟩
            obtain ⟨hr', hnot⟩ := (hmem r').mp hr'
            rw [hT.ids.eq_of_key hr' hbb.stored hid] at hnot
            exact hnot hbb
        · exact Or.inl ⟨r, (hmem r).mpr ⟨hr, hbelow⟩, hrid⟩
      · exact Or.inr (Or.inl fun p hp => hproj p ((hprojects p).mp hp).1)
      · exact Or.inr (Or.inr ⟨x, hx, fun r hr => hnone r ((hmem r).mp hr).1⟩)
    · exact fun hd r hr hrid => hcur hd r ((hmem r).mp hr).1 hrid

/-- A save that is rejected. -/
theorem Tidy.save_rejected (hT : Tidy dirty h) {e : TaskEntity} {err : HttpError}
    (herr : (historyExec pg ω (.task (.save e)) h).2 = .error err) :
    Tidy dirty (historyExec pg ω (.task (.save e)) h).1 := by
  have herr' : (exec pg.text (h.fresh ω) (.save e) h.state).2 = .error err := herr
  rcases exec_save_cases pg.text (h.fresh ω) e h.state with ⟨_, hexec⟩
    | ⟨db, saved, -, hexec⟩
  · refine hT.wait (ω := ω) ?_ rfl
    show (exec pg.text (h.fresh ω) (.save e) h.state).1 = _
    rw [hexec]
  · rw [hexec] at herr'
    cases herr'

/-! ## Calls -/

theorem calm_lift {α : Type} {p : TaskProg α} (hp : OnlyIssues PlatformTasks.Quiet p) :
    OnlyIssues Calm (liftTask p) := by
  refine onlyIssues_liftTask (hp.mono fun op hop => ?_)
  cases op with
  | cacheSet key v ttl => exact absurd hop not_false
  | insert n => exact absurd hop not_false
  | save e => exact absurd hop not_false
  | softRemove t => exact absurd hop not_false
  | _ => trivial

theorem calm_ensures {α : Type} {p : ApiProg α} (hp : OnlyIssues Calm p)
    (hT : Tidy dirty h) : Ensures (historyExec pg) (fun _ h' => Tidy dirty h') p h :=
  (hp.ensures (fun _ _ _ hc hT => hT.calm hc) (returns_any p) hT).mono fun _ _ hr => hr.1

/-- A row of the table, loaded. -/
theorem Tidy.copy (hT : Tidy dirty h) {r : Task} (hr : r ∈ h.state.db.tasks)
    (hlive : r.deletedAt = none) :
    Copy h (loadTask h.state.db r) ∧ Current h (loadTask h.state.db r) := by
  refine ⟨⟨rfl, hlive, hT.issued r hr, ?_, ?_, Or.inl ⟨r, hr, rfl⟩⟩, ?_⟩
  · obtain ⟨p, hp, hpr⟩ := hT.projects r hr
    exact hpr ▸ hT.projectsIssued p hp
  · intro x hx
    obtain ⟨l₁, l₂, hl⟩ := List.append_of_mem hr
    obtain ⟨r', hr', rfl⟩ := hT.parents l₁ r l₂ hl x hx
    exact hT.issued r' (by rw [hl]; exact List.mem_append_left _ hr')
  · intro r' hr' hid
    exact hT.ids.eq_of_key hr' hr hid

/-- What `findById` comes back with. -/
structure Found (h h' : ApiHistory) (id w : String) (t : LoadedTask) : Prop where
  copy : Copy h' t
  current : Current h' t
  id : t.row.id = id
  workspaceId : t.row.workspaceId = w
  db : h'.state.db = h.state.db

theorem findTask_ensures (hT : Clean h) (id w : String) :
    Ensures (historyExec pg) (fun r h' => Clean h' ∧ ∀ t, r = .ok t → Found h h' id w t)
      (liftTask (PlatformTasks.findById id w)) h := by
  have hdb : ∀ h₁ : ApiHistory, Clean h₁ → h₁.state.db = h.state.db →
      Ensures (historyExec pg) (fun r h' => Clean h' ∧ ∀ t, r = .ok t → Found h h' id w t)
        (liftTask (findInDatabase id w)) h₁ := by
    intro h₁ hT₁ hdb₁ ω
    have hT₂ : Clean (historyExec pg ω (.task (.findOne id w)) h₁).1 := hT₁.calm trivial
    have hanswer : (historyExec pg ω (.task (.findOne id w)) h₁).2
        = findOneTask h₁.state.db id w := rfl
    have hstate : (historyExec pg ω (.task (.findOne id w)) h₁).1.state.db
        = h₁.state.db := rfl
    generalize (historyExec pg ω (.task (.findOne id w)) h₁).1 = h₂ at hT₂ hstate ⊢
    rw [hanswer]
    cases hf : findOneTask h₁.state.db id w with
    | none => exact ⟨hT₂, fun t ht => by cases ht⟩
    | some t =>
        obtain ⟨hload, hmem, hid, hw, hlive⟩ := findOneTask_some hf
        obtain ⟨hcopy, hcur⟩ := hT₂.copy (hstate ▸ hmem) hlive
        rw [hstate, ← hload] at hcopy hcur
        intro ω'
        -- what was read from the database is what fills the cache
        have hT₃ : Clean (historyExec pg ω'
            (.task (.cacheSet (getTaskCacheKey id) (.task t) 300)) h₂).1 := by
          rw [← hid]
          exact hT₂.fill hcopy hcur 300
        refine ⟨hT₃, ?_⟩
        intro t' ht'
        rw [← Except.ok.inj ht']
        refine ⟨hcopy.mono rfl (fun id hid => List.mem_cons_of_mem _ hid) hcopy.stored, hcur,
          hid, hw, ?_⟩
        show h₂.state.db = h.state.db
        rw [hstate, hdb₁]
  intro ω
  have hT₁ : Clean (historyExec pg ω (.task (.cacheGet (getTaskCacheKey id))) h).1 :=
    hT.calm trivial
  have hanswer : (historyExec pg ω (.task (.cacheGet (getTaskCacheKey id))) h).2
      = (historyExec pg ω (.task (.cacheGet (getTaskCacheKey id))) h).1.state.cache
          (getTaskCacheKey id) := rfl
  have hstate : (historyExec pg ω (.task (.cacheGet (getTaskCacheKey id))) h).1.state.db
      = h.state.db := rfl
  generalize (historyExec pg ω (.task (.cacheGet (getTaskCacheKey id))) h).1 = h₁
    at hT₁ hanswer hstate ⊢
  rw [hanswer]
  rcases hc : h₁.state.cache (getTaskCacheKey id) with _ | (t | page | ws | l)
  · exact hdb h₁ hT₁ hstate
  · show Ensures _ _ (liftTask (if t.row.workspaceId = w then .done t
      else findInDatabase id w)) h₁
    by_cases hw : t.row.workspaceId = w
    · rw [if_pos hw]
      refine ⟨hT₁, ?_⟩
      intro t' ht'
      rw [← Except.ok.inj ht']
      obtain ⟨hkey, hcopy, hcur⟩ := hT₁.cached _ t hc
      exact ⟨hcopy, hcur not_false, (getTaskCacheKey_injective hkey).symm, hw, hstate⟩
    · rw [if_neg hw]
      exact hdb h₁ hT₁ hstate
  · exact hdb h₁ hT₁ hstate
  · exact hdb h₁ hT₁ hstate
  · exact hdb h₁ hT₁ hstate

/-- The end of an update or a deletion: the key is dropped, and the rest writes
    nothing. -/
theorem cleaned_ensures {α : Type} {id : String} {f : Unit → ApiProg α}
    (hT : Tidy (fun k => k = getTaskCacheKey id) h) (hf : ∀ u, OnlyIssues Calm (f u)) :
    Ensures (historyExec pg) (fun _ h' => Clean h')
      (.await (.task (.cacheDel (getTaskCacheKey id))) f) h := by
  intro ω
  exact calm_ensures (hf _) ((hT.drop _).mono fun k hk => hk.2 hk.1)

theorem createTask_ensures (hT : Clean h) {w p u : String} {dto : CreateTaskDto}
    (hfits : KeepsIntact h.state.db (.task (.createTask w p u dto))) :
    Ensures (historyExec pg) (fun _ h' => Clean h')
      (liftTask (PlatformTasks.createTask w p u dto)) h := by
  intro ω
  refine calm_ensures ?_ (hT.insert rfl rfl hfits)
  rcases (historyExec pg ω _ h).2 with e | row
  · trivial
  · refine calm_lift ?_
    exact ⟨trivial, fun _ => ⟨trivial, fun _ => ⟨trivial, fun _ => ⟨trivial, fun _ =>
      (notifyAssignee_quiet dto).bind fun _ => trivial⟩⟩⟩⟩

theorem updateTask_ensures (hT : Clean h) {id w u : String} {dto : UpdateTaskDto}
    (hkeeps : KeepsIntact h.state.db (.task (.updateTask id w u dto))) :
    Ensures (historyExec pg) (fun _ h' => Clean h')
      (liftTask (PlatformTasks.updateTask id w u dto)) h := by
  show Ensures _ _ (liftTask (PlatformTasks.findById id w >>= updateLoaded id w u dto)) h
  rw [liftTask_bind, ensures_bind]
  refine (findTask_ensures hT id w).mono ?_
  rintro (e | t) h₁ ⟨hT₁, hfound⟩
  · exact hT₁
  · have hf := hfound t rfl
    show Ensures _ _ (liftTask (updateLoaded id w u dto t)) h₁
    unfold updateLoaded
    by_cases hversion : versionMismatch dto.version t.row.version = true
    · rw [if_pos hversion]
      exact hT₁
    · rw [if_neg hversion, liftTask_bind, ensures_bind]
      -- asking for the time leaves all that the save needs
      let Ready (h' : ApiHistory) : Prop := Clean h' ∧ Copy h' t ∧ Current h' t ∧
        ∀ user ∈ h'.state.db.users, t.row ∈ h'.state.db.tasks →
          Reassigns t.row dto user.id →
          IsMember h'.state.db user.id t.row.workspaceId
      have hready : Ready h₁ := by
        refine ⟨hT₁, hf.copy, hf.current, ?_⟩
        rw [hf.db, hf.workspaceId]
        intro user huser hmem hre
        exact hkeeps t.row hmem hf.id hf.workspaceId hf.copy.live user huser hre
      have hstays : ∀ ω op h', Calm op → Ready h' → Ready (historyExec pg ω op h').1 := by
        rintro ω op h' hc ⟨hT', hcopy, hcur, hmember⟩
        have hu : Undisturbed (h'.fresh ω) h'.state (historyExec pg ω op h').1.state :=
          calm_undisturbed pg (h'.fresh ω) h'.state hc
        refine ⟨hT'.calm hc, hcopy.mono hu.users
          (fun id hid => List.mem_cons_of_mem _ hid) ?_, ?_, ?_⟩
        · rw [hu.tasks]
          exact hcopy.stored.imp_right fun hgone => hgone.undisturbed hu hcopy.projectIssued
        · unfold Current
          rw [hu.tasks]
          exact hcur
        · rw [hu.users, hu.tasks]
          intro user huser hmem hre
          exact isMember_mono hu.members _ _ (hmember user huser hmem hre)
      refine ((calm_lift (completionTime_quiet dto t)).ensures hstays (returns_any _)
        hready).mono ?_
      rintro (e | c) h₂ ⟨⟨hT₂, hcopy, hcur, hmember⟩, -⟩
      · exact hT₂
      · intro ω
        have hsaved : Tidy (fun k => False ∨ k = getTaskCacheKey t.row.id)
            (historyExec pg ω (.task (.save (applyDto t dto c))) h₂).1 :=
          hT₂.save hcopy hcur c (by simpa using hversion) hmember
        have hrejected : ∀ e, (historyExec pg ω (.task (.save (applyDto t dto c))) h₂).2
            = .error e → Clean (historyExec pg ω (.task (.save (applyDto t dto c))) h₂).1 :=
          fun e he => hT₂.save_rejected he
        generalize (historyExec pg ω (.task (.save (applyDto t dto c))) h₂).1 = h₃
          at hsaved hrejected ⊢
        generalize (historyExec pg ω (.task (.save (applyDto t dto c))) h₂).2 = answer
          at hrejected ⊢
        cases answer with
        | error e => exact hrejected e rfl
        | ok saved =>
            have hT₃ : Tidy (fun k => k = getTaskCacheKey id) h₃ :=
              hsaved.mono fun k hk => hk.elim False.elim fun hk => hf.id ▸ hk
            have hquiet := afterSave_quiet id w u dto t saved
            exact cleaned_ensures hT₃ fun _ => calm_lift (hquiet.2 ())

theorem deleteTask_ensures (hT : Clean h) {id w u : String}
    (hkeeps : KeepsIntact h.state.db (.task (.deleteTask id w u))) :
    Ensures (historyExec pg) (fun _ h' => Clean h')
      (liftTask (PlatformTasks.deleteTask id w u)) h := by
  show Ensures _ _ (liftTask (PlatformTasks.findById id w >>= _)) h
  rw [liftTask_bind, ensures_bind]
  refine (findTask_ensures hT id w).mono ?_
  rintro (e | t) h₁ ⟨hT₁, hfound⟩
  · exact hT₁
  · have hf := hfound t rfl
    intro ω
    have hremoved : Tidy (fun k => False ∨ k = getTaskCacheKey t.row.id)
        (historyExec pg ω (.task (.softRemove t)) h₁).1 := by
      refine hT₁.softRemove hf.current ?_
      rw [hf.db, hf.id]
      exact fun hmem => hkeeps t.row hmem hf.id hf.workspaceId hf.copy.live
    have hT₂ : Tidy (fun k => k = getTaskCacheKey id)
        (historyExec pg ω (.task (.softRemove t)) h₁).1 :=
      hremoved.mono fun k hk => hk.elim False.elim fun hk => hf.id ▸ hk
    refine cleaned_ensures hT₂ fun _ => ?_
    exact ⟨trivial, fun _ => ⟨trivial, fun _ => ⟨trivial, fun _ => ⟨trivial, fun _ =>
      ⟨trivial, fun _ => trivial⟩⟩⟩⟩⟩

theorem deleteProject_ensures (hT : Clean h) (id w u : String) :
    Ensures (historyExec pg) (fun _ h' => Clean h') (PlatformApi.deleteProject id w u) h := by
  show Ensures _ _ (PlatformApi.findProjectById id w >>= _) h
  rw [ensures_bind]
  have hfind : OnlyIssues Calm (PlatformApi.findProjectById id w) := by
    refine ⟨trivial, ?_⟩
    rintro (_ | p) <;> trivial
  refine (calm_ensures hfind hT).mono ?_
  rintro (e | p) h₁ hT₁
  · exact hT₁
  · intro ω
    have hremoved : Clean (historyExec pg ω (.removeProject p.id) h₁).1 :=
      hT₁.removeProject p.id
    refine calm_ensures ?_ hremoved
    exact ⟨trivial, fun _ => ⟨trivial, fun _ => ⟨trivial, fun _ => trivial⟩⟩⟩

end Steps

/-! ### Calls that leave the tasks alone -/

theorem createProject_calm (w u name : String) (d : Option String) :
    OnlyIssues Calm (PlatformApi.createProject w u name d) :=
  ⟨trivial, fun r => (onlyIssues_orThrow r).bind fun _ =>
    ⟨trivial, fun _ => ⟨trivial, fun _ => ⟨trivial, fun _ => trivial⟩⟩⟩⟩

theorem createWorkspace_calm (u name : String) (slug : Option String) :
    OnlyIssues Calm (PlatformApi.createWorkspace u name slug) := by
  refine ⟨trivial, ?_⟩
  rintro (_ | w)
  · exact ⟨trivial, fun r => (onlyIssues_orThrow r).bind fun _ =>
      ⟨trivial, fun _ => trivial⟩⟩
  · trivial

theorem findById_calm (id : String) : OnlyIssues Calm (PlatformApi.findById id) :=
  onlyIssues_findById (fun _ => trivial) (fun _ _ _ t heq => (by cases heq)) (fun _ => trivial)
    id

theorem inviteMember_calm (w u email : String) (role : Role) :
    OnlyIssues Calm (PlatformApi.inviteMember w u email role) := by
  refine (findById_calm w).bind fun ws => ?_
  refine ⟨trivial, fun found => (onlyIssues_orNotFound _ found).bind fun user =>
    ⟨trivial, ?_⟩⟩
  rintro (_ | m)
  · refine ⟨trivial, fun r => (onlyIssues_orThrow r).bind fun _ =>
      ⟨trivial, fun invited => ?_⟩⟩
    refine (onlyIssues_orNotFound _ invited).bind fun _ => ⟨trivial, fun _ => ?_⟩
    exact (calm_lift (notification_quiet _ _ _ _)).bind fun _ => ⟨trivial, fun _ => trivial⟩
  · trivial

/-- **One call.**  An accepted call that does no harm keeps the invariant. -/
theorem call_clean (pg : Postgres) {h : ApiHistory} (hT : Clean h) {c : ApiCall}
    (hacc : accepts h.state.db c = true) (hkeeps : KeepsIntact h.state.db c) :
    Ensures (historyExec pg) (fun _ h' => Clean h') c.prog h := by
  cases c with
  | task call =>
      cases call with
      | createTask w p u dto => exact ensures_map.mpr (createTask_ensures hT hkeeps)
      | updateTask id w u dto => exact ensures_map.mpr (updateTask_ensures hT hkeeps)
      | deleteTask id w u => exact ensures_map.mpr (deleteTask_ensures hT hkeeps)
      | getTasks w p q => cases hacc
      | findById id w => cases hacc
  | createProject w u name d =>
      exact ensures_map.mpr (calm_ensures (createProject_calm w u name d) hT)
  | deleteProject id w u => exact ensures_map.mpr (deleteProject_ensures hT id w u)
  | createWorkspace u name slug =>
      exact ensures_map.mpr (calm_ensures (createWorkspace_calm u name slug) hT)
  | inviteMember w u email role =>
      exact ensures_map.mpr (calm_ensures (inviteMember_calm w u email role) hT)
  | _ => cases hacc

/-! ## Sequences -/

/-- A platform on which there are no projects yet. -/
structure NoProjects (h : ApiHistory) : Prop where
  projects : h.state.db.projects = []
  tasks : h.state.db.tasks = []
  cache : ∀ k t, h.state.cache k ≠ some (.task t)

theorem NoProjects.clean {h : ApiHistory} (hn : NoProjects h) : Clean h where
  ids := by
    rw [hn.tasks]
    exact List.nodup_nil
  parents := by
    rw [hn.tasks]
    intro l₁ r l₂ heq
    exact absurd heq (by simp)
  issued := by
    rw [hn.tasks]
    exact fun r hr => absurd hr List.not_mem_nil
  projects := by
    rw [hn.tasks]
    exact fun r hr => absurd hr List.not_mem_nil
  users := by
    rw [hn.tasks]
    exact fun r hr => absurd hr List.not_mem_nil
  projectsIssued := by
    rw [hn.projects]
    exact fun p hp => absurd hp List.not_mem_nil
  intact := by
    unfold Intact
    rw [hn.tasks]
    exact fun t ht => absurd ht List.not_mem_nil
  cached := fun k t hk => absurd hk (hn.cache k t)

theorem emptyPlatform_noProjects : NoProjects emptyPlatform :=
  ⟨rfl, rfl, fun _ _ hhit => by cases hhit⟩

/-- Nothing expires, and ids are numbered. -/
def numbered (name : String) (n : Nat) : Choice := ⟨0, [], name ++ toString n⟩

/-- The first user sets up a workspace with a project, a task of its own and a subtask;
    the task is renamed, the subtask deleted, and then the project. -/
def tidyCalls : List (ApiCall × (Nat → Choice)) :=
  [(.createWorkspace "a" "Work" (some "work"), numbered "w"),
    (.createProject "w1" "a" "Project" none, numbered "p"),
    (.task (.createTask "w1" "p0" "a" { title := "Plan", assignedTo := some "a" }), numbered "t"),
    (.task (.createTask "w1" "p0" "a" { title := "Step", parentTaskId := some "t0" }),
      numbered "s"),
    (.task (.updateTask "t0" "w1" "a" { title := .val "Draft" }), numbered "x"),
    (.task (.deleteTask "s0" "w1" "a"), numbered "y"),
    (.deleteProject "p0" "w1" "a", numbered "z")]

/-- Two workspaces, each with its owner, and a task of the one in the project of the
    other. -/
def strayCalls : List (ApiCall × (Nat → Choice)) :=
  [(.createWorkspace "a" "Work" (some "work"), numbered "w"),
    (.createWorkspace "b" "Vault" (some "vault"), numbered "v"),
    (.createProject "v1" "b" "Rival" none, numbered "p"),
    (.task (.createTask "w1" "p0" "a" { title := "Plan" }), numbered "t")]

end PlatformApi
