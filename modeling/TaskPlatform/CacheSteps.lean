import TaskPlatform.CachedReads

/-! # The cache step by step

    Every entry is an answer of the database, but for keys that are dirty
    (`Transparent`).  A statement makes dirty what its call is going to drop, an
    invalidation cleans, a fill with an answer is harmless, and so is every entry that
    goes.  Deletions need the condition that nothing is left of what their cascade
    takes. -/

namespace PlatformApi

open AsyncProgram Interleaving PlatformEntities PlatformTasks RowTable GlobPattern CacheAside

/-! ## The invariant -/

/-- Primary keys, and ids that a pattern takes for plain text. -/
structure KeyedTables (db : Database) : Prop where
  taskIds : Unique Task.id db.tasks
  projectIds : Unique Project.id db.projects
  workspaceIds : Unique Workspace.id db.workspaces
  plain : PlainIds db
  placed : ∀ t ∈ db.tasks, Plain t.workspaceId ∧ Plain t.projectId

/-- Every entry is an answer of the database, but for keys that are dirty. -/
structure Transparent (pg : PostgresText) (Q : String → String → QueryTaskDto → Prop)
    (dirty : String → Prop) (s : TaskState) : Prop where
  tables : KeyedTables s.db
  entries : UpToDate CachedRead.key (CachedRead.answer pg) (Asked Q) dirty s.db s.cache

/-- No key is dirty. -/
abbrev Settled (pg : PostgresText) (Q : String → String → QueryTaskDto → Prop) :
    TaskState → Prop := Transparent pg Q fun _ => False

theorem wait_within (s : TaskState) (ω : Choice) : Within (s.wait ω).cache s.cache :=
  fun _ _ h => wait_cache h

namespace KeyedTables

variable {db : Database}

theorem appendTask (h : KeyedTables db) {row : Task}
    (hnew : lookup Task.id row.id db.tasks = none) (hkeys : foreignKeysHold db row = true) :
    KeyedTables { db with tasks := db.tasks ++ [row] } := by
  obtain ⟨hw, hp, -⟩ := foreignKeysHold_iff.mp hkeys
  refine
    { h with
      taskIds := h.taskIds.append hnew
      plain := ⟨h.plain.1, h.plain.2⟩
      placed := ?_ }
  intro t ht
  rcases List.mem_append.mp ht with ht | ht
  · exact h.placed t ht
  · rw [List.mem_singleton.mp ht]
    exact h.plain.of_placed hw hp

theorem replaceTask (h : KeyedTables db) {old row : Task}
    (hold : lookup Task.id row.id db.tasks = some old) (hsame : SameIdentity row old) :
    KeyedTables { db with tasks := RowTable.replace Task.id row db.tasks } := by
  refine
    { h with
      taskIds := h.taskIds.replace row
      plain := ⟨h.plain.1, h.plain.2⟩
      placed := ?_ }
  intro t ht
  rcases mem_replace.mp ht with ⟨rfl, -⟩ | ⟨ht, -⟩
  · rw [hsame.workspaceId, hsame.projectId]
    exact h.placed old (lookup_mem hold).1
  · exact h.placed t ht

/-- Deletions take rows out and put none in. -/
theorem removeTasks (h : KeyedTables db) (gone : Task → Bool) :
    KeyedTables (PlatformTasks.removeTasks db gone) :=
  { h with
    taskIds := h.taskIds.filter _
    plain := ⟨h.plain.1, h.plain.2⟩
    placed := fun t ht => h.placed t (List.mem_filter.mp ht).1 }

theorem filterProjects (h : KeyedTables db) (p : Project → Bool) :
    KeyedTables { db with projects := db.projects.filter p } :=
  { h with
    projectIds := h.projectIds.filter _
    plain := ⟨h.plain.1, fun q hq => h.plain.2 q (List.mem_filter.mp hq).1⟩ }

theorem filterWorkspaces (h : KeyedTables db) (p : Workspace → Bool) :
    KeyedTables { db with workspaces := db.workspaces.filter p } :=
  { h with
    workspaceIds := h.workspaceIds.filter _
    plain := ⟨fun w hw => h.plain.1 w (List.mem_filter.mp hw).1, h.plain.2⟩ }

theorem appendProject (h : KeyedTables db) {p : Project}
    (hnew : lookup Project.id p.id db.projects = none) (hp : Plain p.id) :
    KeyedTables { db with projects := db.projects ++ [p] } := by
  refine { h with projectIds := h.projectIds.append hnew, plain := ⟨h.plain.1, ?_⟩ }
  intro q hq
  rcases List.mem_append.mp hq with hq | hq
  · exact h.plain.2 q hq
  · rw [List.mem_singleton.mp hq]
    exact hp

theorem saveProject (h : KeyedTables db) {old p : Project} (hold : old ∈ db.projects)
    (hid : old.id = p.id) :
    KeyedTables { db with projects := upsert Project.id p db.projects } := by
  refine { h with projectIds := h.projectIds.upsert p, plain := ⟨h.plain.1, ?_⟩ }
  intro q hq
  by_cases hkey : q.id = p.id
  · rw [hkey, ← hid]
    exact h.plain.2 old hold
  · exact h.plain.2 q (mem_of_mem_upsert_ne hq hkey)

theorem appendWorkspace (h : KeyedTables db) {w : Workspace}
    (hnew : lookup Workspace.id w.id db.workspaces = none) (hw : Plain w.id) :
    KeyedTables { db with workspaces := db.workspaces ++ [w] } := by
  refine { h with workspaceIds := h.workspaceIds.append hnew, plain := ⟨?_, h.plain.2⟩ }
  intro q hq
  rcases List.mem_append.mp hq with hq | hq
  · exact h.plain.1 q hq
  · rw [List.mem_singleton.mp hq]
    exact hw

theorem saveWorkspace (h : KeyedTables db) {old w : Workspace} (hold : old ∈ db.workspaces)
    (hid : old.id = w.id) :
    KeyedTables { db with workspaces := upsert Workspace.id w db.workspaces } := by
  refine { h with workspaceIds := h.workspaceIds.upsert w, plain := ⟨?_, h.plain.2⟩ }
  intro q hq
  by_cases hkey : q.id = w.id
  · rw [hkey, ← hid]
    exact h.plain.1 old hold
  · exact h.plain.1 q (mem_of_mem_upsert_ne hq hkey)

/-- The other tables do not count. -/
theorem congr {db' : Database} (h : KeyedTables db) (htasks : db'.tasks = db.tasks)
    (hprojects : db'.projects = db.projects) (hworkspaces : db'.workspaces = db.workspaces) :
    KeyedTables db' where
  taskIds := htasks ▸ h.taskIds
  projectIds := hprojects ▸ h.projectIds
  workspaceIds := hworkspaces ▸ h.workspaceIds
  plain := ⟨hworkspaces ▸ h.plain.1, hprojects ▸ h.plain.2⟩
  placed := htasks ▸ h.placed

end KeyedTables

/-! ## Steps -/

namespace Transparent

variable {pg : PostgresText} {Q : String → String → QueryTaskDto → Prop}
  {dirty dirty' : String → Prop} {s : TaskState}

theorem mono (hT : Transparent pg Q dirty s) (hd : ∀ k, dirty k → dirty' k) :
    Transparent pg Q dirty' s :=
  ⟨hT.tables, hT.entries.mono (Within.refl s.cache) hd⟩

theorem wait (hT : Transparent pg Q dirty s) (ω : Choice) :
    Transparent pg Q dirty (s.wait ω) :=
  ⟨hT.tables, hT.entries.mono (wait_within s ω) fun _ hk => hk⟩

/-- What a hit brings back. -/
theorem hit (hT : Settled pg Q s) {ω : Choice} {k : String} {v : CacheValue}
    (h : (s.wait ω).cache k = some v) :
    ∃ r, Asked Q r ∧ CachedRead.key r = k ∧ r.answer pg s.db = some v :=
  hT.entries.hit (wait_cache h) not_false

/-- A fill with an answer. -/
theorem fill (hT : Transparent pg Q dirty s) (ω : Choice) {r : CachedRead} {v : CacheValue}
    (hr : Asked Q r) (hv : r.answer pg s.db = some v) (ttl : Nat) :
    Transparent pg Q dirty (exec pg ω (.cacheSet r.key v ttl) s).1 := by
  refine ⟨hT.tables, hT.entries.fill hr hv ?_⟩
  intro k v' hk
  rcases exec_cache pg hk with hk | ⟨ttl', hop⟩
  · exact Or.inl hk
  · cases hop
    exact Or.inr ⟨rfl, rfl⟩

/-- An operation that writes no task and fills nothing cleans the keys that it drops. -/
theorem quiet (hT : Transparent pg Q dirty s) (ω : Choice) {op : TaskOp}
    (hop : PlatformTasks.Quiet op) :
    Transparent pg Q (fun k => dirty k ∧ ¬ Drops k op) (exec pg ω op s).1 := by
  have hwithin : Within (exec pg ω op s).1.cache s.cache := by
    intro k v hk
    rcases exec_cache pg hk with hk | ⟨ttl, rfl⟩
    · exact hk
    · exact absurd hop not_false
  have htasks : (exec pg ω op s).1.db.tasks = s.db.tasks := by
    refine exec_tasks pg ω op s fun hwrites => ?_
    cases op with
    | insert n => exact hop
    | save e => exact hop
    | softRemove t => exact hop
    | _ => exact hwrites
  obtain ⟨husers, hworkspaces, hprojects⟩ := exec_static pg ω op s
  refine ⟨hT.tables.congr htasks hprojects hworkspaces, ?_⟩
  have hdropped : UpToDate CachedRead.key (CachedRead.answer pg) (Asked Q)
      (fun k => dirty k ∧ ¬ Drops k op) s.db (exec pg ω op s).1.cache :=
    hT.entries.drop hwithin fun k hk => exec_drops pg hk
  have hkept : ∀ r v, Asked Q r → (exec pg ω op s).1.cache (CachedRead.key r) = some v →
      r.answer pg s.db = some v → False ∨ r.answer pg (exec pg ω op s).1.db = some v := by
    intro r v _ _ hv
    rw [answer_congr htasks husers hprojects hworkspaces]
    exact Or.inr hv
  exact (hdropped.write (Within.refl _) hkept).mono (Within.refl _)
    fun k hk => hk.elim id False.elim

theorem drop (hT : Transparent pg Q dirty s) (ω : Choice) (key : String) :
    Transparent pg Q (fun k => dirty k ∧ k ≠ key) (exec pg ω (.cacheDel key) s).1 := by
  have hop : PlatformTasks.Quiet (.cacheDel key) := trivial
  exact (hT.quiet ω hop).mono fun k hk => ⟨hk.1, fun hkey => hk.2 hkey.symm⟩

theorem dropPattern (hT : Transparent pg Q dirty s) (ω : Choice) (pattern : String) :
    Transparent pg Q (fun k => dirty k ∧ ¬ globMatch pattern k = true)
      (exec pg ω (.cacheDelPattern pattern) s).1 := by
  have hop : PlatformTasks.Quiet (.cacheDelPattern pattern) := trivial
  exact hT.quiet ω hop

/-- A write to the database. -/
theorem write (hT : Settled pg Q s) (ω : Choice) {db' : Database} {affected : String → Prop}
    (htables : KeyedTables db')
    (hw : ∀ r v, Asked Q r → (s.wait ω).cache (CachedRead.key r) = some v →
      r.answer pg s.db = some v → affected r.key ∨ r.answer pg db' = some v) :
    Transparent pg Q affected { s.wait ω with db := db' } :=
  ⟨htables, (hT.entries.write (wait_within s ω) hw).mono (Within.refl _)
    fun _ hk => hk.elim False.elim id⟩

/-! ### Tasks -/

theorem insertTask (hT : Settled pg Q s) (ω : Choice) {newId : String} {now : Nat}
    {n : NewTask} {row : Task} {db' : Database}
    (h : PlatformTasks.insertTask s.db newId now n = .ok (db', row)) :
    Transparent pg Q
      (fun k => globMatch (getListCachePattern n.workspaceId n.projectId) k = true)
      { s.wait ω with db := db' } := by
  obtain ⟨hnew, hkeys, rfl, rfl, -⟩ := insertTask_ok h
  have htables := hT.tables.appendTask hnew hkeys
  obtain ⟨hw, hp⟩ := htables.placed _ (List.mem_append_right _ (List.mem_singleton.mpr rfl))
  exact hT.write ω htables fun r v _ _ hv => answer_append_task hw hp hv

/-- Overwriting a stored task. -/
theorem replaceTask (hT : Settled pg Q s) (ω : Choice) {old row : Task}
    (hold : lookup Task.id row.id s.db.tasks = some old) (hsame : SameIdentity row old) :
    Transparent pg Q (Concerns row)
      { s.wait ω with db :=
        { s.db with tasks := RowTable.replace Task.id row s.db.tasks } } := by
  have htables := hT.tables.replaceTask hold hsame
  obtain ⟨hw, hp⟩ := htables.placed row
    (mem_replace.mpr (Or.inl ⟨rfl, old, lookup_mem hold⟩))
  refine hT.write ω htables fun r v _ _ hv => ?_
  rcases answer_replace_task hT.tables.taskIds hold hsame hw hp r with hk | hsame
  · exact Or.inl hk
  · exact Or.inr (hsame.trans hv)

/-- Rows of one identity concern the same keys. -/
theorem concerns_same {a b : Task} (h : SameIdentity a b) {k : String} (hk : Concerns a k) :
    Concerns b k := by
  unfold Concerns at hk ⊢
  rw [← h.id, ← h.workspaceId, ← h.projectId]
  exact hk

/-- Saving a task as it was found, but for the columns of an update. -/
theorem saveTask (hT : Settled pg Q s) (ω : Choice) {now : Nat} {t : LoadedTask}
    (ht : t.row ∈ s.db.tasks) {dto : UpdateTaskDto} {c : Option Nat} {db' : Database}
    (h : Saved s.db now (applyDto t dto c) db') :
    Transparent pg Q (Concerns t.row) { s.wait ω with db := db' } := by
  have happlied : SameIdentity (applyDto t dto c).row t.row := ⟨rfl, rfl, rfl, rfl, rfl⟩
  cases h with
  | unchanged row stored wanted => exact (hT.wait ω).mono fun k hk => hk.elim
  | inserted new wanted gone keys =>
      -- the row of the loaded task is there
      obtain ⟨hne, -, -⟩ := toRow_some wanted
      have hid : t.row.id = new.id := (hne.trans happlied).id.symm
      exact absurd hid (lookup_eq_none.mp gone t.row ht)
  | updated old new wanted stored writes keys =>
      obtain ⟨hne, -, -⟩ := toRow_some wanted
      have hrow := updateRow_identity now old new
      have hold : SameIdentity (updateRow now old new) old :=
        hrow.trans (same_of_toRow hT.tables.taskIds wanted stored ⟨t.row, ht, happlied.symm⟩)
      have hstored : lookup Task.id (updateRow now old new).id s.db.tasks = some old := stored
      refine (hT.replaceTask ω hstored hold).mono fun k hk => ?_
      exact concerns_same (hrow.trans (hne.trans happlied)) hk

theorem softRemoveTask (hT : Settled pg Q s) (ω : Choice) (now : Nat) {t : Task}
    (ht : t ∈ s.db.tasks) :
    Transparent pg Q (Concerns t)
      { s.wait ω with db := PlatformTasks.softRemoveTask s.db now t.id } := by
  rcases softRemoveTask_cases s.db now t.id with ⟨hnone, h⟩ | ⟨row, hrow, h⟩
  · rw [h]
    exact (hT.wait ω).mono fun k hk => hk.elim
  · rw [h]
    obtain ⟨hmem, hid⟩ := lookup_mem hrow
    obtain rfl : row = t := hT.tables.taskIds.eq_of_key hmem ht hid
    have hsame := markDeleted_identity now row
    have hstored : lookup Task.id (markDeleted now row).id s.db.tasks = some row := hrow
    exact (hT.replaceTask ω hstored hsame).mono fun k hk => concerns_same hsame hk

/-! ### Projects -/

theorem insertProject (hT : Settled pg Q s) (ω : Choice) {newId w name status : String}
    (hplain : Plain newId) {now : Nat} {description : Option String} {p : Project}
    {db' : Database}
    (h : PlatformApi.insertProject s.db newId now w name description status = .ok (db', p)) :
    Transparent pg Q (fun k => k = getProjectsCacheKey w) { s.wait ω with db := db' } := by
  obtain ⟨-, hnew, -, hp, rfl⟩ := insertProject_ok h
  have hid : p.id = newId := by rw [hp]
  have hw : p.workspaceId = w := by rw [hp]
  refine hT.write ω (hT.tables.appendProject (hid ▸ hnew) (hid ▸ hplain))
    fun r v _ _ hv => ?_
  rw [← hw]
  rcases answer_append_project p r with hk | hsame
  · exact Or.inl hk
  · exact Or.inr (hsame.trans hv)

/-- Saving a project as it was found, but for the columns of an update. -/
theorem saveProject (hT : Settled pg Q s) (ω : Choice) {old p saved : Project}
    (hold : old ∈ s.db.projects) (hid : old.id = p.id)
    (hw : old.workspaceId = p.workspaceId) {db' : Database}
    (h : PlatformApi.saveProject s.db p = .ok (db', saved)) :
    Transparent pg Q (fun k => k = getProjectsCacheKey p.workspaceId)
      { s.wait ω with db := db' } := by
  obtain ⟨rfl, -⟩ := saveProject_ok h
  refine hT.write ω (hT.tables.saveProject hold hid) fun r v _ _ hv => ?_
  rcases answer_save_project hT.tables.projectIds hold hid hw r with hk | hsame
  · exact Or.inl hk
  · exact Or.inr (hsame.trans hv)

/-! ### Workspaces -/

theorem insertWorkspace (hT : Settled pg Q s) (ω : Choice) {newId name slug owner : String}
    (hplain : Plain newId) {w : Workspace} {db' : Database}
    (h : PlatformApi.insertWorkspace s.db newId name slug owner = .ok (db', w)) :
    Settled pg Q { s.wait ω with db := db' } := by
  obtain ⟨-, hnew, rfl, rfl⟩ := insertWorkspace_ok h
  have htables : KeyedTables { s.db with
      workspaces := s.db.workspaces ++ [⟨newId, name, slug, owner⟩] } :=
    hT.tables.appendWorkspace hnew hplain
  refine hT.write ω (htables.congr rfl rfl rfl) fun r v _ _ hv => Or.inr ?_
  rw [← answer_append_workspace ⟨newId, name, slug, owner⟩ hv]
  exact answer_congr rfl rfl rfl rfl r

/-- Saving a workspace as it was found, but for its name. -/
theorem saveWorkspace (hT : Settled pg Q s) (ω : Choice) {old : Workspace}
    (hold : old ∈ s.db.workspaces) {w saved : LoadedWorkspace} (hid : w.row.id = old.id)
    (hslug : w.row.slug = old.slug) {db' : Database}
    (h : PlatformApi.saveWorkspace s.db w = .ok (db', saved)) :
    Transparent pg Q
      (fun k => k = getCacheKey old.id false ∨ k = getCacheKey old.slug true)
      { s.wait ω with db := db' } := by
  obtain ⟨rfl, -⟩ := saveWorkspace_ok h
  have hid' : old.id = (LoadedWorkspace.toRow w).id := hid.symm
  have hslug' : old.slug = (LoadedWorkspace.toRow w).slug := hslug.symm
  refine hT.write ω (hT.tables.saveWorkspace hold hid') fun r v _ _ hv => ?_
  rw [hid', hslug']
  exact answer_save_workspace hT.tables.workspaceIds hold hid' hslug' hv

/-! ### Deletions -/

theorem removeProject (hT : Settled pg Q s) (ω : Choice) {p : Project}
    (hp : p ∈ s.db.projects) (hleft : NothingLeft pg Q ω (.removeProject p.id) s) :
    Transparent pg Q (fun k => k = getProjectsCacheKey p.workspaceId)
      { s.wait ω with db := PlatformTasks.removeProject s.db p.id } := by
  refine hT.write ω ((hT.tables.removeTasks _).filterProjects _) fun r v hr hc hv => ?_
  by_cases hlist : r = .projects p.workspaceId
  · exact Or.inl (by rw [hlist]; rfl)
  · refine Or.inr ?_
    rw [← hleft.answer (fun _ => rfl) hr hc hv]
    refine answer_projects (removeTasks s.db fun t => t.projectId = p.id) r ?_
    rintro w rfl
    show (s.db.projects.filter _).filter _ = s.db.projects.filter _
    rw [List.filter_filter]
    refine List.filter_congr ?_
    intro q hq
    by_cases hid : q.id = p.id
    · have hw : p.workspaceId ≠ w := fun hw => hlist (by rw [hw])
      rw [hT.tables.projectIds.eq_of_key hq hp hid, unlisted hw]
      rfl
    · simp [hid]

theorem removeWorkspace (hT : Settled pg Q s) (ω : Choice) {w : Workspace}
    (hw : w ∈ s.db.workspaces) (hleft : NothingLeft pg Q ω (.removeWorkspace w.id) s) :
    Transparent pg Q (fun k => k = getCacheKey w.id false ∨ k = getCacheKey w.slug true)
      { s.wait ω with db := PlatformTasks.removeWorkspace s.db w.id } := by
  have htables : KeyedTables (PlatformTasks.removeWorkspace s.db w.id) :=
    (((hT.tables.removeTasks _).filterProjects fun p => p.workspaceId ≠ w.id).filterWorkspaces
      fun x => x.id ≠ w.id).congr rfl rfl rfl
  refine hT.write ω htables fun r v hr hc hv => ?_
  -- the tasks first, then the projects, then the workspace itself
  have hcascade := hleft.answer (fun _ => rfl) hr hc hv
  have hprojects : r.answer pg
      { removeTasks s.db (ofWorkspace s.db w.id) with
        projects := s.db.projects.filter fun p => p.workspaceId ≠ w.id } = some v := by
    rw [← hcascade]
    refine answer_projects (removeTasks s.db (ofWorkspace s.db w.id)) r ?_
    rintro x rfl
    show (s.db.projects.filter _).filter _ = s.db.projects.filter _
    rw [List.filter_filter]
    by_cases hx : x = w.id
    · -- the workspace had no project to show
      have hnone : findActiveProjects s.db w.id = [] := by
        refine hleft.projects w.id rfl (hx ▸ hr) ?_
        intro hnone
        have hsome : (s.wait ω).cache (getProjectsCacheKey w.id) = some v := hx ▸ hc
        rw [hnone] at hsome
        cases hsome
      have hempty : s.db.projects.filter (fun p => p.workspaceId = w.id && p.status = "ACTIVE")
          = [] := by
        have hperm := List.perm_insertionSort (fun a b : Project => b.createdAt ≤ a.createdAt)
          (s.db.projects.filter fun p => p.workspaceId = w.id && p.status = "ACTIVE")
        have hsorted : List.insertionSort (fun a b : Project => b.createdAt ≤ a.createdAt)
          (s.db.projects.filter fun p => p.workspaceId = w.id && p.status = "ACTIVE") = [] := hnone
        rw [hsorted] at hperm
        exact hperm.symm.eq_nil
      rw [hx, hempty, List.filter_eq_nil_iff]
      intro p _
      by_cases hp : p.workspaceId = w.id
      · simp [hp]
      · simp [hp]
    · refine List.filter_congr ?_
      intro p _
      by_cases hp : p.workspaceId = x
      · simp [hp, hx]
      · simp [hp]
  rcases answer_filter_workspace { removeTasks s.db (ofWorkspace s.db w.id) with
    projects := s.db.projects.filter fun p => p.workspaceId ≠ w.id }
    hT.tables.workspaceIds hw hprojects with hk | hv'
  · exact Or.inl hk
  · refine Or.inr ?_
    rw [← hv']
    exact answer_congr rfl rfl rfl rfl r

end Transparent

end PlatformApi
