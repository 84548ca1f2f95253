import TaskPlatform.Interleaving
import TaskPlatform.TaskService

/-! # Interleaved task calls

    Any number of `createTask`, `getTasks`, `findById`, `updateTask` and
    `deleteTask` calls on one database and one cache.  The file says once what an
    operation can do (`exec_tasks`, `exec_cache`, the cases of `keep` in
    `taskService`) and what each call sees to at each of its awaits (`Duty`,
    `call_follows`); the results on locking, deletion and coherence start from
    there.

    What holds throughout is `Consistent`: ids are unique, parents come before their
    children, identity columns never change, and a task in the cache is a live copy
    of the row whose key it stands under. -/

namespace PlatformTasks

open AsyncProgram Interleaving PlatformEntities RowTable GlobPattern

/-! ## What an operation can do -/

/-- The operations that write the tasks table. -/
def WritesTasks : TaskOp → Prop
  | .insert _ => True
  | .save _ => True
  | .softRemove _ => True
  | _ => False

section Exec

variable (pg : PostgresText)

theorem exec_insert_cases (ω : Choice) (n : NewTask) (s : TaskState) :
    (∃ e, exec pg ω (.insert n) s = (s.wait ω, .error e)) ∨
      ∃ db row, insertTask s.db ω.newId (s.now + ω.elapsed) n = .ok (db, row) ∧
        exec pg ω (.insert n) s = ({ s.wait ω with db := db }, .ok row) := by
  cases h : insertTask s.db ω.newId (s.now + ω.elapsed) n with
  | error e => exact Or.inl ⟨e, by simp only [exec, h]⟩
  | ok out =>
      obtain ⟨db, row⟩ := out
      exact Or.inr ⟨db, row, rfl, by simp only [exec, h]⟩

theorem exec_save_cases (ω : Choice) (e : TaskEntity) (s : TaskState) :
    (∃ err, exec pg ω (.save e) s = (s.wait ω, .error err)) ∨
      ∃ db saved, Saved s.db (s.now + ω.elapsed) e db ∧
        exec pg ω (.save e) s = ({ s.wait ω with db := db }, .ok saved) := by
  cases h : saveTask s.db (s.now + ω.elapsed) e with
  | error err => exact Or.inl ⟨err, by simp only [exec, h]⟩
  | ok out =>
      obtain ⟨db, saved⟩ := out
      exact Or.inr ⟨db, saved, saveTask_ok h, by simp only [exec, h]⟩

/-- What a save hands back. -/
theorem exec_save_handsBack {ω : Choice} {e saved : TaskEntity} {s : TaskState}
    (h : (exec pg ω (.save e) s).2 = .ok saved) : HandedBack s.db e saved := by
  cases hs : saveTask s.db (s.now + ω.elapsed) e with
  | error err =>
      simp only [exec, hs] at h
      cases h
  | ok out =>
      simp only [exec, hs] at h
      cases h
      exact (saveTask_spec hs).2

/-- The object that a save hands back has the identity of the one that was given. -/
theorem exec_save_returns {ω : Choice} {e saved : TaskEntity} {s : TaskState}
    (h : (exec pg ω (.save e) s).2 = .ok saved) : SameIdentity saved.row e.row :=
  (exec_save_handsBack pg h).row

theorem exec_notification_cases (ω : Choice) (u ty ti m : String) (s : TaskState) :
    ((¬ ∃ x ∈ s.db.users, x.id = u) ∧
        exec pg ω (.insertNotification u ty ti m) s = (s.wait ω, .error .queryFailed)) ∨
      (∃ x ∈ s.db.users, x.id = u) ∧
        exec pg ω (.insertNotification u ty ti m) s
          = ({ s.wait ω with db :=
              { s.db with notifications :=
                  s.db.notifications ++ [⟨ω.newId, u, ty, ti, m, false⟩] } },
            .ok ⟨ω.newId, u, ty, ti, m, false⟩) := by
  by_cases hu : s.db.users.any (fun x => x.id = u) = true
  · refine Or.inr ⟨?_, by simp only [exec, if_pos hu]⟩
    obtain ⟨x, hx, hxu⟩ := List.any_eq_true.mp hu
    exact ⟨x, hx, by simpa using hxu⟩
  · refine Or.inl ⟨?_, by simp only [exec, if_neg hu]⟩
    rintro ⟨x, hx, hxu⟩
    exact hu (List.any_eq_true.mpr ⟨x, hx, by simpa using hxu⟩)

/-- A row was inserted. -/
def Inserted : (op : TaskOp) → op.Res → Prop
  | .insert _, .ok _ => True
  | _, _ => False

/-- All that an operation can do to the database, with its answer. -/
inductive TaskEffect (ω : Choice) (s : TaskState) : (op : TaskOp) → Database → op.Res → Prop
  where
  /-- The tasks stay: the operation writes none, or it failed, or there is nothing to write. -/
  | same (op : TaskOp) (notifications : List Notification) (answer : op.Res)
      (kept : ¬ Inserted op answer) :
      TaskEffect ω s op { s.db with notifications := notifications } answer
  | insert {n : NewTask} {row : Task} (wanted : row = n.row ω.newId (s.now + ω.elapsed))
      (new : lookup Task.id row.id s.db.tasks = none)
      (keys : foreignKeysHold s.db row = true) (named : row.id ≠ "") :
      TaskEffect ω s (.insert n) { s.db with tasks := s.db.tasks ++ [row] } (.ok row)
  | reinsert {e saved : TaskEntity} {new : Task} (wanted : e.toRow none = some new)
      (gone : lookup Task.id new.id s.db.tasks = none)
      (keys : foreignKeysHold s.db new = true) :
      TaskEffect ω s (.save e) { s.db with tasks := s.db.tasks ++ [new] } (.ok saved)
  | update {e saved : TaskEntity} {old new : Task} (wanted : e.toRow (some old) = some new)
      (stored : lookup Task.id new.id s.db.tasks = some old) (writes : e.Writes old new)
      (keys : foreignKeysHold s.db new = true) :
      TaskEffect ω s (.save e)
        { s.db with tasks := replace Task.id (updateRow (s.now + ω.elapsed) old new) s.db.tasks }
        (.ok saved)
  | softRemove {t : LoadedTask} {row : Task}
      (stored : lookup Task.id t.row.id s.db.tasks = some row) :
      TaskEffect ω s (.softRemove t)
        { s.db with tasks := replace Task.id (markDeleted (s.now + ω.elapsed) row) s.db.tasks }
        ()

/-- **What an operation can do**, case by case. -/
theorem exec_effect (ω : Choice) (op : TaskOp) (s : TaskState) :
    TaskEffect ω s op (exec pg ω op s).1.db (exec pg ω op s).2 := by
  cases op with
  | insert n =>
      rcases exec_insert_cases pg ω n s with ⟨e, h⟩ | ⟨db, row, hins, h⟩
      · rw [h]
        exact .same _ _ _ not_false
      · obtain ⟨hnew, hfk, rfl, hrow, hid⟩ := insertTask_ok hins
        rw [h]
        exact .insert hrow hnew hfk hid
  | save e =>
      rcases exec_save_cases pg ω e s with ⟨err, h⟩ | ⟨db, saved, hs, h⟩
      · rw [h]
        exact .same _ _ _ not_false
      · rw [h]
        cases hs with
        | unchanged row stored wanted => exact .same _ _ _ not_false
        | inserted new wanted gone keys => exact .reinsert wanted gone keys
        | updated old new wanted stored writes keys => exact .update wanted stored writes keys
  | softRemove t =>
      show TaskEffect ω s (.softRemove t) (softRemoveTask s.db (s.now + ω.elapsed) t.row.id) ()
      rcases softRemoveTask_cases s.db (s.now + ω.elapsed) t.row.id with
        ⟨-, h⟩ | ⟨row, hrow, h⟩
      · rw [h]
        exact .same _ _ _ not_false
      · rw [h]
        exact .softRemove hrow
  | insertNotification u ty ti m =>
      rcases exec_notification_cases pg ω u ty ti m s with ⟨-, h⟩ | ⟨-, h⟩
      · rw [h]
        exact .same _ _ _ not_false
      · rw [h]
        exact .same _ _ _ not_false
  | _ => exact .same _ _ _ not_false

/-- The other operations leave the tasks alone. -/
theorem exec_tasks (ω : Choice) (op : TaskOp) (s : TaskState) (h : ¬ WritesTasks op) :
    (exec pg ω op s).1.db.tasks = s.db.tasks := by
  have heffect := exec_effect pg ω op s
  generalize (exec pg ω op s).1.db = db, (exec pg ω op s).2 = answer at heffect ⊢
  cases heffect with
  | same => rfl
  | insert wanted new keys named => exact absurd trivial h
  | reinsert wanted gone keys => exact absurd trivial h
  | update wanted stored writes keys => exact absurd trivial h
  | softRemove stored => exact absurd trivial h

/-- The other tables are read only, but for the notifications. -/
theorem exec_frame (ω : Choice) (op : TaskOp) (s : TaskState) :
    ∃ tasks notifications, (exec pg ω op s).1.db
      = { s.db with tasks := tasks, notifications := notifications } := by
  have heffect := exec_effect pg ω op s
  generalize (exec pg ω op s).1.db = db, (exec pg ω op s).2 = answer at heffect ⊢
  cases heffect with
  | same => exact ⟨_, _, rfl⟩
  | insert wanted new keys named => exact ⟨_, _, rfl⟩
  | reinsert wanted gone keys => exact ⟨_, _, rfl⟩
  | update wanted stored writes keys => exact ⟨_, _, rfl⟩
  | softRemove stored => exact ⟨_, _, rfl⟩

theorem exec_static (ω : Choice) (op : TaskOp) (s : TaskState) :
    (exec pg ω op s).1.db.users = s.db.users ∧
      (exec pg ω op s).1.db.workspaces = s.db.workspaces ∧
      (exec pg ω op s).1.db.projects = s.db.projects := by
  obtain ⟨tasks, notifications, h⟩ := exec_frame pg ω op s
  rw [h]
  exact ⟨rfl, rfl, rfl⟩

theorem wait_cache {s : TaskState} {ω : Choice} {k : String} {v : CacheValue}
    (h : (s.wait ω).cache k = some v) : s.cache k = some v := by
  have h' : (if k ∈ ω.expired then none else s.cache k) = some v := h
  by_cases hk : k ∈ ω.expired
  · rw [if_pos hk] at h'
    cases h'
  · rw [if_neg hk] at h'
    exact h'

/-- An entry found after an operation was there before, or the operation is the fill
    that put it there. -/
theorem exec_cache {ω : Choice} {op : TaskOp} {s : TaskState} {k : String}
    {v : CacheValue} (h : (exec pg ω op s).1.cache k = some v) :
    s.cache k = some v ∨ ∃ ttl, op = .cacheSet k v ttl := by
  cases op with
  | cacheSet key value ttl =>
      have h' : (if k = key then some value else (s.wait ω).cache k) = some v := h
      by_cases hk : k = key
      · rw [if_pos hk] at h'
        rw [hk, Option.some.inj h']
        exact Or.inr ⟨ttl, rfl⟩
      · rw [if_neg hk] at h'
        exact Or.inl (wait_cache h')
  | cacheDel key =>
      have h' : (if k = key then none else (s.wait ω).cache k) = some v := h
      by_cases hk : k = key
      · rw [if_pos hk] at h'
        cases h'
      · rw [if_neg hk] at h'
        exact Or.inl (wait_cache h')
  | cacheDelPattern pattern =>
      have h' : (if globMatch pattern k then none else (s.wait ω).cache k) = some v := h
      by_cases hk : globMatch pattern k = true
      · rw [if_pos hk] at h'
        cases h'
      · rw [if_neg hk] at h'
        exact Or.inl (wait_cache h')
  | insert n =>
      rcases exec_insert_cases pg ω n s with ⟨e, h0⟩ | ⟨db, row, -, h0⟩
      · rw [h0] at h
        exact Or.inl (wait_cache h)
      · rw [h0] at h
        exact Or.inl (wait_cache h)
  | save e =>
      rcases exec_save_cases pg ω e s with ⟨err, h0⟩ | ⟨db, saved, -, h0⟩
      · rw [h0] at h
        exact Or.inl (wait_cache h)
      · rw [h0] at h
        exact Or.inl (wait_cache h)
  | insertNotification u ty ti m =>
      rcases exec_notification_cases pg ω u ty ti m s with ⟨-, h0⟩ | ⟨-, h0⟩
      · rw [h0] at h
        exact Or.inl (wait_cache h)
      · rw [h0] at h
        exact Or.inl (wait_cache h)
  | softRemove t => exact Or.inl (wait_cache h)
  | cacheGet key => exact Or.inl (wait_cache h)
  | findOne id w => exact Or.inl (wait_cache h)
  | getManyAndCount w p q => exact Or.inl (wait_cache h)
  | currentTime => exact Or.inl (wait_cache h)
  | auditLog a u p => exact Or.inl (wait_cache h)
  | activityLog w t e a p => exact Or.inl (wait_cache h)
  | queueAdd j => exact Or.inl (wait_cache h)
  | emit e => exact Or.inl (wait_cache h)

/-- A write of the tasks fills nothing. -/
theorem write_cache {ω : Choice} {op : TaskOp} {s : TaskState} {k : String} {v : CacheValue}
    (hop : WritesTasks op) (h : (exec pg ω op s).1.cache k = some v) : s.cache k = some v := by
  rcases exec_cache pg h with h | ⟨ttl, rfl⟩
  · exact h
  · exact absurd hop not_false

end Exec

/-! ## What holds throughout -/

/-- Every parent stands before its children in the table. -/
def ParentsFirst (l : List Task) : Prop :=
  ∀ l₁ r l₂, l = l₁ ++ r :: l₂ → ∀ x, r.parentTaskId = some x →
    ∃ r' ∈ l₁, r'.id = x

/-- What every run keeps true of the tables and the cache. -/
structure Consistent (db : Database) (cache : String → Option CacheValue) : Prop where
  ids : Unique Task.id db.tasks
  named : ∀ r ∈ db.tasks, r.id ≠ ""
  parents : ParentsFirst db.tasks
  /-- Workspace and project of a task are stored. -/
  placed : ∀ r ∈ db.tasks, (∃ w ∈ db.workspaces, w.id = r.workspaceId) ∧
    ∃ p ∈ db.projects, p.id = r.projectId
  /-- A cached task is a copy of a live row, under the key of its id. -/
  cached : ∀ k t, cache k = some (.task t) →
    k = getTaskCacheKey t.row.id ∧ t.row.deletedAt = none ∧
      ∃ r ∈ db.tasks, SameIdentity r t.row

/-- Rows stay, with their identity. -/
def RowsStay (db db' : Database) : Prop :=
  ∀ r ∈ db.tasks, ∃ r' ∈ db'.tasks, SameIdentity r' r

theorem RowsStay.refl (db : Database) : RowsStay db db :=
  fun r hr => ⟨r, hr, SameIdentity.refl r⟩

theorem RowsStay.trans {a b d : Database} (h : RowsStay a b) (h' : RowsStay b d) :
    RowsStay a d := by
  intro r hr
  obtain ⟨r', hr', hs⟩ := h r hr
  obtain ⟨r'', hr'', hs'⟩ := h' r' hr'
  exact ⟨r'', hr'', hs'.trans hs⟩

theorem RowsStay.of_tasks {a b : Database} (h : b.tasks = a.tasks) : RowsStay a b := by
  intro r hr
  exact ⟨r, by rw [h]; exact hr, SameIdentity.refl r⟩

theorem RowsStay.append (db : Database) (row : Task) :
    RowsStay db { db with tasks := db.tasks ++ [row] } :=
  fun r hr => ⟨r, List.mem_append_left _ hr, SameIdentity.refl r⟩

/-- Overwriting a row by one of the same identity. -/
theorem RowsStay.replace {db : Database} (hids : Unique Task.id db.tasks) {old row : Task}
    (hold : lookup Task.id row.id db.tasks = some old) (hsame : SameIdentity row old) :
    RowsStay db { db with tasks := RowTable.replace Task.id row db.tasks } := by
  intro r hr
  by_cases hk : r.id = row.id
  · obtain ⟨hmem, hid⟩ := lookup_mem hold
    have heq : r = old := hids.eq_of_key hr hmem (hk.trans hid.symm)
    exact ⟨row, mem_replace.mpr (Or.inl ⟨rfl, old, hmem, hid⟩), heq ▸ hsame⟩
  · exact ⟨r, mem_replace.mpr (Or.inr ⟨hr, hk⟩), SameIdentity.refl r⟩

theorem ParentsFirst.append {l : List Task} (h : ParentsFirst l) {row : Task}
    (hrow : ∀ x, row.parentTaskId = some x → ∃ r' ∈ l, r'.id = x) :
    ParentsFirst (l ++ [row]) := by
  intro l₁ r l₂ heq x hx
  rcases List.append_eq_append_iff.mp heq with ⟨m, hm, hsplit⟩ | ⟨m, hm, hsplit⟩
  · cases m with
    | nil =>
        -- the new row itself
        rw [List.nil_append] at hsplit
        injection hsplit with hr _
        rw [List.append_nil] at hm
        rw [hm]
        exact hrow x (hr ▸ hx)
    | cons hd tl =>
        have hlen := congrArg List.length hsplit
        simp only [List.length_cons, List.length_nil, List.length_append] at hlen
        omega
  · cases m with
    | nil =>
        rw [List.nil_append] at hsplit
        injection hsplit with hr _
        rw [List.append_nil] at hm
        rw [← hm]
        exact hrow x (hr ▸ hx)
    | cons hd tl =>
        injection hsplit with hr htl
        subst hr
        exact h l₁ r tl hm x hx

theorem ParentsFirst.replace {l : List Task} (h : ParentsFirst l)
    (hids : Unique Task.id l) {old row : Task}
    (hold : lookup Task.id row.id l = some old) (hsame : SameIdentity row old) :
    ParentsFirst (RowTable.replace Task.id row l) := by
  intro l₁ r l₂ heq x hx
  obtain ⟨k₁, k₂, hl, hk₁, hk₂⟩ := List.map_eq_append_iff.mp heq
  obtain ⟨r₀, k₃, hk, hr₀, -⟩ := List.map_eq_cons_iff.mp hk₂
  subst hk
  obtain ⟨hmem, hid⟩ := lookup_mem hold
  have hr₀mem : r₀ ∈ l := by
    rw [hl]
    exact List.mem_append_right _ (List.mem_cons_self ..)
  have hparent : r₀.parentTaskId = some x := by
    by_cases hkey : r₀.id = row.id
    · rw [if_pos hkey] at hr₀
      have hro : r₀ = old := hids.eq_of_key hr₀mem hmem (hkey.trans hid.symm)
      rw [hro, ← hsame.parentTaskId, hr₀]
      exact hx
    · rw [if_neg hkey] at hr₀
      rw [hr₀]
      exact hx
  obtain ⟨r', hr', hrid⟩ := h k₁ r₀ k₃ hl x hparent
  refine ⟨if r'.id = row.id then row else r', ?_, ?_⟩
  · rw [← hk₁]
    exact List.mem_map_of_mem hr'
  · by_cases hkey : r'.id = row.id
    · rw [if_pos hkey, ← hkey]
      exact hrid
    · rw [if_neg hkey]
      exact hrid

/-- Taking rows out, no parent without its children, keeps the order. -/
theorem ParentsFirst.filter {l : List Task} (h : ParentsFirst l) {p : Task → Bool}
    (hp : ∀ r ∈ l, p r = true → ∀ r' ∈ l, r.parentTaskId = some r'.id → p r' = true) :
    ParentsFirst (l.filter p) := by
  intro l₁ r l₂ heq x hx
  obtain ⟨k₁, k₂, hl, hk₁, hk₂⟩ := List.filter_eq_append_iff.mp heq
  obtain ⟨m₁, m₂, hm, hnot, hpr, -⟩ := List.filter_eq_cons_iff.mp hk₂
  have hsplit : l = (k₁ ++ m₁) ++ r :: m₂ := by rw [hl, hm, List.append_assoc]
  obtain ⟨r', hr', rfl⟩ := h (k₁ ++ m₁) r m₂ hsplit x hx
  have hkept : p r' = true := by
    refine hp r ?_ hpr r' ?_ hx
    · rw [hsplit]
      exact List.mem_append_right _ (List.mem_cons_self ..)
    · rw [hsplit]
      exact List.mem_append_left _ hr'
  refine ⟨r', ?_, rfl⟩
  rcases List.mem_append.mp hr' with hr' | hr'
  · rw [← hk₁]
    exact List.mem_filter.mpr ⟨hr', hkept⟩
  · exact absurd hkept (hnot r' hr')

theorem foreignKeysHold_iff {db : Database} {t : Task} :
    foreignKeysHold db t = true ↔
      (∃ w ∈ db.workspaces, w.id = t.workspaceId) ∧
        (∃ p ∈ db.projects, p.id = t.projectId) ∧
        (∀ x, t.parentTaskId = some x → ∃ t' ∈ db.tasks, t'.id = x) ∧
        (∀ x, t.assignedTo = some x → ∃ u ∈ db.users, u.id = x) ∧
        ∃ u ∈ db.users, u.id = t.createdBy := by
  simp only [foreignKeysHold, Bool.and_eq_true, List.any_eq_true, decide_eq_true_eq,
    Option.all_eq_true_iff_get, and_assoc]
  constructor
  · rintro ⟨hw, hp, ht, ha, hc⟩
    refine ⟨hw, hp, ?_, ?_, hc⟩
    · intro x hx
      have := ht (by rw [hx]; rfl)
      simpa [hx] using this
    · intro x hx
      have := ha (by rw [hx]; rfl)
      simpa [hx] using this
  · rintro ⟨hw, hp, ht, ha, hc⟩
    refine ⟨hw, hp, ?_, ?_, hc⟩
    · intro h
      exact ht _ (Option.some_get h).symm
    · intro h
      exact ha _ (Option.some_get h).symm

theorem Consistent.of_same {db db' : Database} {c c' : String → Option CacheValue}
    (h : Consistent db c) (htasks : db'.tasks = db.tasks)
    (hw : db'.workspaces = db.workspaces) (hp : db'.projects = db.projects)
    (hcache : ∀ k t, c' k = some (.task t) → c k = some (.task t)) :
    Consistent db' c' := by
  refine ⟨htasks ▸ h.ids, htasks ▸ h.named, htasks ▸ h.parents, ?_, ?_⟩
  · rw [htasks, hw, hp]
    exact h.placed
  · intro k t hk
    rw [htasks]
    exact h.cached k t (hcache k t hk)

/-- An insert that goes through keeps the table consistent. -/
theorem Consistent.insert {db : Database} {c c' : String → Option CacheValue}
    (h : Consistent db c) {row : Task} (hnew : lookup Task.id row.id db.tasks = none)
    (hid : row.id ≠ "") (hfk : foreignKeysHold db row = true)
    (hcache : ∀ k t, c' k = some (.task t) → c k = some (.task t)) :
    Consistent { db with tasks := db.tasks ++ [row] } c' := by
  obtain ⟨hw, hp, hparent, -, -⟩ := foreignKeysHold_iff.mp hfk
  refine ⟨h.ids.append hnew, ?_, h.parents.append hparent, ?_, ?_⟩
  · intro r hr
    rcases List.mem_append.mp hr with hr | hr
    · exact h.named r hr
    · rw [List.mem_singleton.mp hr]
      exact hid
  · intro r hr
    rcases List.mem_append.mp hr with hr | hr
    · exact h.placed r hr
    · rw [List.mem_singleton.mp hr]
      exact ⟨hw, hp⟩
  · intro k t hk
    obtain ⟨hkey, hlive, r, hr, hs⟩ := h.cached k t (hcache k t hk)
    exact ⟨hkey, hlive, r, List.mem_append_left _ hr, hs⟩

/-- So does overwriting a row by one of the same identity. -/
theorem Consistent.replace {db : Database} {c c' : String → Option CacheValue}
    (h : Consistent db c) {old row : Task}
    (hold : lookup Task.id row.id db.tasks = some old) (hsame : SameIdentity row old)
    (hcache : ∀ k t, c' k = some (.task t) → c k = some (.task t)) :
    Consistent { db with tasks := RowTable.replace Task.id row db.tasks } c' := by
  refine ⟨h.ids.replace row, ?_, h.parents.replace h.ids hold hsame, ?_, ?_⟩
  · intro r hr
    rcases mem_replace.mp hr with ⟨rfl, -⟩ | ⟨hr, -⟩
    · rw [hsame.id]
      exact h.named old (lookup_mem hold).1
    · exact h.named r hr
  · intro r hr
    rcases mem_replace.mp hr with ⟨rfl, -⟩ | ⟨hr, -⟩
    · rw [hsame.workspaceId, hsame.projectId]
      exact h.placed old (lookup_mem hold).1
    · exact h.placed r hr
  · intro k t hk
    obtain ⟨hkey, hlive, r, hr, hs⟩ := h.cached k t (hcache k t hk)
    obtain ⟨r', hr', hs'⟩ := RowsStay.replace h.ids hold hsame r hr
    exact ⟨hkey, hlive, r', hr', hs'.trans hs⟩

/-! ## What the helpers issue -/

/-- The operations of `findById`. -/
inductive Finding (id w : String) : TaskOp → Prop where
  | get : Finding id w (.cacheGet (getTaskCacheKey id))
  | find : Finding id w (.findOne id w)
  | fill (t : LoadedTask) : Finding id w (.cacheSet (getTaskCacheKey id) (.task t) 300)

/-- The operations of `createAndSendNotification`. -/
inductive Notifying (u ty ti m : String) : TaskOp → Prop where
  | insert : Notifying u ty ti m (.insertNotification u ty ti m)
  | emit (n : Notification) : Notifying u ty ti m (.emit (.notificationCreated u n))
  | push (id : String) : Notifying u ty ti m (.queueAdd (.sendPush id u ty ti m))
  | mail : Notifying u ty ti m (.queueAdd (.sendEmail u ti m))

/-- The operations of `announceUpdate`. -/
inductive Announcing (id w actor : String) : TaskOp → Prop where
  | log (action : String) : Announcing id w actor (.activityLog w "TASK" id action actor)
  | notify {u ty ti m : String} {op : TaskOp} (h : Notifying u ty ti m op) :
      Announcing id w actor op

theorem findById_issues (id w : String) : OnlyIssues (Finding id w) (findById id w) := by
  have hdb : OnlyIssues (Finding id w) (findInDatabase id w) := by
    refine ⟨.find, ?_⟩
    rintro (_ | t)
    · trivial
    · exact ⟨.fill t, fun _ => trivial⟩
  refine ⟨.get, ?_⟩
  rintro (_ | v)
  · exact hdb
  · cases v with
    | tasks page => exact hdb
    | workspace ws => exact hdb
    | projects l => exact hdb
    | task t =>
        show OnlyIssues (Finding id w) (if t.row.workspaceId = w then _ else _)
        by_cases hw : t.row.workspaceId = w
        · rw [if_pos hw]
          trivial
        · rw [if_neg hw]
          exact hdb

theorem notification_issues (u ty ti m : String) :
    OnlyIssues (Notifying u ty ti m) (createAndSendNotification u ty ti m) := by
  simp only [createAndSendNotification, Prog.perform_bind]
  refine ⟨.insert, ?_⟩
  rintro (e | n)
  · trivial
  · refine ⟨.emit n, fun _ => ⟨.push n.id, ?_⟩⟩
    rintro (e | _)
    · trivial
    · refine ⟨.mail, ?_⟩
      rintro (e | _) <;> trivial

theorem announceUpdate_issues (id w u : String) (t : TaskEntity) (completed changed : Bool) :
    OnlyIssues (Announcing id w u) (announceUpdate id w u t completed changed) := by
  have hnotify : ∀ u' ty ti m, OnlyIssues (Announcing id w u)
      (createAndSendNotification u' ty ti m >>= fun _ => (.done () : TaskProg Unit)) := by
    intro u' ty ti m
    exact ((notification_issues u' ty ti m).mono fun _ => .notify).bind fun _ => trivial
  unfold announceUpdate
  cases completed with
  | true =>
      simp only [if_true]
      refine ⟨.log _, fun _ => ?_⟩
      by_cases hc : t.row.createdBy ≠ u
      · simp only [if_pos hc]
        exact hnotify _ _ _ _
      · simp only [if_neg hc]
        trivial
  | false =>
      simp only [Bool.false_eq_true, if_false]
      cases changed with
      | false => exact ⟨.log _, fun _ => trivial⟩
      | true =>
          cases truthy t.row.assignedTo with
          | none => exact ⟨.log _, fun _ => trivial⟩
          | some a => exact ⟨.log _, fun _ => hnotify _ _ _ _⟩

/-- `completionTime` asks for the time where the update completes the task, and knows its
    answer elsewhere. -/
theorem completionTime_cases (dto : UpdateTaskDto) (t : LoadedTask) :
    completionTime dto t = (ask .currentTime >>= fun now => .done (some now)) ∨
      ∃ completedAt, completionTime dto t = .done completedAt := by
  unfold completionTime
  by_cases hc : completes dto t = true
  · rw [if_pos hc]
    exact Or.inl rfl
  · rw [if_neg hc]
    cases dto.status with
    | undefined => exact Or.inr ⟨_, rfl⟩
    | null => exact Or.inr ⟨_, rfl⟩
    | val st => cases st <;> exact Or.inr ⟨_, rfl⟩

theorem completionTime_issues (dto : UpdateTaskDto) (t : LoadedTask) :
    OnlyIssues (fun op => op = .currentTime) (completionTime dto t) := by
  rcases completionTime_cases dto t with h | ⟨completedAt, h⟩
  · rw [h]
    exact ⟨rfl, fun _ => trivial⟩
  · rw [h]
    trivial

/-! ## What the calls see to -/

/-- The operations that take a key out of the cache. -/
def Drops (key : String) : TaskOp → Prop
  | .cacheDel k => k = key
  | .cacheDelPattern pattern => globMatch pattern key = true
  | _ => False

/-- The keys whose entries a change of the row can make stale. -/
def Concerns (row : Task) (key : String) : Prop :=
  key = getTaskCacheKey row.id ∨
    globMatch (getListCachePattern row.workspaceId row.projectId) key = true

/-- The rest of a call takes every key that the row concerns out of the cache. -/
def Invalidates (row : Task) (p : TaskProg TaskReply) : Prop :=
  ∀ key, Concerns row key → WillIssue (Drops key) p

/-- What a call sees to: it caches live copies of rows under their keys; it saves
    live objects of stored rows, and invalidates after every write. -/
def Duty (s : TaskState) : TaskProg TaskReply → Prop
  | .await (.cacheSet key (.task t) _) _ =>
      key = getTaskCacheKey t.row.id ∧ t.row.deletedAt = none ∧
        ∃ r ∈ s.db.tasks, SameIdentity r t.row
  | .await (.insert n) k => ∀ row : Task, row.workspaceId = n.workspaceId →
      row.projectId = n.projectId → ∀ key,
        globMatch (getListCachePattern row.workspaceId row.projectId) key = true →
        WillIssue (Drops key) (k (.ok row))
  | .await (.save e) k =>
      e.row.deletedAt = none ∧ (∃ r ∈ s.db.tasks, SameIdentity r e.row) ∧
        ∀ saved, Invalidates e.row (k (.ok saved))
  | .await (.softRemove t) k =>
      (∃ r ∈ s.db.tasks, SameIdentity r t.row) ∧ Invalidates t.row (k ())
  | _ => True

/-- The row that a saved object names is the one of its identity. -/
theorem same_of_toRow {db : Database} (hids : Unique Task.id db.tasks) {e : TaskEntity}
    {stored : Option Task} {new old : Task} (hnew : e.toRow stored = some new)
    (hold : lookup Task.id new.id db.tasks = some old)
    (hr : ∃ r ∈ db.tasks, SameIdentity r e.row) : SameIdentity new old := by
  obtain ⟨r, hr, hre⟩ := hr
  obtain ⟨hne, -, -⟩ := toRow_some hnew
  obtain ⟨hmem, hid⟩ := lookup_mem hold
  have heq : r = old := hids.eq_of_key hr hmem (hre.id.trans (hne.id.symm.trans hid.symm))
  rw [← heq]
  exact hne.trans hre.symm

section Discipline

variable (pg : PostgresText)

/-- The bargain of the task calls. -/
def taskService : Discipline (exec pg) HttpError TaskReply where
  inv s := Consistent s.db s.cache
  rely s s' := RowsStay s.db s'.db
  refl s := RowsStay.refl s.db
  trans _ _ _ := RowsStay.trans
  granted _ _ := True
  owes := Duty
  keep := by
    intro ω op k s hinv howes _
    have hfill : ∀ key t, (exec pg ω op s).1.cache key = some (.task t) →
        s.cache key = some (.task t) ∨ ∃ ttl, op = .cacheSet key (.task t) ttl :=
      fun _ _ => exec_cache pg
    have hwrite : WritesTasks op → ∀ key t, (exec pg ω op s).1.cache key = some (.task t) →
        s.cache key = some (.task t) := fun hop _ _ => write_cache pg hop
    have heffect := exec_effect pg ω op s
    generalize (exec pg ω op s).1 = s', (exec pg ω op s).2 = answer at hfill hwrite heffect ⊢
    generalize s'.db = db, s'.cache = c at hfill hwrite heffect ⊢
    cases heffect with
    | same op notifications answer kept =>
        refine ⟨⟨hinv.ids, hinv.named, hinv.parents, hinv.placed, ?_⟩,
          RowsStay.of_tasks rfl⟩
        intro key t hk
        rcases hfill key t hk with hk | ⟨ttl, rfl⟩
        · exact hinv.cached key t hk
        · exact howes
    | insert wanted new keys named =>
        exact ⟨hinv.insert new named keys (hwrite trivial), RowsStay.append _ _⟩
    | reinsert wanted gone keys =>
        -- the row of a loaded task is never gone
        obtain ⟨-, ⟨r, hr, hre⟩, -⟩ := howes
        obtain ⟨hne, -, -⟩ := toRow_some wanted
        exact absurd (hre.id.trans hne.id.symm) (lookup_eq_none.mp gone r hr)
    | @update e saved old new wanted stored writes keys =>
        obtain ⟨-, hrow, -⟩ := howes
        have hsame : SameIdentity (updateRow (s.now + ω.elapsed) old new) old :=
          (updateRow_identity _ old new).trans (same_of_toRow hinv.ids wanted stored hrow)
        exact ⟨hinv.replace stored hsame (hwrite trivial),
          RowsStay.replace hinv.ids stored hsame⟩
    | @softRemove t row stored =>
        have hid : (markDeleted (s.now + ω.elapsed) row).id = t.row.id := (lookup_mem stored).2
        have hsame := markDeleted_identity (s.now + ω.elapsed) row
        exact ⟨hinv.replace (hid ▸ stored) hsame (hwrite trivial),
          RowsStay.replace hinv.ids (hid ▸ stored) hsame⟩

/-- Operations that nothing is owed for. -/
def Quiet : TaskOp → Prop
  | .cacheSet _ _ _ => False
  | .insert _ => False
  | .save _ => False
  | .softRemove _ => False
  | _ => True

theorem duty_of_quiet (s : TaskState) (op : TaskOp) (k : op.Res → TaskProg TaskReply)
    (h : Quiet op) : Duty s (.await op k) := by
  cases op with
  | cacheSet key v ttl => exact absurd h id
  | insert n => exact absurd h id
  | save e => exact absurd h id
  | softRemove t => exact absurd h id
  | _ => trivial

/-- The rest of a call that writes and fills nothing more. -/
theorem follows_of_quiet {p : TaskProg TaskReply} (h : OnlyIssues Quiet p)
    (s : TaskState) : Follows (taskService pg) p s :=
  h.follows (fun s op k hq => duty_of_quiet s op k hq) (fun _ _ => trivial)
    (fun _ _ => trivial) s

theorem notification_quiet (u ty ti m : String) :
    OnlyIssues Quiet (createAndSendNotification u ty ti m) := by
  refine (notification_issues u ty ti m).mono ?_
  rintro op (_ | _ | _ | _) <;> trivial

theorem notifyAssignee_quiet (dto : CreateTaskDto) :
    OnlyIssues Quiet (notifyAssignee dto) := by
  unfold notifyAssignee
  cases truthy dto.assignedTo with
  | none => trivial
  | some a => exact (notification_quiet _ _ _ _).bind fun _ => trivial

theorem afterSave_quiet (id w u : String) (dto : UpdateTaskDto) (t : LoadedTask)
    (saved : TaskEntity) : OnlyIssues Quiet (afterSave id w u dto t saved) := by
  have hannounce : OnlyIssues Quiet
      (announceUpdate id w u saved (completes dto t) (assigneeChanges dto t)) := by
    refine (announceUpdate_issues id w u saved _ _).mono ?_
    rintro op (_ | ⟨_ | _ | _ | _⟩) <;> trivial
  exact ⟨trivial, fun _ => ⟨trivial, fun _ => ⟨trivial, fun _ =>
    hannounce.bind fun _ => ⟨trivial, fun _ => trivial⟩⟩⟩⟩

theorem completionTime_quiet (dto : UpdateTaskDto) (t : LoadedTask) :
    OnlyIssues Quiet (completionTime dto t) := by
  refine (completionTime_issues dto t).mono ?_
  rintro op rfl
  trivial

/-- A task that `findById` came back with. -/
structure Loaded (id w : String) (t : LoadedTask) (db : Database) : Prop where
  id : t.row.id = id
  workspaceId : t.row.workspaceId = w
  live : t.row.deletedAt = none
  stored : ∃ r ∈ db.tasks, SameIdentity r t.row

theorem Loaded.later {id w : String} {t : LoadedTask} {db db' : Database}
    (h : Loaded id w t db) (hr : RowsStay db db') : Loaded id w t db' := by
  obtain ⟨r, hmem, hs⟩ := h.stored
  obtain ⟨r', hmem', hs'⟩ := hr r hmem
  exact ⟨h.id, h.workspaceId, h.live, r', hmem', hs'.trans hs⟩

theorem listKey_split (w p : String) (q : QueryTaskDto) :
    ∃ rest, getListCacheKey w p q
      = "workspace:" ++ w ++ ":project:" ++ p ++ ":tasks:" ++ rest := ⟨_, rfl⟩

theorem getTaskCacheKey_injective {a b : String}
    (h : getTaskCacheKey a = getTaskCacheKey b) : a = b := by
  have h' : ("task:id:" ++ a).toList = ("task:id:" ++ b).toList := congrArg _ h
  rw [String.toList_append, String.toList_append] at h'
  exact String.toList_injective (List.append_cancel_left h')

/-- The two families of keys are apart: one begins with `t`, the other with `w`. -/
theorem taskKey_ne_listKey (id w p : String) (q : QueryTaskDto) :
    getTaskCacheKey id ≠ getListCacheKey w p q := by
  intro h
  have htask : (getTaskCacheKey id).toList.head? = some 't' := by
    rw [getTaskCacheKey, String.toList_append]
    rfl
  have hlist : (getListCacheKey w p q).toList.head? = some 'w' := by
    simp only [getListCacheKey, String.toList_append, List.append_assoc]
    rfl
  rw [h, hlist] at htask
  exact absurd htask (by decide)

/-- `findById` under any bargain: if every hit and every row found has the property
    `P`, and `P` is enough to fill the cache with the task and to go on, then all of
    it is in order. -/
theorem follows_findById {D : Discipline (exec pg) HttpError TaskReply} {id w : String}
    {P : LoadedTask → TaskState → Prop} {f : LoadedTask → TaskProg TaskReply}
    (hquiet : ∀ s op k, Quiet op → D.owes s (.await op k))
    (hfail : ∀ s e, D.owes s (.fail e))
    (hstable : ∀ t s s', P t s → D.rely s s' → P t s')
    (hhit : ∀ s t, D.inv s → s.cache (getTaskCacheKey id) = some (.task t) →
      t.row.workspaceId = w → P t s)
    (hmiss : ∀ s t, D.inv s → findOneTask s.db id w = some t → P t s)
    (hfill : ∀ s t ttl k, P t s →
      D.owes s (.await (.cacheSet (getTaskCacheKey id) (.task t) ttl) k))
    (hf : ∀ t s, P t s → Follows D (f t) s) (s : TaskState) :
    Follows D (findById id w >>= f) s := by
  have hdb : ∀ s, Follows D (findInDatabase id w >>= f) s := by
    intro s
    simp only [findInDatabase, Prog.perform_bind, Prog.await_bind]
    intro s₁ hinv₁ _
    refine ⟨hquiet s₁ _ _ trivial, fun hg₁ ω₁ => ?_⟩
    have hstep₁ := (D.keep ω₁ (.findOne id w) (fun _ => .done .deleted) s₁ hinv₁
      (hquiet s₁ _ _ trivial) hg₁).2
    cases ht : (exec pg ω₁ (.findOne id w) s₁).2 with
    | none => exact fun s' _ _ => hfail s' _
    | some t =>
        intro s₂ hinv₂ hr₂
        have hP : P t s₂ := hstable t _ _ (hstable t _ _ (hmiss s₁ t hinv₁ ht) hstep₁) hr₂
        -- what was read is filled, and the call goes on with it
        refine ⟨hfill s₂ t 300 _ hP, fun hg₂ ω₂ => hf t _ (hstable t _ _ hP ?_)⟩
        exact (D.keep ω₂ _ (fun _ => .done .deleted) s₂ hinv₂
          (hfill s₂ t 300 _ hP) hg₂).2
  simp only [findById, Prog.perform_bind, Prog.await_bind]
  intro s₁ hinv₁ _
  refine ⟨hquiet s₁ _ _ trivial, fun hg₁ ω₁ => ?_⟩
  have hstep₁ := (D.keep ω₁ (.cacheGet (getTaskCacheKey id)) (fun _ => .done .deleted)
    s₁ hinv₁ (hquiet s₁ _ _ trivial) hg₁).2
  cases hc : (exec pg ω₁ (.cacheGet (getTaskCacheKey id)) s₁).2 with
  | none => exact hdb _
  | some v =>
      cases v with
      | tasks page => exact hdb _
      | workspace w => exact hdb _
      | projects l => exact hdb _
      | task t =>
          -- a hit of another workspace counts as a miss
          by_cases hw : t.row.workspaceId = w
          · simp only [if_pos hw, Prog.done_bind]
            exact hf t _ (hstable t _ _ (hhit s₁ t hinv₁ (wait_cache hc) hw) hstep₁)
          · simp only [if_neg hw]
            exact hdb _

/-- Under the bargain of the task calls, what `findById` returns is a live task of
    this id and workspace whose row is stored. -/
theorem follows_findById_loaded {id w : String} {f : LoadedTask → TaskProg TaskReply}
    (hf : ∀ t s, Loaded id w t s.db → Follows (taskService pg) (f t) s)
    (s : TaskState) : Follows (taskService pg) (findById id w >>= f) s := by
  refine follows_findById pg (P := fun t s => Loaded id w t s.db)
    (fun s op k hq => duty_of_quiet s op k hq) (fun _ _ => trivial)
    (fun t s s' h hr => h.later hr) ?_ ?_ ?_ hf s
  · -- a hit: the copy stands under the key of its own id
    intro s t hinv hget hw
    obtain ⟨hkey, hlive, hstored⟩ := hinv.cached _ t hget
    exact ⟨getTaskCacheKey_injective hkey.symm, hw, hlive, hstored⟩
  · intro s t _ ht
    obtain ⟨-, hmem, hid, hw, hlive⟩ := findOneTask_some ht
    exact ⟨hid, hw, hlive, t.row, hmem, SameIdentity.refl _⟩
  · intro s t ttl k hl
    exact ⟨by rw [hl.id], hl.live, hl.stored⟩

/-- Deleting the key of the task and then the lists of its project is enough. -/
theorem invalidates_intro {row : Task} {k : Unit → TaskProg TaskReply} {id w p : String}
    (hid : row.id = id) (hw : row.workspaceId = w) (hp : row.projectId = p) :
    Invalidates row (.await (.cacheDel (getTaskCacheKey id)) fun _ =>
      .await (.cacheDelPattern (getListCachePattern w p)) k) := by
  subst hid hw hp
  rintro key (rfl | hkey)
  · exact Or.inl rfl
  · exact Or.inr fun _ => Or.inl hkey

theorem updateTask_follows (id w u : String) (dto : UpdateTaskDto) (s : TaskState) :
    Follows (taskService pg) (updateTask id w u dto) s := by
  refine follows_findById_loaded pg ?_ s
  intro t s hl
  unfold updateLoaded
  by_cases hv : versionMismatch dto.version t.row.version = true
  · rw [if_pos hv]
    exact fun _ _ _ => trivial
  · rw [if_neg hv]
    refine (completionTime_quiet dto t).follows_bind
      (fun s op k hq => duty_of_quiet s op k hq) (fun _ _ => trivial) (fun _ _ => trivial)
      s ?_
    intro c s₁ hr₁ s₂ _ hr₂
    obtain ⟨r, hr, hs⟩ := (hl.later (hr₁.trans hr₂)).stored
    refine ⟨⟨hl.live, ⟨r, hr, ?_⟩, ?_⟩, fun _ ω => ?_⟩
    · exact ⟨hs.id, hs.workspaceId, hs.projectId, hs.parentTaskId, hs.createdAt⟩
    · intro saved
      exact invalidates_intro hl.id hl.workspaceId rfl
    · cases (exec pg ω (.save (applyDto t dto c)) s₂).2 with
      | error e => exact fun _ _ _ => trivial
      | ok saved => exact follows_of_quiet pg (afterSave_quiet _ _ _ _ _ _) _

theorem deleteTask_follows (id w u : String) (s : TaskState) :
    Follows (taskService pg) (deleteTask id w u) s := by
  refine follows_findById_loaded pg ?_ s
  intro t s hl s₁ _ hr₁
  refine ⟨⟨(hl.later hr₁).stored, invalidates_intro hl.id hl.workspaceId rfl⟩,
    fun _ ω => follows_of_quiet pg ?_ _⟩
  exact ⟨trivial, fun _ => ⟨trivial, fun _ => ⟨trivial, fun _ => ⟨trivial, fun _ =>
    ⟨trivial, fun _ => ⟨trivial, fun _ => trivial⟩⟩⟩⟩⟩⟩

theorem createTask_follows (w p u : String) (dto : CreateTaskDto) (s : TaskState) :
    Follows (taskService pg) (createTask w p u dto) s := by
  intro s₁ _ _
  refine ⟨?_, fun _ ω => ?_⟩
  · intro row hw hp key hkey
    rw [hw, hp] at hkey
    exact Or.inl hkey
  · refine follows_of_quiet pg ?_ _
    cases (exec pg ω (.insert _) s₁).2 with
    | error e => trivial
    | ok row =>
        exact ⟨trivial, fun _ => ⟨trivial, fun _ => ⟨trivial, fun _ => ⟨trivial, fun _ =>
          (notifyAssignee_quiet dto).bind fun _ => trivial⟩⟩⟩⟩

theorem getTasks_follows (w p : String) (q : QueryTaskDto) (s : TaskState) :
    Follows (taskService pg) (getTasks w p q) s := by
  intro s₁ _ _
  refine ⟨trivial, fun _ ω₁ => ?_⟩
  cases (exec pg ω₁ (.cacheGet (getListCacheKey w p q)) s₁).2 with
  | some v => exact fun _ _ _ => trivial
  | none =>
      intro s₂ _ _
      exact ⟨trivial, fun _ ω₂ => fun s₃ _ _ =>
        ⟨trivial, fun _ ω₃ => fun _ _ _ => trivial⟩⟩

/-- **Every call keeps its side of the bargain.** -/
theorem call_follows (c : TaskCall) (s : TaskState) :
    Follows (taskService pg) c.prog s := by
  cases c with
  | createTask w p u dto => exact createTask_follows pg w p u dto s
  | getTasks w p q => exact getTasks_follows pg w p q s
  | updateTask id w u dto => exact updateTask_follows pg id w u dto s
  | deleteTask id w u => exact deleteTask_follows pg id w u s
  | findById id w =>
      refine follows_findById_loaded pg ?_ s
      intro t s hl
      exact fun _ _ _ => trivial

/-! ## Runs -/

/-- Calls in flight on the state `s`. -/
def pool (s : TaskState) (calls : List TaskCall) :
    Pool TaskOp TaskOp.Res HttpError TaskReply TaskState :=
  ⟨s, calls.map TaskCall.prog⟩

theorem pool_orderly {s : TaskState} (h : Consistent s.db s.cache)
    (calls : List TaskCall) : Orderly (taskService pg) (pool s calls) := by
  refine ⟨h, ?_⟩
  intro p hp
  obtain ⟨c, -, rfl⟩ := List.mem_map.mp hp
  exact call_follows pg c s

theorem granted_always (c : Pool TaskOp TaskOp.Res HttpError TaskReply TaskState)
    (l : List (Nat × Choice)) : Meets (exec pg) (OnOp (taskService pg).granted) c l :=
  meets_of_forall (exec pg) (fun _ _ _ _ _ => trivial) c l

/-- A database without tasks, and nothing cached. -/
structure Fresh (s : TaskState) : Prop where
  tasks : s.db.tasks = []
  cache : ∀ k, s.cache k = none

theorem Fresh.consistent {s : TaskState} (h : Fresh s) : Consistent s.db s.cache := by
  refine ⟨?_, ?_, ?_, ?_, ?_⟩
  · rw [h.tasks]
    exact List.nodup_nil
  · rw [h.tasks]
    exact fun r hr => absurd hr List.not_mem_nil
  · intro l₁ r l₂ heq
    rw [h.tasks] at heq
    exact absurd heq (by simp)
  · rw [h.tasks]
    exact fun r hr => absurd hr List.not_mem_nil
  · intro k t hk
    rw [h.cache k] at hk
    cases hk

/-- The states that interleaved calls lead to from a fresh one. -/
def Reachable (s : TaskState) : Prop :=
  ∃ s₀ calls l, Fresh s₀ ∧ s = (run (exec pg) (pool s₀ calls) l).shared

/-- **Every reachable state is consistent.** -/
theorem Reachable.consistent {s : TaskState} (h : Reachable pg s) :
    Consistent s.db s.cache := by
  obtain ⟨s₀, calls, l, hfresh, rfl⟩ := h
  exact (follows_run (pool_orderly pg hfresh.consistent calls)
    (granted_always pg _ l)).1.inv

end Discipline

/-! ## A small office -/

/-- Text search that finds everything, and the order of code points. -/
def plainText : PostgresText where
  search _ _ := true
  collate a b := a ≤ b

/-- Two users, a workspace and a project; no task yet. -/
def office : TaskState where
  db :=
    { users := [⟨"a", "alice@x", none, "Alice", none, true⟩,
        ⟨"b", "bob@x", none, "Bob", none, true⟩]
      workspaces := [⟨"w", "Work", "work", "a"⟩]
      members := [⟨"w", "a", .admin⟩, ⟨"w", "b", .member⟩]
      projects := [⟨"p", "w", "Project", none, "ACTIVE", 0⟩]
      tasks := []
      comments := []
      notifications := [] }
  cache _ := none
  now := 0

/-- The calls move in this order; nothing expires and no time passes. -/
def turns (order : List Nat) : List (Nat × Choice) :=
  order.map fun i => (i, ⟨0, [], "1"⟩)

/-- The office with the task "1" in it. -/
def staffed : TaskState :=
  (run (exec plainText) (pool office [.createTask "w" "p" "a" { title := "Plan" }])
    (turns [0, 0, 0, 0, 0])).shared

theorem staffed_reachable : Reachable plainText staffed :=
  ⟨office, _, _, ⟨rfl, fun _ => rfl⟩, rfl⟩

/-- The row of the task "1". -/
def planTask : Task :=
  (NewTask.mk "w" "p" "Plan" none none .medium .todo none none none (some []) "a").row "1" 0

end PlatformTasks
