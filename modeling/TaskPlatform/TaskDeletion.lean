import TaskPlatform.CopyOrigins
import TaskPlatform.TaskRuns

/-! # Deleted tasks that come back

    `updateTask` saves the whole object that `findById` has come back with, and `save`
    does not mind that the row was soft-deleted in the meantime.  What `findById` comes
    back with was read from the database at some time, by this call or by another one
    that has put it into the cache.

    `deletion_permanent_iff`: a deleted task stays deleted exactly in the runs where no
    task is removed between the time at which a copy of it was read from the database
    and the save of that copy. -/

namespace PlatformTasks

open AsyncProgram Interleaving PlatformEntities RowTable

/-- Whatever row was deleted before is there and deleted after. -/
def DeletedStays (db db' : Database) : Prop :=
  ∀ x r, lookup Task.id x db.tasks = some r → r.deletedAt ≠ none →
    ∃ r', lookup Task.id x db'.tasks = some r' ∧ r'.deletedAt ≠ none

/-- What matters of a copy: which task it is of, and whether that was deleted. -/
def copyOf (t : Task) : String × Option Nat := (t.id, t.deletedAt)

/-- Copies of tasks: `findOne` reads one, the cache holds them under its keys, and a save
    writes one back. -/
def taskCopies : Traffic TaskOp TaskOp.Res String (String × Option Nat) where
  transfer
    | .findOne _ _ => .read
    | .cacheGet key => .load key
    | .cacheSet key _ _ => .store key
    | _ => .neither
  got
    | .findOne _ _, some t => some (copyOf t.row)
    | .cacheGet _, some (.task t) => some (copyOf t.row)
    | _, _ => none
  gives
    | .cacheSet _ (.task t) _ => some (copyOf t.row)
    | .save e => some (copyOf e.row)
    | _ => none

/-- The task that the operation saves. -/
def savedTask : TaskOp → Option String
  | .save e => some e.row.id
  | _ => none

/-- The task that the operation removes. -/
def removedTask : TaskOp → Option String
  | .softRemove t => some t.row.id
  | _ => none

/-- The constraints of the table let the save through. -/
def LetThrough (s : TaskState) : TaskOp → Prop
  | .save e => ∃ new ∈ e.toRow (lookup Task.id e.row.id s.db.tasks),
      foreignKeysHold s.db new = true
  | _ => True

instance (s : TaskState) (op : TaskOp) : Decidable (LetThrough s op) :=
  match op with
  | .save e => inferInstanceAs (Decidable (∃ new ∈ e.toRow (lookup Task.id e.row.id s.db.tasks),
      foreignKeysHold s.db new = true))
  | .cacheGet _ | .cacheSet _ _ _ | .cacheDel _ | .cacheDelPattern _ | .findOne _ _
  | .getManyAndCount _ _ _ | .insert _ | .softRemove _ | .currentTime | .auditLog _ _ _
  | .activityLog _ _ _ _ _ | .insertNotification _ _ _ _ | .queueAdd _ | .emit _ =>
      isTrue trivial

section Deletion

variable (pg : PostgresText)

/-- No task is removed between the read of a copy and its save: none of the steps from
    the one in which the copy was read from the database, by whichever call, to the one
    that saves it, if the constraints let it, removes the task. -/
def NoRemovalBetween (c : Pool TaskOp TaskOp.Res HttpError TaskReply TaskState)
    (l : List (Nat × Choice)) : Prop :=
  ∀ n < l.length, ∀ op ∈ issuedAt (exec pg) c l n,
    LetThrough (run (exec pg) c (l.take n)).shared op → ∀ x ∈ savedTask op,
      ¬ OccursBetween (exec pg) (fun _ op' => removedTask op' = some x) c l
        (originAt (exec pg) taskCopies c l n) n

instance (c : Pool TaskOp TaskOp.Res HttpError TaskReply TaskState)
    (l : List (Nat × Choice)) : Decidable (NoRemovalBetween pg c l) :=
  inferInstanceAs (Decidable (∀ n < l.length, ∀ op ∈ issuedAt (exec pg) c l n,
    LetThrough (run (exec pg) c (l.take n)).shared op → ∀ x ∈ savedTask op,
      ¬ OccursBetween (exec pg) (fun _ op' => removedTask op' = some x) c l
        (originAt (exec pg) taskCopies c l n) n))

/-! ## What an operation does to a row -/

theorem DeletedStays.refl (db : Database) : DeletedStays db db :=
  fun _ r hr hdel => ⟨r, hr, hdel⟩

theorem DeletedStays.trans {a b d : Database} (h₁ : DeletedStays a b)
    (h₂ : DeletedStays b d) : DeletedStays a d := by
  intro x r hr hdel
  obtain ⟨r', hr', hdel'⟩ := h₁ x r hr hdel
  exact h₂ x r' hr' hdel'

theorem DeletedStays.append (db : Database) (row : Task) :
    DeletedStays db { db with tasks := db.tasks ++ [row] } :=
  fun _ r hr hdel => ⟨r, lookup_append_some hr, hdel⟩

/-- Overwriting a row that is live, or by one that is deleted too. -/
theorem DeletedStays.replace {db : Database} {old row : Task}
    (hold : lookup Task.id row.id db.tasks = some old)
    (h : old.deletedAt ≠ none → row.deletedAt ≠ none) :
    DeletedStays db { db with tasks := RowTable.replace Task.id row db.tasks } := by
  intro x r hr hdel
  by_cases hx : x = row.id
  · subst hx
    rw [hold] at hr
    rw [← Option.some.inj hr] at hdel
    exact ⟨row, lookup_replace_self hold, h hdel⟩
  · exact ⟨r, (lookup_replace_ne hx).trans hr, hdel⟩

/-- A save that goes through does not put an object that is live over a row that is
    deleted. -/
def NotStale (s : TaskState) : TaskOp → Prop
  | .save e => LetThrough s (.save e) → ∀ old, lookup Task.id e.row.id s.db.tasks = some old →
      old.deletedAt ≠ none → e.row.deletedAt ≠ none
  | _ => True

/-- No operation but a stale save brings a deleted row back. -/
theorem exec_deletedStays (ω : Choice) (op : TaskOp) (s : TaskState)
    (h : NotStale s op) : DeletedStays s.db (exec pg ω op s).1.db := by
  have heffect := exec_effect pg ω op s
  generalize (exec pg ω op s).1.db = db, (exec pg ω op s).2 = answer at heffect ⊢
  cases heffect with
  | same op notifications answer kept => exact fun x r hr hdel => ⟨r, hr, hdel⟩
  | insert wanted new keys named => exact DeletedStays.append _ _
  | reinsert wanted gone keys => exact DeletedStays.append _ _
  | @update e saved old new wanted stored writes keys =>
      obtain ⟨hsame, -, hdel⟩ := toRow_some wanted
      have hstored : lookup Task.id e.row.id s.db.tasks = some old := hsame.id ▸ stored
      refine DeletedStays.replace stored fun hold => ?_
      have hkept := h ⟨new, hstored.symm ▸ wanted, keys⟩ old hstored hold
      rw [← hdel] at hkept
      exact hkept
  | @softRemove t row stored =>
      have hid : (markDeleted (s.now + ω.elapsed) row).id = t.row.id := (lookup_mem stored).2
      exact DeletedStays.replace (hid ▸ stored) fun _ => Option.some_ne_none _

/-- The task `x` is stored and not deleted. -/
def LiveRow (x : String) (s : TaskState) : Prop :=
  ∃ r, lookup Task.id x s.db.tasks = some r ∧ r.deletedAt = none

/-- A row is overwritten at most. -/
theorem exec_stored {x : String} {s : TaskState}
    (h : ∃ r, lookup Task.id x s.db.tasks = some r) (ω : Choice) (op : TaskOp) :
    ∃ r, lookup Task.id x (exec pg ω op s).1.db.tasks = some r := by
  obtain ⟨r, hr⟩ := h
  have hreplace : ∀ old row : Task, lookup Task.id row.id s.db.tasks = some old →
      ∃ r', lookup Task.id x (replace Task.id row s.db.tasks) = some r' := by
    intro old row hold
    by_cases hx : x = row.id
    · subst hx
      exact ⟨row, lookup_replace_self hold⟩
    · exact ⟨r, (lookup_replace_ne hx).trans hr⟩
  have heffect := exec_effect pg ω op s
  generalize (exec pg ω op s).1.db = db, (exec pg ω op s).2 = answer at heffect ⊢
  cases heffect with
  | same op notifications answer kept => exact ⟨r, hr⟩
  | insert wanted new keys named => exact ⟨r, lookup_append_some hr⟩
  | reinsert wanted gone keys => exact ⟨r, lookup_append_some hr⟩
  | update wanted stored writes keys => exact hreplace _ _ stored
  | @softRemove t row stored =>
      have hid : (markDeleted (s.now + ω.elapsed) row).id = t.row.id := (lookup_mem stored).2
      exact hreplace _ _ (hid ▸ stored)

/-- No operation takes a live row away but one that removes it, or the save of a deleted
    object. -/
theorem exec_liveRow {x : String} {op : TaskOp} {s : TaskState} (h : LiveRow x s)
    (hremoved : removedTask op ≠ some x)
    (hsaved : ∀ e, op = .save e → e.row.deletedAt = none) (ω : Choice) :
    LiveRow x (exec pg ω op s).1 := by
  obtain ⟨r, hr, hlive⟩ := h
  unfold LiveRow
  have heffect := exec_effect pg ω op s
  generalize (exec pg ω op s).1.db = db, (exec pg ω op s).2 = answer at heffect ⊢
  cases heffect with
  | same op notifications answer kept => exact ⟨r, hr, hlive⟩
  | insert wanted new keys named => exact ⟨r, lookup_append_some hr, hlive⟩
  | reinsert wanted gone keys => exact ⟨r, lookup_append_some hr, hlive⟩
  | @update e saved old new wanted stored writes keys =>
      by_cases hx : x = (updateRow (s.now + ω.elapsed) old new).id
      · refine ⟨updateRow (s.now + ω.elapsed) old new, ?_, ?_⟩
        · rw [hx]
          exact lookup_replace_self stored
        · exact (toRow_some wanted).2.2.trans (hsaved e rfl)
      · exact ⟨r, (lookup_replace_ne hx).trans hr, hlive⟩
  | @softRemove t row stored =>
      have hid : (markDeleted (s.now + ω.elapsed) row).id = t.row.id := (lookup_mem stored).2
      have hx : x ≠ (markDeleted (s.now + ω.elapsed) row).id := by
        rintro rfl
        exact hremoved (congrArg some hid.symm)
      exact ⟨r, (lookup_replace_ne hx).trans hr, hlive⟩

/-- A row that is stored is deleted once it is removed. -/
theorem exec_removes {x : String} {op : TaskOp} {s : TaskState}
    (hstored : ∃ r, lookup Task.id x s.db.tasks = some r) (hop : removedTask op = some x)
    (ω : Choice) : ∃ r, lookup Task.id x (exec pg ω op s).1.db.tasks = some r ∧
      r.deletedAt ≠ none := by
  cases op with
  | softRemove t =>
      cases hop
      obtain ⟨r, hr⟩ := hstored
      have hid : (markDeleted (s.now + ω.elapsed) r).id = t.row.id := (lookup_mem hr).2
      refine ⟨markDeleted (s.now + ω.elapsed) r, ?_, Option.some_ne_none _⟩
      show lookup Task.id t.row.id (softRemoveTask s.db (s.now + ω.elapsed) t.row.id).tasks = _
      simp only [softRemoveTask, hr]
      rw [← hid]
      exact lookup_replace_self (hid ▸ hr)
  | _ => cases hop

/-- A save that the constraints let through leaves a live object live. -/
theorem exec_saves {e : TaskEntity} {s : TaskState} {old : Task}
    (hold : lookup Task.id e.row.id s.db.tasks = some old) (hdel : old.deletedAt ≠ none)
    (hlive : e.row.deletedAt = none) (haccepted : LetThrough s (.save e)) (ω : Choice) :
    LiveRow e.row.id (exec pg ω (.save e) s).1 := by
  obtain ⟨new, hnew, hfk⟩ := haccepted
  rw [hold] at hnew
  obtain ⟨hsame, -, hkept⟩ := toRow_some hnew
  -- the object is live and the row is not, so the row is overwritten
  have hne : new ≠ old := by
    rintro rfl
    exact hdel (hkept.trans hlive)
  obtain ⟨saved, hs⟩ := saveTask_updates (s.now + ω.elapsed) hold hnew (Or.inr hne) hfk
  have hid : (updateRow (s.now + ω.elapsed) old new).id = e.row.id := hsame.id
  refine ⟨updateRow (s.now + ω.elapsed) old new, ?_, hkept.trans hlive⟩
  simp only [exec, hs]
  rw [← hid]
  exact lookup_replace_self (hid ▸ hold)

/-- The primary key of the tasks stays one. -/
theorem exec_taskIds {s : TaskState} (hids : Unique Task.id s.db.tasks) (ω : Choice)
    (op : TaskOp) : Unique Task.id (exec pg ω op s).1.db.tasks := by
  have heffect := exec_effect pg ω op s
  generalize (exec pg ω op s).1.db = db, (exec pg ω op s).2 = answer at heffect ⊢
  cases heffect with
  | same op notifications answer kept => exact hids
  | insert wanted new keys named => exact hids.append new
  | reinsert wanted gone keys => exact hids.append gone
  | update wanted stored writes keys => exact hids.replace _
  | softRemove stored => exact hids.replace _

/-! ## What the calls save -/

/-- What a call comes by as a task is a live task of the table when it is read. -/
theorem taskCopies_faithful : Faithful (exec pg) taskCopies
    (fun s key y => ∃ t, s.cache key = some (.task t) ∧ y = copyOf t.row)
    (fun s y => y.2 = none ∧ (Unique Task.id s.db.tasks → LiveRow y.1 s)) where
  read := by
    intro ω op s y hop hy
    cases op with
    | findOne id w =>
        cases ht : findOneTask s.db id w with
        | none =>
            have hgot : taskCopies.got (.findOne id w) none = some y := ht ▸ hy
            cases hgot
        | some t =>
            have hgot : taskCopies.got (.findOne id w) (some t) = some y := ht ▸ hy
            cases hgot
            obtain ⟨-, hmem, -, -, hlive⟩ := findOneTask_some ht
            exact ⟨hlive, fun hids => ⟨t.row, lookup_eq_some hids hmem rfl, hlive⟩⟩
    | _ => cases hop
  load := by
    intro ω op s key y hop hy
    cases op with
    | cacheGet key' =>
        cases hop
        cases hv : (s.wait ω).cache key with
        | none =>
            have hgot : taskCopies.got (.cacheGet key) none = some y := hv ▸ hy
            cases hgot
        | some v =>
            have hgot : taskCopies.got (.cacheGet key) (some v) = some y := hv ▸ hy
            cases v with
            | task t =>
                cases hgot
                exact ⟨t, wait_cache hv, rfl⟩
            | tasks page => cases hgot
            | workspace w => cases hgot
            | projects l => cases hgot
    | _ => cases hop
  store := by
    rintro ω op s key y hop ⟨t, ht, rfl⟩
    cases op with
    | cacheSet key' v ttl =>
        cases hop
        have hv : (if key = key then some v else (s.wait ω).cache key) = some (.task t) := ht
        rw [if_pos rfl] at hv
        cases hv
        rfl
    | _ => cases hop
  keep := by
    rintro ω op s key y hop ⟨t, ht, rfl⟩
    rcases exec_cache pg ht with h | ⟨ttl, rfl⟩
    · exact ⟨t, h, rfl⟩
    · exact absurd rfl hop

/-- Operations that pass no copy on. -/
theorem givesNothing_of_quiet {op : TaskOp} (h : Quiet op) : taskCopies.gives op = none := by
  cases op with
  | cacheSet key v ttl => exact absurd h not_false
  | save e => exact absurd h not_false
  | _ => rfl

/-- What `findById` comes back with is what the rest of the call holds. -/
theorem findById_passesOn {f : LoadedTask → TaskProg TaskReply} (id w : String)
    (x : Option (String × Option Nat))
    (hf : ∀ t, PassesOn taskCopies (some (copyOf t.row)) (f t)) :
    PassesOn taskCopies x (findById id w >>= f) := by
  have hdb : ∀ x, PassesOn taskCopies x (findInDatabase id w >>= f) := by
    intro x
    refine ⟨fun y hy => (by cases hy), ?_⟩
    rintro (_ | t)
    · trivial
    · exact ⟨fun y hy => hy, fun _ => hf t⟩
  refine ⟨fun y hy => (by cases hy), ?_⟩
  rintro (_ | v)
  · exact hdb _
  · cases v with
    | tasks page => exact hdb _
    | workspace ws => exact hdb _
    | projects l => exact hdb _
    | task t =>
        show PassesOn taskCopies (some (copyOf t.row))
          ((if t.row.workspaceId = w then _ else _) >>= f)
        by_cases hw : t.row.workspaceId = w
        · rw [if_pos hw]
          exact hf t
        · rw [if_neg hw]
          exact hdb _

/-- A call saves, and puts into the cache, nothing but the task that it came by last. -/
theorem call_passesOn (call : TaskCall) : PassesOn taskCopies none call.prog := by
  have hquiet : ∀ {p : TaskProg TaskReply} (x : Option (String × Option Nat)),
      OnlyIssues Quiet p → PassesOn taskCopies x p :=
    fun x hp => hp.passesOn_of_givesNothing fun _ => givesNothing_of_quiet
  cases call with
  | createTask w p u dto =>
      refine ⟨fun y hy => (by cases hy), ?_⟩
      rintro (e | row)
      · trivial
      · refine hquiet _ ⟨trivial, fun _ => ⟨trivial, fun _ => ⟨trivial, fun _ => ⟨trivial,
          fun _ => ?_⟩⟩⟩⟩
        exact (notifyAssignee_quiet dto).bind fun _ => trivial
  | getTasks w p q =>
      refine ⟨fun y hy => (by cases hy), ?_⟩
      rintro (_ | v)
      · exact ⟨fun y hy => (by cases hy), fun page => ⟨fun y hy => (by cases hy),
          fun _ => trivial⟩⟩
      · trivial
  | findById id w => exact findById_passesOn id w none fun t => trivial
  | updateTask id w u dto =>
      refine findById_passesOn id w none fun t => ?_
      unfold updateLoaded
      by_cases hversion : versionMismatch dto.version t.row.version = true
      · rw [if_pos hversion]
        trivial
      · rw [if_neg hversion]
        have hidle : OnlyIssues taskCopies.Idle (completionTime dto t) := by
          refine (completionTime_issues dto t).mono ?_
          rintro op rfl
          exact ⟨rfl, rfl⟩
        refine hidle.passesOn_bind fun completedAt => ⟨fun y hy => hy, ?_⟩
        rintro (e | saved)
        · trivial
        · exact hquiet _ (afterSave_quiet id w u dto t saved)
  | deleteTask id w u =>
      refine findById_passesOn id w none fun t => ⟨fun y hy => (by cases hy), fun _ => ?_⟩
      exact hquiet _ ⟨trivial, fun _ =>
        ⟨trivial, fun _ => ⟨trivial, fun _ => ⟨trivial, fun _ =>
        ⟨trivial, fun _ => ⟨trivial, fun _ => trivial⟩⟩⟩⟩⟩⟩

/-! ## The theorem -/

/-- **When a deletion is permanent.**  In every interleaving of any calls, from any state
    whose cached copies are of live tasks: a deleted task stays deleted from every point
    of the run to every later one exactly when no task is removed between the read of a
    copy of it and the save of that copy. -/
theorem deletion_permanent_iff (s : TaskState) (hids : Unique Task.id s.db.tasks)
    (hcopies : ∀ key t, s.cache key = some (.task t) →
      t.row.deletedAt = none ∧ LiveRow t.row.id s) (calls : List TaskCall)
    (l : List (Nat × Choice)) :
    (∀ l₁ l₂ l₃, l = l₁ ++ l₂ ++ l₃ →
        DeletedStays (run (exec pg) (pool s calls) l₁).shared.db
          (run (exec pg) (pool s calls) (l₁ ++ l₂)).shared.db) ↔
      NoRemovalBetween pg (pool s calls) l := by
  have hunique : ∀ l', Unique Task.id (run (exec pg) (pool s calls) l').shared.db.tasks :=
    fun l' => run_relation (exec pg) (C := fun _ _ => True)
      (R := fun s s' => Unique Task.id s.db.tasks → Unique Task.id s'.db.tasks)
      (fun _ h => h) (fun _ _ _ h h' hs => h' (h hs))
      (fun ω op _ _ hs => exec_taskIds pg hs ω op)
      (meets_of_forall (exec pg) (fun _ _ _ _ _ => trivial) _ l') hids
  -- a copy that is saved was read live
  have hread : ∀ {n : Nat} {e : TaskEntity},
      issuedAt (exec pg) (pool s calls) l n = some (.save e) →
      originAt (exec pg) taskCopies (pool s calls) l n ≤ n ∧ e.row.deletedAt = none ∧
        LiveRow e.row.id (run (exec pg) (pool s calls)
          (l.take (originAt (exec pg) taskCopies (pool s calls) l n))).shared := by
    intro n e hn
    obtain ⟨hon, hlive, hrow⟩ := gives_was (taskCopies_faithful pg) (fun p hp => by
        obtain ⟨call, -, rfl⟩ := List.mem_map.mp hp
        exact call_passesOn call)
      (by
        rintro key y ⟨t, ht, rfl⟩
        obtain ⟨hlive, hrow⟩ := hcopies key t ht
        exact ⟨hlive, fun _ => hrow⟩) hn (y := copyOf e.row) rfl
    exact ⟨hon, hlive, hrow (hunique _)⟩
  constructor
  · rintro hperm n hn op hop haccepted x hx ⟨m, hmn, hom, op', hop', hremoved⟩
    -- from any step to any later one, what was deleted is deleted
    have hstays : ∀ a b, a ≤ b →
        DeletedStays (run (exec pg) (pool s calls) (l.take a)).shared.db
          (run (exec pg) (pool s calls) (l.take b)).shared.db := by
      intro a b hab
      have hcut : l.take b = l.take a ++ (l.take b).drop a := by
        have h := List.take_append_drop a (l.take b)
        rw [List.take_take, Nat.min_eq_left hab] at h
        exact h.symm
      rw [hcut]
      refine hperm _ _ (l.drop b) ?_
      rw [← hcut, List.take_append_drop]
    cases op with
    | save e =>
        cases hx
        obtain ⟨hon, hlive, r₀, hr₀, -⟩ := hread hop
        -- the row is there from the read on, so the removal deletes it
        have hstored : ∃ r, lookup Task.id e.row.id
            (run (exec pg) (pool s calls) (l.take m)).shared.db.tasks = some r := by
          by_contra hgone
          obtain ⟨-, -, -, -, -, hnever⟩ := changed_since
            (K := fun s : TaskState => ∃ r, lookup Task.id e.row.id s.db.tasks = some r)
            (P := fun _ _ => False) (fun m' op'' _ _ h ω => exec_stored pg h ω op'') hom
            (by omega) ⟨r₀, hr₀⟩ hgone
          exact hnever
        obtain ⟨ω', hafter'⟩ := shared_after hop'
        obtain ⟨r, hr, hdel⟩ := exec_removes pg hstored hremoved ω'
        rw [← hafter'] at hr
        -- it is deleted when the copy is saved, and after that
        obtain ⟨old, hold, holddel⟩ := hstays (m + 1) n (by omega) _ r hr hdel
        obtain ⟨r', hr', hdel'⟩ := hstays (m + 1) (n + 1) (by omega) _ r hr hdel
        obtain ⟨ω, hafter⟩ := shared_after hop
        obtain ⟨r'', hr'', hlive''⟩ := exec_saves pg hold holddel hlive haccepted ω
        rw [← hafter] at hr''
        rw [hr'] at hr''
        cases hr''
        exact hdel' hlive''
    | _ => cases hx
  · intro hbetween
    have hmeets : Meets (exec pg) (OnOp NotStale) (pool s calls) l := by
      refine meets_iff_issued.mpr ?_
      intro n op hop
      cases op with
      | save e =>
          intro haccepted old hold holddel
          exfalso
          obtain ⟨hon, hlive, hrow⟩ := hread hop
          have hnow : ¬ LiveRow e.row.id
              (run (exec pg) (pool s calls) (l.take n)).shared := by
            rintro ⟨r, hr, hrlive⟩
            rw [hold] at hr
            cases hr
            exact holddel hrlive
          have hnl : n < l.length := by
            obtain ⟨i, ω, k, he, -⟩ := issuedAt_eq_some.mp hop
            exact (List.getElem?_eq_some_iff.mp he).1
          -- live at the read, deleted at the save: a step in between removes it
          refine hbetween n hnl _ hop haccepted e.row.id rfl (changed_since
            (K := LiveRow e.row.id) ?_ hon (Nat.le_of_lt hnl) hrow hnow)
          intro m op' hop' hno hK ω
          refine exec_liveRow pg hK hno ?_ ω
          rintro e' rfl
          exact (hread hop').2.1
      | _ => trivial
    intro l₁ l₂ l₃ heq
    rw [heq, List.append_assoc, meets_append, meets_append] at hmeets
    rw [run_append]
    exact run_relation (exec pg) (R := fun s s' => DeletedStays s.db s'.db)
      (fun s => DeletedStays.refl s.db) (fun _ _ _ => DeletedStays.trans)
      (exec_deletedStays pg) hmeets.2.1

/-- A task is created and renamed; it is deleted when the rename is over, and a second
    rename comes too late. -/
theorem deletion_permanent_inTurn :
    let c := pool office [.createTask "w" "p" "a" { title := "Plan" },
      .updateTask "1" "w" "a" { title := .val "Again" }, .deleteTask "1" "w" "b",
      .updateTask "1" "w" "a" { title := .val "And again" }]
    let l := (0, ⟨0, [], "1"⟩) :: turns ([0, 0, 0, 0] ++ List.replicate 9 1
      ++ List.replicate 10 2 ++ [3, 3])
    ∀ l₁ l₂ l₃, l = l₁ ++ l₂ ++ l₃ →
      DeletedStays (run (exec plainText) c l₁).shared.db
        (run (exec plainText) c (l₁ ++ l₂)).shared.db :=
  (deletion_permanent_iff plainText office (by decide) (fun _ _ h => by cases h)
    [.createTask "w" "p" "a" { title := "Plan" },
      .updateTask "1" "w" "a" { title := .val "Again" }, .deleteTask "1" "w" "b",
      .updateTask "1" "w" "a" { title := .val "And again" }] _).mpr (by decide)

/-- An update reads the task; the task is deleted; the update saves what it had
    read, and the task is back. -/
theorem deletion_undone :
    let c := pool staffed [.updateTask "1" "w" "a" { title := .val "Again" },
      .deleteTask "1" "w" "b"]
    ¬ DeletedStays (run (exec plainText) c (turns [0, 0, 0, 1, 1])).shared.db
      (run (exec plainText) c (turns [0, 0, 0, 1, 1] ++ turns [0])).shared.db := by
  intro c h
  have hgone : ∃ r, lookup Task.id "1"
      (run (exec plainText) c (turns [0, 0, 0, 1, 1])).shared.db.tasks = some r ∧
        r.deletedAt ≠ none := by decide
  obtain ⟨r, hr, hdel⟩ := hgone
  obtain ⟨r', hr', hdel'⟩ := h "1" r hr hdel
  have hback : ∀ r ∈ lookup Task.id "1" (run (exec plainText) c
      (turns [0, 0, 0, 1, 1] ++ turns [0])).shared.db.tasks, r.deletedAt = none := by
    decide
  exact hdel' (hback r' hr')

end Deletion

end PlatformTasks
