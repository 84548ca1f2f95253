import TaskPlatform.TaskRuns

/-! # Racing task calls

    `updateTask` reads a task, from the cache or the database, compares versions and
    saves the whole object later, without looking at the row again.

    `lock_admits_one`: of any number of updates that carry the same version, one
    succeeds at most and the others end in the lock conflict and change nothing, as
    long as every save still finds the version that was read and has something to
    write. -/

namespace PlatformTasks

open AsyncProgram Interleaving PlatformEntities RowTable

section Races

variable (pg : PostgresText)

/-! ## Optimistic locking -/

/-- The task is stored, live and in the workspace; copies of it in the cache are
    live too. -/
structure LiveTask (id w : String) (s : TaskState) : Prop where
  row : ∃ r, lookup Task.id id s.db.tasks = some r ∧ r.deletedAt = none ∧
    r.workspaceId = w
  copies : ∀ t, s.cache (getTaskCacheKey id) = some (.task t) →
    t.row.id = id ∧ t.row.deletedAt = none

/-- What an update of the task with version `v` sees to. -/
def LockDuty (id w : String) (v : Int) : TaskProg TaskReply → Prop
  | .await (.cacheSet _ (.task t) _) _ => t.row.id = id ∧ t.row.deletedAt = none
  | .await (.insert _) _ => False
  | .await (.softRemove _) _ => False
  | .await (.save e) _ =>
      e.row.id = id ∧ e.row.workspaceId = w ∧ e.row.deletedAt = none ∧
        (e.row.version : Int) = v
  | _ => True

/-- The bargain of updates that carry the version `v`. -/
def lockedUpdates (id w : String) (v : Int) : Discipline (exec pg) HttpError TaskReply where
  inv := LiveTask id w
  rely _ _ := True
  refl _ := trivial
  trans _ _ _ _ _ := trivial
  granted _ _ := True
  owes _ := LockDuty id w v
  keep := by
    intro ω op k s hinv howes _
    refine ⟨⟨?_, ?_⟩, trivial⟩
    · have heffect := exec_effect pg ω op s
      generalize (exec pg ω op s).1.db = db, (exec pg ω op s).2 = answer at heffect ⊢
      cases heffect with
      | same op notifications answer kept => exact hinv.row
      | insert wanted new keys named => exact absurd howes not_false
      | softRemove stored => exact absurd howes not_false
      | @reinsert e saved new wanted gone keys =>
          obtain ⟨hid, -, -, -⟩ := howes
          obtain ⟨r, hr, -⟩ := hinv.row
          obtain ⟨hne, -, -⟩ := toRow_some wanted
          rw [hne.id, hid, hr] at gone
          cases gone
      | @update e saved old new wanted stored writes keys =>
          obtain ⟨hid, hw, hlive, -⟩ := howes
          obtain ⟨hne, -, hdel⟩ := toRow_some wanted
          have hkey : (updateRow (s.now + ω.elapsed) old new).id = id := hne.id.trans hid
          refine ⟨updateRow (s.now + ω.elapsed) old new, ?_, hdel.trans hlive,
            hne.workspaceId.trans hw⟩
          rw [← hkey]
          exact lookup_replace_self stored
    · intro t ht
      rcases exec_cache pg ht with ht | ⟨ttl, rfl⟩
      · exact hinv.copies t ht
      · exact howes

theorem lockDuty_of_quiet (id w : String) (v : Int) (op : TaskOp)
    (k : op.Res → TaskProg TaskReply) (h : Quiet op) : LockDuty id w v (.await op k) := by
  cases op with
  | cacheSet key v ttl => exact absurd h not_false
  | insert n => exact absurd h not_false
  | save e => exact absurd h not_false
  | softRemove t => exact absurd h not_false
  | _ => trivial

/-- Every update that carries `v` keeps its side of the bargain. -/
theorem updateTask_lockFollows {id w : String} {v : Int} (u : String)
    {dto : UpdateTaskDto} (hv : dto.version = .val v) (s : TaskState) :
    Follows (lockedUpdates pg id w v) (updateTask id w u dto) s := by
  have hquiet : ∀ (s : TaskState) (op : TaskOp) (k : op.Res → TaskProg TaskReply),
      Quiet op → LockDuty id w v (.await op k) :=
    fun _ op k h => lockDuty_of_quiet id w v op k h
  refine follows_findById pg
    (P := fun t _ => t.row.id = id ∧ t.row.workspaceId = w ∧ t.row.deletedAt = none)
    hquiet (fun _ _ => trivial) (fun _ _ _ h _ => h) ?_ ?_ ?_ ?_ s
  · intro s t hinv hget hw
    exact ⟨(hinv.copies t hget).1, hw, (hinv.copies t hget).2⟩
  · intro s t _ ht
    obtain ⟨-, -, hid, hw, hlive⟩ := findOneTask_some ht
    exact ⟨hid, hw, hlive⟩
  · rintro s t ttl k ⟨hid, -, hlive⟩
    exact ⟨hid, hlive⟩
  · rintro t s ⟨hid, hw, hlive⟩
    unfold updateLoaded
    by_cases hm : versionMismatch dto.version t.row.version = true
    · rw [if_pos hm]
      exact fun _ _ _ => trivial
    · rw [if_neg hm]
      have hver : (t.row.version : Int) = v := by
        rw [hv] at hm
        simpa [versionMismatch] using hm
      refine (completionTime_quiet dto t).follows_bind hquiet (fun _ _ => trivial)
        (fun _ _ => trivial) s ?_
      intro c s₁ _ s₂ _ _
      refine ⟨⟨hid, hw, hlive, hver⟩, fun _ ω => ?_⟩
      cases (exec pg ω (.save (applyDto t dto c)) s₂).2 with
      | error e => exact fun _ _ _ => trivial
      | ok saved =>
          exact (afterSave_quiet _ _ _ _ _ _).follows hquiet (fun _ _ => trivial)
            (fun _ _ => trivial) _

/-- A save meets the version that its object was read with, has something to write and
    breaks no constraint; a notification goes to a user who exists. -/
def CleanStep (s : TaskState) : TaskOp → Prop
  | .save e => ∃ old ∈ lookup Task.id e.row.id s.db.tasks, ∃ new ∈ e.toRow (some old),
      old.version = new.version ∧ e.Writes old new ∧ foreignKeysHold s.db new = true
  | .insertNotification u _ _ _ => ∃ x ∈ s.db.users, x.id = u
  | _ => True

instance (s : TaskState) (op : TaskOp) : Decidable (CleanStep s op) :=
  match op with
  | .save e => inferInstanceAs (Decidable (∃ old ∈ lookup Task.id e.row.id s.db.tasks,
      ∃ new ∈ e.toRow (some old),
        old.version = new.version ∧ e.Writes old new ∧ foreignKeysHold s.db new = true))
  | .insertNotification u _ _ _ => inferInstanceAs (Decidable (∃ x ∈ s.db.users, x.id = u))
  | .cacheGet _ | .cacheSet _ _ _ | .cacheDel _ | .cacheDelPattern _ | .findOne _ _
  | .getManyAndCount _ _ _ | .insert _ | .softRemove _ | .currentTime | .auditLog _ _ _
  | .activityLog _ _ _ _ _ | .queueAdd _ | .emit _ => isTrue trivial

/-- The save of an update. -/
def IsSave : TaskOp → Prop
  | .save _ => True
  | _ => False

/-- A clean save overwrites the row and returns. -/
theorem exec_clean_save (ω : Choice) {e : TaskEntity} {s : TaskState}
    (h : CleanStep s (.save e)) :
    ∃ old new saved, e.toRow (some old) = some new ∧
      lookup Task.id e.row.id s.db.tasks = some old ∧
      old.version = new.version ∧ (exec pg ω (.save e) s).2 = .ok saved ∧
      (exec pg ω (.save e) s).1.db.tasks
        = replace Task.id (updateRow (s.now + ω.elapsed) old new) s.db.tasks := by
  obtain ⟨old, hold, new, hnew, hver, hwrites, hfk⟩ := h
  obtain ⟨saved, hs⟩ := saveTask_updates (s.now + ω.elapsed) hold hnew hwrites hfk
  exact ⟨old, new, saved, hnew, hold, hver, by simp only [exec, hs],
    by simp only [exec, hs]⟩

section Clean

variable {pg} {C : TaskState → TaskOp → Prop}

/-- A notification goes through where the user exists. -/
theorem notification_neverFails {u : String}
    (huser : ∀ s ty ti m, C s (.insertNotification u ty ti m) → ∃ x ∈ s.db.users, x.id = u)
    (ty ti m : String) : NeverFails (exec pg) C (createAndSendNotification u ty ti m) := by
  simp only [createAndSendNotification, Prog.perform_bind]
  intro ω s hs
  rcases exec_notification_cases pg ω u ty ti m s with ⟨hno, -⟩ | ⟨-, h⟩
  · exact absurd (huser s ty ti m hs) hno
  · rw [h]
    exact fun _ _ _ => fun _ _ _ => fun _ _ _ => trivial

variable (hC : ∀ s op, C s op → CleanStep s op)

include hC in
theorem announceUpdate_neverFails (id w u : String) (t : TaskEntity)
    (completed changed : Bool) :
    NeverFails (exec pg) C (announceUpdate id w u t completed changed) := by
  unfold announceUpdate
  cases completed with
  | true =>
      simp only [if_true]
      intro ω s _
      by_cases hc : t.row.createdBy ≠ u
      · simp only [if_pos hc]
        exact (notification_neverFails (fun _ _ _ _ => hC _ _) _ _ _).bind fun _ => trivial
      · simp only [if_neg hc]
        trivial
  | false =>
      simp only [Bool.false_eq_true, if_false]
      cases changed with
      | false => exact fun _ _ _ => trivial
      | true =>
          cases truthy t.row.assignedTo with
          | none => exact fun _ _ _ => trivial
          | some a =>
              exact fun _ _ _ =>
                (notification_neverFails (fun _ _ _ _ => hC _ _) _ _ _).bind fun _ => trivial

include hC in
/-- Once its save went through, an update returns. -/
theorem afterSave_neverFails (id w u : String) (dto : UpdateTaskDto) (t : LoadedTask)
    (saved : TaskEntity) : NeverFails (exec pg) C (afterSave id w u dto t saved) :=
  fun _ _ _ => fun _ _ _ => fun _ _ _ =>
    (announceUpdate_neverFails hC _ _ _ _ _ _).bind fun _ => fun _ _ _ => trivial

theorem completionTime_neverFails (dto : UpdateTaskDto) (t : LoadedTask) :
    NeverFails (exec pg) C (completionTime dto t) := by
  rcases completionTime_cases dto t with h | ⟨completedAt, h⟩
  · rw [h]
    exact fun _ _ _ => trivial
  · rw [h]
    trivial

theorem not_isSave_of_quiet {op : TaskOp} (h : Quiet op) : ¬ IsSave op := by
  intro hs
  cases op with
  | save e => exact h
  | _ => exact hs

include hC in
/-- An update throws nothing but the lock conflict, and that only before its save. -/
theorem updateTask_failsBefore {id w : String}
    (hlive : ∀ s op, C s op → LiveTask id w s) (u : String) (dto : UpdateTaskDto) :
    FailsBefore (exec pg) C IsSave (fun e => e = .conflict lockMessage)
      (updateTask id w u dto) := by
  have hrest : ∀ t : LoadedTask, FailsBefore (exec pg) C IsSave
      (fun e => e = .conflict lockMessage) (updateLoaded id w u dto t) := by
    intro t
    unfold updateLoaded
    by_cases hm : versionMismatch dto.version t.row.version = true
    · rw [if_pos hm]
      rfl
    · rw [if_neg hm]
      refine FailsBefore.bind (completionTime_neverFails dto t) ?_ ?_
      · exact (completionTime_quiet dto t).mono fun _ => not_isSave_of_quiet
      · intro c ω s hs
        obtain ⟨old, new, saved, -, -, -, h, -⟩ := exec_clean_save pg ω (hC _ _ hs)
        refine ⟨fun _ => ?_, fun hn => absurd trivial hn⟩
        rw [h]
        exact afterSave_neverFails hC _ _ _ _ _ _
  have hdb : FailsBefore (exec pg) C IsSave (fun e => e = .conflict lockMessage)
      (findInDatabase id w >>= updateLoaded id w u dto) := by
    simp only [findInDatabase, Prog.perform_bind, Prog.await_bind]
    intro ω s hs
    refine ⟨fun hP => absurd hP not_false, fun _ => ?_⟩
    cases ht : (exec pg ω (.findOne id w) s).2 with
    | none =>
        -- the live row would have been found
        obtain ⟨r, hr, hdel, hw⟩ := (hlive _ _ hs).row
        obtain ⟨hmem, hid⟩ := lookup_mem hr
        exact absurd ht (findOneTask_isSome hmem hid hw hdel)
    | some t => exact fun _ _ _ => ⟨fun hP => absurd hP not_false, fun _ => hrest t⟩
  unfold updateTask
  simp only [findById, Prog.perform_bind, Prog.await_bind]
  intro ω s _
  refine ⟨fun hP => absurd hP not_false, fun _ => ?_⟩
  cases (exec pg ω (.cacheGet (getTaskCacheKey id)) s).2 with
  | none => exact hdb
  | some value =>
      cases value with
      | tasks page => exact hdb
      | workspace w => exact hdb
      | projects l => exact hdb
      | task t =>
          by_cases hw : t.row.workspaceId = w
          · simp only [if_pos hw]
            exact hrest t
          · simp only [if_neg hw]
            exact hdb

end Clean

/-- An update does not return without its save. -/
theorem updateTask_mustIssue (id w u : String) (dto : UpdateTaskDto) :
    MustIssue IsSave (updateTask id w u dto) := by
  refine MustIssue.bind fun t => ?_
  unfold updateLoaded
  by_cases hm : versionMismatch dto.version t.row.version = true
  · rw [if_pos hm]
    trivial
  · rw [if_neg hm]
    exact MustIssue.bind fun c => Or.inl trivial

/-- **Optimistic locking.**  From every reachable state with a live task, any number of
    updates that carry the version `v`, in every interleaving whose steps are clean:
    at most one of them returns, and each that fails ends in the lock conflict and
    none of its steps changes the table. -/
theorem lock_admits_one (s : TaskState) (hs : Reachable pg s) (id w : String) (v : Int)
    (hrow : ∃ r ∈ s.db.tasks, r.id = id ∧ r.workspaceId = w ∧ r.deletedAt = none)
    (requests : List (String × UpdateTaskDto))
    (hv : ∀ x ∈ requests, x.2.version = .val v) (l : List (Nat × Choice))
    (hl : Meets (exec pg) (OnOp CleanStep)
      (pool s (requests.map fun x => .updateTask id w x.1 x.2)) l) :
    let c := pool s (requests.map fun x => .updateTask id w x.1 x.2)
    AtMostOneReturned (run (exec pg) c l) ∧
      ∀ i e, (run (exec pg) c l).calls[i]? = some (.fail e) →
        e = .conflict lockMessage ∧
          ∀ l₁ ω l₂, l = l₁ ++ (i, ω) :: l₂ →
            (step (exec pg) (run (exec pg) c l₁) i ω).shared.db.tasks
              = (run (exec pg) c l₁).shared.db.tasks := by
  intro c
  have hcons := hs.consistent
  have hcalls : ∀ p ∈ c.calls, ∃ x ∈ requests, p = updateTask id w x.1 x.2 := by
    intro p hp
    obtain ⟨call, hcall, rfl⟩ := List.mem_map.mp hp
    obtain ⟨x, hx, rfl⟩ := List.mem_map.mp hcall
    exact ⟨x, hx, rfl⟩
  -- the bargain of the updates holds from the start
  have hord : Orderly (lockedUpdates pg id w v) c := by
    refine ⟨⟨?_, ?_⟩, ?_⟩
    · obtain ⟨r, hr, hid, hw, hdel⟩ := hrow
      exact ⟨r, lookup_eq_some hcons.ids hr hid, hdel, hw⟩
    · intro t ht
      obtain ⟨hkey, hdel, -⟩ := hcons.cached _ t ht
      exact ⟨getTaskCacheKey_injective hkey.symm, hdel⟩
    · intro p hp
      obtain ⟨x, hx, rfl⟩ := hcalls p hp
      exact updateTask_lockFollows pg x.1 (hv x hx) s
  have hall := hl.and (exec pg)
    (hord.meets (meets_of_forall (exec pg) (fun _ _ _ _ _ => trivial) c l))
  constructor
  · refine at_most_one_returns (P := IsSave) (K := fun s =>
      ∃ r, lookup Task.id id s.db.tasks = some r ∧ (r.version : Int) ≠ v) ?_ ?_ ?_ hall
    · intro ω op s hsave hC
      cases op with
      | save e =>
          obtain ⟨hclean, -, k, hid, -, -, hver⟩ := hC
          obtain ⟨old, new, saved, hnew, hold, hsame, -, h⟩ :=
            exec_clean_save pg ω hclean
          obtain ⟨hne, hnewver, -⟩ := toRow_some hnew
          have hnid : new.id = id := hne.id.trans hid
          have hold' : lookup Task.id id s.db.tasks = some old := hid ▸ hold
          constructor
          · rintro ⟨r, hr, hrv⟩
            rw [hold'] at hr
            cases hr
            omega
          · rw [h]
            refine ⟨updateRow (s.now + ω.elapsed) old new, ?_, ?_⟩
            · have hkey : (updateRow (s.now + ω.elapsed) old new).id = id := hnid
              rw [← hkey]
              exact lookup_replace_self (hkey.symm ▸ hold')
            · show ((if new.version = old.version then old.version + 1
                else new.version : Nat) : Int) ≠ v
              rw [if_pos hsame.symm]
              omega
      | _ => exact absurd hsave not_false
    · rintro ω op s ⟨hclean, -, k, howes⟩ ⟨r, hr, hrv⟩
      by_cases hop : WritesTasks op
      · cases op with
        | insert n => exact absurd howes not_false
        | softRemove t => exact absurd howes not_false
        | save e =>
            -- a clean save meets the version `v`, which is gone
            obtain ⟨hid, -, -, hver⟩ := howes
            obtain ⟨old, hold, new, hnew, hsame, -, -⟩ := hclean
            obtain ⟨hne, hnewver, -⟩ := toRow_some hnew
            have hold' : lookup Task.id e.row.id s.db.tasks = some old := hold
            rw [hid, hr] at hold'
            cases hold'
            omega
        | _ => exact absurd hop not_false
      · rw [exec_tasks pg ω op s hop]
        exact ⟨r, hr, hrv⟩
    · intro p hp
      obtain ⟨x, -, rfl⟩ := hcalls p hp
      exact updateTask_mustIssue id w x.1 x.2
  · intro i e hfail
    obtain ⟨p, hp⟩ := run_calls_origin (exec pg) hfail
    obtain ⟨x, -, rfl⟩ := hcalls p (List.mem_of_getElem? hp)
    have hfb : FailsBefore (exec pg) (fun s op => CleanStep s op ∧
          (lockedUpdates pg id w v).inv s ∧
            ∃ k, (lockedUpdates pg id w v).owes s (.await op k))
        IsSave (fun e => e = .conflict lockMessage) (updateTask id w x.1 x.2) :=
      updateTask_failsBefore (fun _ _ h => h.1) (fun _ _ h => h.2.1) x.1 x.2
    obtain ⟨he, hmark⟩ := hfb.run hp hall hfail
    refine ⟨he, ?_⟩
    intro l₁ ω l₂ heq
    rcases step_cases (exec pg) (run (exec pg) c l₁) i ω with h0 | ⟨op, k, hi, h0⟩
    · rw [h0]
    · rw [h0]
      refine exec_tasks pg ω op _ ?_
      intro hop
      have hno := hmark l₁ ω l₂ heq op k hi
      have howes := ((meets_iff_split (exec pg) _ c l).mp hall l₁ i ω l₂ heq op k hi).2.2
      obtain ⟨k', howes⟩ := howes
      cases op with
      | save e => exact hno trivial
      | insert n => exact absurd howes not_false
      | softRemove t => exact absurd howes not_false
      | _ => exact absurd hop not_false

/-- Alice and Bob update version 1. -/
def twoUpdates : List (String × UpdateTaskDto) :=
  [("a", { title := .val "Alice's plan", version := .val 1 }),
    ("b", { title := .val "Bob's plan", version := .val 1 })]

/-- Bob starts when Alice is done. -/
theorem lock_admits_one_in_turn :
    let c := pool staffed (twoUpdates.map fun x => .updateTask "1" "w" x.1 x.2)
    let l := turns [0, 0, 0, 0, 0, 0, 0, 0, 0, 1, 1, 1]
    AtMostOneReturned (run (exec plainText) c l) ∧
      ∀ i e, (run (exec plainText) c l).calls[i]? = some (.fail e) →
        e = .conflict lockMessage ∧
          ∀ l₁ ω l₂, l = l₁ ++ (i, ω) :: l₂ →
            (step (exec plainText) (run (exec plainText) c l₁) i ω).shared.db.tasks
              = (run (exec plainText) c l₁).shared.db.tasks :=
  lock_admits_one plainText staffed staffed_reachable "1" "w" 1 (by decide) twoUpdates
    (by decide) (turns [0, 0, 0, 0, 0, 0, 0, 0, 0, 1, 1, 1]) (by decide)

/-- Both read version 1 before either saves: both return, and Alice's title is
    lost. -/
theorem lock_admits_two :
    let c := run (exec plainText)
      (pool staffed (twoUpdates.map fun x => .updateTask "1" "w" x.1 x.2))
      (turns [0, 1, 0, 1, 0, 1, 0, 1, 0, 0, 0, 0, 0, 1, 1, 1, 1, 1])
    ¬ AtMostOneReturned c ∧ c.shared.db.tasks.map Task.title = ["Bob's plan"] := by
  intro c
  refine ⟨?_, by decide⟩
  intro h
  exact absurd (h 0 1 _ _ rfl rfl rfl rfl) (by decide)

end Races

end PlatformTasks
