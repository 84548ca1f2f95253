import TaskPlatform.TaskRuns

/-! # What `updateTask` stores

    `updateTask` assigns the fields of the request to the task that it has loaded with
    its `assignee` and `creator`, and saves that object.  The join column `assignedTo` is
    written from the loaded `assignee` where there is one, so another assignee, or `null`,
    does not get into the row of a task that has an assignee; and a save of such a task that
    finds no column to write leaves the version alone.  Everything else is stored as it was
    asked for (`update_stores_iff`). -/

namespace PlatformTasks

open AsyncProgram Interleaving PlatformEntities RowTable

/-! ## What was asked for -/

/-- The completion time after an update: set where the status moves to DONE from another
    value, cleared where the request names another status. -/
def completedAfter (dto : UpdateTaskDto) (r : Task) (completed : Nat) : Option Nat :=
  if dto.status = .val .done ∧ r.status ≠ .done then some completed
  else
    match dto.status with
    | .val .todo => none
    | .val .inProgress => none
    | .val .blocked => none
    | _ => r.completedAt

/-- The row with each field of the request in place of the column; none if a column that
    cannot be null would be. -/
def requestedColumns (dto : UpdateTaskDto) (r : Task) (completed : Nat) : Option Task :=
  match dto.title.assign (some r.title), dto.status.assign (some r.status),
      dto.priority.assign (some r.priority) with
  | some title, some status, some priority =>
      some { r with
        title := title
        description := dto.description.assign r.description
        status := status
        priority := priority
        assignedTo := dto.assignedTo.assign r.assignedTo
        dueDate := dto.dueDate.assign r.dueDate
        labels := dto.labels.assign r.labels
        attachments := dto.attachments.assign r.attachments
        completedAt := completedAfter dto r completed }
  | _, _, _ => none

/-- The same, with the next version, written at the time `now`. -/
def requestedRow (dto : UpdateTaskDto) (r : Task) (completed now : Nat) : Option Task :=
  (requestedColumns dto r completed).map fun row =>
    { row with version := r.version + 1, updatedAt := now }

/-- Between the two states the row `r` has become what the request asks for, and no other
    row has changed. -/
def StoresRequest (dto : UpdateTaskDto) (r : Task) (s s' : TaskState) : Prop :=
  ∃ completed now row, s.now ≤ completed ∧ completed ≤ s'.now ∧ s.now ≤ now ∧
    now ≤ s'.now ∧ requestedRow dto r completed now = some row ∧
    s'.db.tasks = replace Task.id row s.db.tasks

/-- The request does not name another assignee than that of the row, or the row has
    none. -/
def AssigneeStays (dto : UpdateTaskDto) (r : Task) : Prop :=
  dto.assignedTo.assign r.assignedTo = r.assignedTo ∨ r.assignedTo = none

/-- The request asks for what the row holds already. -/
def AsksNothing (dto : UpdateTaskDto) (r : Task) : Prop :=
  ∃ completed, requestedColumns dto r completed = some r

/-! ## The object that is saved -/

/-- The request in the columns of a row, once they are not null. -/
theorem requestedColumns_some {dto : UpdateTaskDto} {r row : Task} {completed : Nat}
    (h : requestedColumns dto r completed = some row) :
    row.id = r.id ∧ dto.status.assign (some r.status) = some row.status ∧
      row.assignedTo = dto.assignedTo.assign r.assignedTo ∧ row.version = r.version ∧
      row.updatedAt = r.updatedAt := by
  unfold requestedColumns at h
  split at h
  · rename_i title status priority _ hstatus _
    cases h
    exact ⟨rfl, hstatus, rfl, rfl, rfl⟩
  · cases h

/-- Where the request completes the task it asks for something; elsewhere the clock does
    not matter. -/
theorem asksNothing_iff (dto : UpdateTaskDto) (r : Task) (completed : Nat) :
    AsksNothing dto r ↔ requestedColumns dto r completed = some r := by
  refine ⟨?_, fun h => ⟨completed, h⟩⟩
  rintro ⟨c, hc⟩
  by_cases hdone : dto.status = .val .done ∧ r.status ≠ .done
  · have hstatus := (requestedColumns_some hc).2.1
    rw [hdone.1] at hstatus
    exact absurd (Option.some.inj hstatus).symm hdone.2
  · have hsame : completedAfter dto r completed = completedAfter dto r c := by
      unfold completedAfter
      rw [if_neg hdone, if_neg hdone]
    rw [← hc]
    unfold requestedColumns
    rw [hsame]

section Saved

variable {db : Database} {r : Task}

/-- What `save` makes of the edited object: the columns asked for, but the assignee that
    was loaded. -/
theorem applyDto_toRow (hassignee : ∀ x, r.assignedTo = some x → ∃ u ∈ db.users, u.id = x)
    (dto : UpdateTaskDto) (completed : Nat) :
    (applyDto (loadTask db r) dto (completedAfter dto r completed)).toRow (some r)
      = (requestedColumns dto r completed).map fun row =>
          { row with assignedTo :=
              if r.assignedTo = none then row.assignedTo else r.assignedTo } := by
  unfold TaskEntity.toRow requestedColumns applyDto loadTask
  dsimp only
  cases dto.title.assign (some r.title) with
  | none => rfl
  | some title =>
      cases dto.status.assign (some r.status) with
      | none => rfl
      | some status =>
          cases dto.priority.assign (some r.priority) with
          | none => rfl
          | some priority =>
              refine congrArg some ?_
              congr 1
              · -- the join column is written from the loaded assignee
                unfold TaskEntity.joinColumn
                dsimp only
                cases hr : r.assignedTo with
                | none =>
                    show (if (some r).any (fun old => decide (old.assignedTo
                      = dto.assignedTo.assign none)) = true then none
                        else dto.assignedTo.assign none) = dto.assignedTo.assign none
                    rw [Option.any_some, hr]
                    by_cases hsame : none = dto.assignedTo.assign none
                    · rw [if_pos (decide_eq_true hsame)]
                      exact hsame
                    · rw [if_neg fun h => hsame (of_decide_eq_true h)]
                | some x =>
                    cases hu : findUser db x with
                    | none => exact absurd hu (findUser_ne_none (hassignee x hr))
                    | some u =>
                        have hloaded : (some x).bind (findUser db) = some u := hu
                        rw [hloaded, if_neg (Option.some_ne_none x)]
                        exact congrArg some (findUser_id hu)
              · cases h : findUser db r.createdBy with
                | none => rfl
                | some u => exact findUser_id h

/-- The relation holds null exactly for a task without an assignee. -/
theorem loadTask_assignee
    (hassignee : ∀ x, r.assignedTo = some x → ∃ u ∈ db.users, u.id = x) :
    (loadTask db r).assignee = none ↔ r.assignedTo = none := by
  unfold loadTask
  cases hr : r.assignedTo with
  | none => exact iff_of_true rfl rfl
  | some x => exact iff_of_false (findUser_ne_none (hassignee x hr)) (Option.some_ne_none x)

/-- The completion time that `updateTask` decides on. -/
theorem completionTime_ensures {β : Type} {pg : PostgresText}
    {Q : Except HttpError β → TaskState → Prop} {dto : UpdateTaskDto}
    {f : Option Nat → TaskProg β} {s : TaskState}
    (hf : ∀ completed s', s'.db = s.db → s.now ≤ completed → completed ≤ s'.now →
      Ensures (exec pg) Q (f (completedAfter dto r completed)) s') :
    Ensures (exec pg) Q (completionTime dto (loadTask db r) >>= f) s := by
  unfold completionTime
  by_cases hcomp : dto.status = .val .done ∧ r.status ≠ .done
  · have hcompletes : completes dto (loadTask db r) = true := by
      simp [completes, loadTask, hcomp]
    rw [if_pos hcompletes]
    intro ω
    have h := hf (s.now + ω.elapsed) (s.wait ω) rfl (Nat.le_add_right ..) (le_refl _)
    unfold completedAfter at h
    rw [if_pos hcomp] at h
    exact h
  · have hcompletes : ¬ completes dto (loadTask db r) = true := by
      rw [completes, Bool.and_eq_true, decide_eq_true_eq, decide_eq_true_eq]
      exact hcomp
    rw [if_neg hcompletes]
    have h := hf s.now s rfl (le_refl _) (le_refl _)
    unfold completedAfter at h
    rw [if_neg hcomp] at h
    cases hstatus : dto.status with
    | undefined =>
        rw [hstatus] at h
        exact h
    | null =>
        rw [hstatus] at h
        exact h
    | val st =>
        rw [hstatus] at h
        cases st with
        | done => exact h
        | todo => exact h
        | inProgress => exact h
        | blocked => exact h

/-- The task that `findById` comes back with, from the cache or from the database. -/
theorem findById_ensures {β : Type} {pg : PostgresText}
    {Q : Except HttpError β → TaskState → Prop} {f : LoadedTask → TaskProg β}
    {s : TaskState} (hids : Unique Task.id s.db.tasks) (hr : r ∈ s.db.tasks)
    (hlive : r.deletedAt = none)
    (hcache : s.cache (getTaskCacheKey r.id) = none ∨
      s.cache (getTaskCacheKey r.id) = some (.task (loadTask s.db r)))
    (hf : ∀ s', s'.db = s.db → s.now ≤ s'.now →
      Ensures (exec pg) Q (f (loadTask s.db r)) s') :
    Ensures (exec pg) Q (findById r.id r.workspaceId >>= f) s := by
  have hdb : ∀ s₁ : TaskState, s₁.db = s.db → s.now ≤ s₁.now →
      Ensures (exec pg) Q (findInDatabase r.id r.workspaceId >>= f) s₁ := by
    intro s₁ hs₁ hnow₁
    have hfound : findOneTask s₁.db r.id r.workspaceId = some (loadTask s.db r) := by
      rw [hs₁]
      cases h : findOneTask s.db r.id r.workspaceId with
      | none => exact absurd h (findOneTask_isSome hr rfl rfl hlive)
      | some t =>
          obtain ⟨ht, hmem, hid, -⟩ := findOneTask_some h
          rw [hids.eq_of_key hmem hr hid] at ht
          rw [ht]
    simp only [findInDatabase, Prog.perform_bind, Prog.await_bind]
    intro ω₁
    have hanswer : (exec pg ω₁ (.findOne r.id r.workspaceId) s₁).2
        = some (loadTask s.db r) := hfound
    rw [hanswer]
    intro ω₂
    refine hf _ hs₁ ?_
    show s.now ≤ s₁.now + ω₁.elapsed + ω₂.elapsed
    omega
  simp only [findById, Prog.perform_bind, Prog.await_bind]
  intro ω
  have hnow : s.now ≤ (s.wait ω).now := Nat.le_add_right ..
  cases hget : (exec pg ω (.cacheGet (getTaskCacheKey r.id)) s).2 with
  | none => exact hdb _ rfl hnow
  | some v =>
      -- what is found is the copy
      have hv : v = .task (loadTask s.db r) := by
        rcases hcache with h | h
        · exact absurd ((wait_cache hget).symm.trans h) (by simp)
        · exact Option.some.inj ((wait_cache hget).symm.trans h)
      rw [hv]
      have hw : (loadTask s.db r).row.workspaceId = r.workspaceId := rfl
      dsimp only
      rw [if_pos hw]
      exact hf _ rfl hnow

/-- Where the assignee stays, the row of the object is the one asked for. -/
theorem applyDto_toRow_of_stays
    (hassignee : ∀ x, r.assignedTo = some x → ∃ u ∈ db.users, u.id = x)
    {dto : UpdateTaskDto} (hstays : AssigneeStays dto r) (completed : Nat) :
    (applyDto (loadTask db r) dto (completedAfter dto r completed)).toRow (some r)
      = requestedColumns dto r completed := by
  rw [applyDto_toRow hassignee]
  cases h : requestedColumns dto r completed with
  | none => rfl
  | some row =>
      obtain ⟨-, -, hassigned, -⟩ := requestedColumns_some h
      have hkept : (if r.assignedTo = none then row.assignedTo else r.assignedTo)
          = row.assignedTo := by
        by_cases hnone : r.assignedTo = none
        · rw [if_pos hnone]
        · rw [if_neg hnone, hassigned]
          rcases hstays with hsame | hsame
          · exact hsame.symm
          · exact absurd hsame hnone
      show some { row with assignedTo := _ } = some row
      rw [hkept]

/-- The row that an overwrite of `r` leaves is the one that was written. -/
theorem replace_inj (hids : RowTable.Unique Task.id db.tasks) (hr : r ∈ db.tasks) {a b : Task}
    (ha : a.id = r.id) (hb : b.id = r.id)
    (h : replace Task.id a db.tasks = replace Task.id b db.tasks) : a = b := by
  have hstored : lookup Task.id r.id db.tasks = some r := lookup_eq_some hids hr rfl
  have hla := lookup_replace_self (ha.symm ▸ hstored)
  have hlb := lookup_replace_self (hb.symm ▸ hstored)
  rw [h, ha, ← hb, hlb] at hla
  exact (Option.some.inj hla).symm

/-- Overwriting a row by itself. -/
theorem replace_self (hids : RowTable.Unique Task.id db.tasks) (hr : r ∈ db.tasks) :
    replace Task.id r db.tasks = db.tasks := by
  refine (List.map_congr_left ?_).trans (List.map_id' _)
  intro t ht
  by_cases htr : t.id = r.id
  · rw [if_pos htr, hids.eq_of_key ht hr htr]
  · rw [if_neg htr]

/-- What it takes for the save to leave the row that was asked for. -/
theorem Saved.asked_iff (hids : RowTable.Unique Task.id db.tasks) (hr : r ∈ db.tasks)
    (hassignee : ∀ x, r.assignedTo = some x → ∃ u ∈ db.users, u.id = x)
    {dto : UpdateTaskDto} {completed now : Nat} {db' : Database}
    (h : Saved db now (applyDto (loadTask db r) dto (completedAfter dto r completed)) db') :
    ((∃ c n row, requestedRow dto r c n = some row ∧
        db'.tasks = replace Task.id row db.tasks) →
      AssigneeStays dto r ∧ (r.assignedTo = none ∨ ¬ AsksNothing dto r)) ∧
    (AssigneeStays dto r → (r.assignedTo = none ∨ ¬ AsksNothing dto r) →
      ∃ row, requestedRow dto r completed now = some row ∧
        db'.tasks = replace Task.id row db.tasks) := by
  have hstored : lookup Task.id r.id db.tasks = some r := lookup_eq_some hids hr rfl
  -- the row of the object is that of `r`
  have hwanted : ∀ stored row,
      (applyDto (loadTask db r) dto (completedAfter dto r completed)).toRow stored = some row →
      row.id = r.id := fun _ row hrow => (toRow_some hrow).1.id
  have hnone : (applyDto (loadTask db r) dto (completedAfter dto r completed)).assignee = none
      ↔ r.assignedTo = none := loadTask_assignee hassignee
  cases h with
  | unchanged row stored wanted nothing =>
      rw [hwanted _ row wanted, hstored] at stored
      cases stored
      constructor
      · rintro ⟨c, n, row, hrow, hsame⟩
        obtain ⟨x, hx, rfl⟩ := Option.map_eq_some_iff.mp hrow
        have hid : ({ x with version := r.version + 1, updatedAt := n } : Task).id = r.id :=
          (requestedColumns_some hx).1
        have heq := replace_inj hids hr rfl hid ((replace_self hids hr).trans hsame)
        have hversion : r.version = r.version + 1 := congrArg Task.version heq
        omega
      · rintro hstays (hunassigned | hasks)
        · exact absurd (Or.inl (hnone.mpr hunassigned)) nothing
        · rw [applyDto_toRow_of_stays hassignee hstays] at wanted
          exact absurd ⟨completed, wanted⟩ hasks
  | inserted new wanted gone keys =>
      rw [hwanted _ new wanted, hstored] at gone
      cases gone
  | updated old new wanted stored writes keys =>
      have hid := hwanted _ new wanted
      rw [hid, hstored] at stored
      cases stored
      constructor
      · rintro ⟨c, n, row, hrow, hsame⟩
        obtain ⟨x, hx, rfl⟩ := Option.map_eq_some_iff.mp hrow
        obtain ⟨hxid, -, hxassigned, -⟩ := requestedColumns_some hx
        have hid' : (updateRow now r new).id = r.id := hid
        have hxid' : ({ x with version := r.version + 1, updatedAt := n } : Task).id = r.id :=
          hxid
        have heq := replace_inj hids hr hid' hxid' hsame
        rw [applyDto_toRow hassignee] at wanted
        obtain ⟨y, hy, rfl⟩ := Option.map_eq_some_iff.mp wanted
        by_cases hunassigned : r.assignedTo = none
        · exact ⟨Or.inr hunassigned, Or.inl hunassigned⟩
        · have hassigned : (if r.assignedTo = none then y.assignedTo else r.assignedTo)
              = dto.assignedTo.assign r.assignedTo := by
            rw [← hxassigned]
            exact congrArg Task.assignedTo heq
          rw [if_neg hunassigned] at hassigned
          refine ⟨Or.inl hassigned.symm, Or.inr ?_⟩
          intro hasks
          have hy' := (asksNothing_iff dto r completed).mp hasks
          rw [hy] at hy'
          cases hy'
          -- the save has found something to write, and there was nothing
          rcases writes with h | h
          · exact hunassigned (hnone.mp h)
          · rw [if_neg hunassigned] at h
            exact h rfl
      · intro hstays _
        rw [applyDto_toRow_of_stays hassignee hstays] at wanted
        obtain ⟨-, -, -, hversion, hupdated⟩ := requestedColumns_some wanted
        refine ⟨updateRow now r new, ?_, rfl⟩
        rw [requestedRow, wanted, updateRow, if_pos hversion, if_pos hupdated]
        rfl

end Saved

/-! ## The call -/

theorem exec_now (pg : PostgresText) (ω : Choice) (op : TaskOp) (s : TaskState) :
    (exec pg ω op s).1.now = s.now + ω.elapsed := by
  cases op with
  | insert n =>
      rcases exec_insert_cases pg ω n s with ⟨e, h⟩ | ⟨db, row, -, h⟩
      · rw [h]
        rfl
      · rw [h]
        rfl
  | save e =>
      rcases exec_save_cases pg ω e s with ⟨err, h⟩ | ⟨db, saved, -, h⟩
      · rw [h]
        rfl
      · rw [h]
        rfl
  | insertNotification u ty ti m =>
      rcases exec_notification_cases pg ω u ty ti m s with ⟨-, h⟩ | ⟨-, h⟩
      · rw [h]
        rfl
      · rw [h]
        rfl
  | _ => rfl

/-- A task call that only reads, caches, queues and sends keeps the tasks. -/
theorem quiet_ensures {β : Type} (pg : PostgresText) {p : TaskProg β}
    (h : OnlyIssues Quiet p) (s : TaskState) :
    Ensures (exec pg) (fun _ s' => s'.db.tasks = s.db.tasks ∧ s.now ≤ s'.now) p s := by
  have hkeep : ∀ ω op s₁, Quiet op → s₁.db.tasks = s.db.tasks ∧ s.now ≤ s₁.now →
      (exec pg ω op s₁).1.db.tasks = s.db.tasks ∧ s.now ≤ (exec pg ω op s₁).1.now := by
    intro ω op s₁ hq hs₁
    have hwrites : ¬ WritesTasks op := by
      cases op with
      | insert n => exact absurd hq not_false
      | save e => exact absurd hq not_false
      | softRemove t => exact absurd hq not_false
      | _ => exact not_false
    refine ⟨(exec_tasks pg ω op s₁ hwrites).trans hs₁.1, ?_⟩
    rw [exec_now]
    omega
  exact (h.ensures hkeep (returns_any p) ⟨rfl, le_refl _⟩).mono fun r s' h => h.1

/-- **What `updateTask` stores.**  For every live task of a workspace, whether or not a
    copy of it is cached, and every request that names no other version, a call that runs
    alone and returns leaves the row that was asked for exactly when the task has no
    assignee, or the request names no other one and asks for something that the row does
    not hold yet. -/
theorem update_stores_iff (pg : PostgresText) (s : TaskState)
    (hids : RowTable.Unique Task.id s.db.tasks) (r : Task) (hr : r ∈ s.db.tasks)
    (hlive : r.deletedAt = none)
    (hassignee : ∀ x, r.assignedTo = some x → ∃ u ∈ s.db.users, u.id = x)
    (hcache : s.cache (getTaskCacheKey r.id) = none ∨
      s.cache (getTaskCacheKey r.id) = some (.task (loadTask s.db r)))
    (userId : String) (dto : UpdateTaskDto)
    (hversion : dto.version = .undefined ∨ dto.version = .val r.version) (ω : Nat → Choice)
    (hreturns : ∃ reply,
      (solo (exec pg) ω (updateTask r.id r.workspaceId userId dto) s).2 = .ok reply) :
    StoresRequest dto r s (solo (exec pg) ω (updateTask r.id r.workspaceId userId dto) s).1 ↔
      AssigneeStays dto r ∧ (r.assignedTo = none ∨ ¬ AsksNothing dto r) := by
  have hall : Ensures (exec pg) (fun res s' => (∃ reply, res = .ok reply) →
      (StoresRequest dto r s s' ↔
        AssigneeStays dto r ∧ (r.assignedTo = none ∨ ¬ AsksNothing dto r)))
      (updateTask r.id r.workspaceId userId dto) s := by
    refine findById_ensures hids hr hlive hcache ?_
    intro s₁ hs₁ hnow₁
    unfold updateLoaded
    -- the version that is sent, if any, is that of the row
    have hmatch : ¬ versionMismatch dto.version (loadTask s.db r).row.version = true := by
      rcases hversion with h | h
      · rw [h]
        exact Bool.false_ne_true
      · rw [h]
        simp [versionMismatch, loadTask]
    rw [if_neg hmatch]
    refine completionTime_ensures ?_
    intro completed s₂ hs₂ hlow hhigh ω₂
    have hdb₂ : s₂.db = s.db := hs₂.trans hs₁
    rcases exec_save_cases pg ω₂ (applyDto (loadTask s.db r) dto
      (completedAfter dto r completed)) s₂ with ⟨err, h⟩ | ⟨db, saved, hsaved, h⟩
    · rw [h]
      rintro ⟨reply, hreply⟩
      cases hreply
    · rw [h]
      rw [hdb₂] at hsaved
      refine (quiet_ensures pg (afterSave_quiet _ _ _ _ _ _) _).mono ?_
      rintro res s' ⟨htasks, hnow'⟩ -
      have htasks' : s'.db.tasks = db.tasks := htasks
      have hnow'' : s₂.now + ω₂.elapsed ≤ s'.now := hnow'
      obtain ⟨hleft, hright⟩ := hsaved.asked_iff hids hr hassignee
      constructor
      · rintro ⟨c, n, row, -, -, -, -, hrow, hreplaced⟩
        exact hleft ⟨c, n, row, hrow, htasks' ▸ hreplaced⟩
      · rintro ⟨hstays, hasks⟩
        obtain ⟨row, hrow, hreplaced⟩ := hright hstays hasks
        exact ⟨completed, s₂.now + ω₂.elapsed, row, by omega, by omega, by omega, hnow'',
          hrow, htasks'.trans hreplaced⟩
  have : Nonempty Choice := ⟨{}⟩
  exact (ensures_iff (exec pg) _ s).mp hall ω hreturns

/-- The office with a task "1" that Bob is to do. -/
def assignedOffice : TaskState :=
  (solo (exec plainText) (fun _ => ⟨0, [], "1"⟩)
    (createTask "w" "p" "a" { title := "Plan", assignedTo := some "b" }) office).1

/-- Its row. -/
def bobsTask : Task := { planTask with assignedTo := some "b" }

/-- Completing Bob's task stores it as completed, with the next version. -/
theorem update_stores_completion :
    StoresRequest { status := .val .done } bobsTask assignedOffice
      (solo (exec plainText) (fun _ => {})
        (updateTask "1" "w" "a" { status := .val .done }) assignedOffice).1 :=
  (update_stores_iff plainText assignedOffice (by decide) bobsTask (by decide) rfl
    (by decide) (Or.inl rfl) "a" { status := .val .done } (Or.inl rfl) (fun _ => {})
    ⟨_, rfl⟩).mpr ⟨Or.inl rfl, Or.inr fun ⟨_, h⟩ => by cases h⟩

/-- Alice takes the task over: the call returns a task that is hers, and the row stays
    Bob's. -/
theorem update_keeps_assignee :
    bobsTask ∈ assignedOffice.db.tasks ∧
      assignedOffice.cache (getTaskCacheKey bobsTask.id) = none ∧
      (∃ task, (solo (exec plainText) (fun _ => {})
          (updateTask "1" "w" "a" { assignedTo := .val "a" }) assignedOffice).2
        = .ok (.updated task) ∧ task.row.assignedTo = some "a") ∧
      (solo (exec plainText) (fun _ => {})
          (updateTask "1" "w" "a" { assignedTo := .val "a" })
          assignedOffice).1.db.tasks.map Task.assignedTo = [some "b"] ∧
      ¬ StoresRequest { assignedTo := .val "a" } bobsTask assignedOffice
        (solo (exec plainText) (fun _ => {})
          (updateTask "1" "w" "a" { assignedTo := .val "a" }) assignedOffice).1 := by
  have hstored : (solo (exec plainText) (fun _ => {})
      (updateTask "1" "w" "a" { assignedTo := .val "a" })
      assignedOffice).1.db.tasks.map Task.assignedTo = [some "b"] := by decide
  refine ⟨by decide, rfl, ⟨_, rfl, rfl⟩, hstored, ?_⟩
  rintro ⟨completed, now, row, -, -, -, -, hrow, htasks⟩
  obtain ⟨x, hx, rfl⟩ := Option.map_eq_some_iff.mp hrow
  have hassigned : x.assignedTo = some "a" := (requestedColumns_some hx).2.2.1
  have hid : x.id = "1" := (requestedColumns_some hx).1
  -- the row asked for would be Alice's, and all that is stored is Bob's
  have hasked : ({ x with version := bobsTask.version + 1, updatedAt := now } : Task)
      ∈ replace Task.id { x with version := bobsTask.version + 1, updatedAt := now }
        assignedOffice.db.tasks :=
    mem_replace.mpr (Or.inl ⟨rfl, bobsTask, by decide, hid.symm⟩)
  rw [← htasks] at hasked
  have hmem := List.mem_map_of_mem (f := Task.assignedTo) hasked
  rw [hstored, List.mem_singleton] at hmem
  have hbob : x.assignedTo = some "b" := hmem
  rw [hassigned] at hbob
  exact absurd hbob (by decide)

end PlatformTasks
