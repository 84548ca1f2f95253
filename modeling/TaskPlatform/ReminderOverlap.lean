import TaskPlatform.ReminderProtocol

/-! # Overlapping runs of `checkDueTasks`

    Any number of runs, interleaved: ticks that outlast the minute, or several
    instances of the application.  The count and the insert are two operations and the
    table has no unique constraint, so that two runs may both count zero
    (`both_counted_zero`).  As long as no two runs are about to insert for one task and
    due date, none is inserted twice (`no_duplicate_reminders`). -/

namespace PlatformReminders

open AsyncProgram PlatformEntities Interleaving

/-- Both runs wait for the insert of a reminder, for one task and due date. -/
def sameInsert : SchedulerProg Unit → SchedulerProg Unit → Bool
  | .await (.saveReminder t d) _, .await (.saveReminder t' d') _ => t = t' && d = d'
  | _, _ => false

/-- The runs that wait for an insert wait for different ones. -/
def Apart (c : Pool SchedulerOp SchedulerOp.Res HttpError Unit SchedulerState) : Prop :=
  c.calls.Pairwise fun p q => sameInsert p q = false

instance (c : Pool SchedulerOp SchedulerOp.Res HttpError Unit SchedulerState) :
    Decidable (Apart c) :=
  inferInstanceAs (Decidable (List.Pairwise _ _))

/-! ## The runs in a mode -/

/-- The mode is that of the insert for a task and a due date. -/
def isInserting (t : String) (d : Nat) (m : SchedulerMode) : Bool := m = .inserting t d

/-- The mode is that of the job for a task and a due date. -/
def isAdding (t : String) (d : Nat) : SchedulerMode → Bool
  | .adding _ t' d' => t' = t && d' = d
  | _ => false

/-- A run in the mode waits for the insert. -/
theorem awaits_insert {t : String} {d : Nat} {p : SchedulerProg Unit}
    (h : Conforms schedulerProtocol (.inserting t d) p) :
    ∃ k, p = .await (.saveReminder t d) k := by
  cases p with
  | done a => cases h
  | fail e => cases h
  | await op k =>
      obtain ⟨hop, -⟩ := h
      cases hop
      exact ⟨k, rfl⟩

theorem inserting_le_one {ms : List SchedulerMode} {calls : List (SchedulerProg Unit)}
    (h : Tracks schedulerProtocol ms calls)
    (hapart : calls.Pairwise fun p q => sameInsert p q = false) (t : String) (d : Nat) :
    ms.countP (isInserting t d) ≤ 1 := by
  induction h with
  | nil => exact Nat.zero_le _
  | @cons m p ms calls hp hrest ih =>
      obtain ⟨hhead, htail⟩ := List.pairwise_cons.mp hapart
      rw [List.countP_cons]
      by_cases hm : m = .inserting t d
      · subst hm
        obtain ⟨k, rfl⟩ := awaits_insert hp
        -- nobody else waits for the same
        have hnone : ms.countP (isInserting t d) = 0 := by
          rw [List.countP_eq_zero]
          intro m' hm' hins
          obtain ⟨i, hi⟩ := List.mem_iff_getElem?.mp hm'
          obtain ⟨q, hq, hconf⟩ := Tracks.mode hrest hi
          rw [of_decide_eq_true hins] at hconf
          obtain ⟨k', rfl⟩ := awaits_insert hconf
          have hne := hhead _ (List.mem_of_getElem? hq)
          simp [sameInsert] at hne
        rw [hnone]
        simp [isInserting]
      · have := ih htail
        simp [isInserting, hm]
        exact this

/-! ## The invariant -/

/-- Rows and jobs are only ever added. -/
structure Grown (s s' : SchedulerState) : Prop where
  reminders : ∃ rows, s'.reminders = s.reminders ++ rows
  jobs : ∃ jobs, s'.jobs = s.jobs ++ jobs

/-- How many rows, jobs and runs at work there are for a task, a due date and a
    milestone, since the state `s₀`. -/
structure NoneTwice (s₀ : SchedulerState) (t : String) (d : Nat) (name : String)
    (ms : List SchedulerMode) (s : SchedulerState) : Prop where
  grown : Grown s₀ s
  unreminded : 0 < ms.countP (isInserting t d) → ¬ Reminded s t d
  rows_ge : s₀.reminders.countP (Reminder.isFor t d) ≤ s.reminders.countP (Reminder.isFor t d)
  rows_le : s.reminders.countP (Reminder.isFor t d)
    ≤ s₀.reminders.countP (Reminder.isFor t d) + 1
  jobs : jobsFor s t d name + ms.countP (isAdding t d)
      + s₀.reminders.countP (Reminder.isFor t d)
    ≤ jobsFor s₀ t d name + s.reminders.countP (Reminder.isFor t d)

theorem Grown.trans {s s₁ s₂ : SchedulerState} (h : Grown s s₁) (h' : Grown s₁ s₂) :
    Grown s s₂ := by
  obtain ⟨⟨r, hr⟩, j, hj⟩ := h
  obtain ⟨⟨r', hr'⟩, j', hj'⟩ := h'
  refine ⟨⟨r ++ r', ?_⟩, j ++ j', ?_⟩
  · rw [hr', hr, List.append_assoc]
  · rw [hj', hj, List.append_assoc]

theorem Untouched.grown {s s' : SchedulerState} (h : Untouched s s') : Grown s s' := by
  refine ⟨⟨[], ?_⟩, [], ?_⟩
  · rw [h.reminders, List.append_nil]
  · rw [h.jobs, List.append_nil]

theorem Untouched.reminded {s s' : SchedulerState} (h : Untouched s s') (t : String)
    (d : Nat) : Reminded s' t d ↔ Reminded s t d := by
  show (∃ r ∈ s'.reminders, _) ↔ _
  rw [h.reminders]
  rfl

theorem Untouched.jobsFor {s s' : SchedulerState} (h : Untouched s s') (t : String)
    (d : Nat) (name : String) :
    PlatformReminders.jobsFor s' t d name = PlatformReminders.jobsFor s t d name := by
  show s'.jobs.countP _ = _
  rw [h.jobs]
  rfl

theorem Inserted.grown {ω : Tick} {t : String} {d : Nat} {s s' : SchedulerState}
    (h : Inserted ω t d s s') : Grown s s' := by
  refine ⟨⟨_, h.reminders⟩, [], ?_⟩
  rw [h.jobs, List.append_nil]

theorem Inserted.countP {ω : Tick} {t : String} {d : Nat} {s s' : SchedulerState}
    (h : Inserted ω t d s s') (t' : String) (d' : Nat) :
    s'.reminders.countP (Reminder.isFor t' d')
      = s.reminders.countP (Reminder.isFor t' d') + if t = t' ∧ d = d' then 1 else 0 := by
  rw [h.reminders, List.countP_append, List.countP_singleton]
  congr 1
  simp [Reminder.isFor]

theorem Inserted.reminded {ω : Tick} {t : String} {d : Nat} {s s' : SchedulerState}
    (h : Inserted ω t d s s') {t' : String} {d' : Nat} (hr : Reminded s' t' d') :
    Reminded s t' d' ∨ t = t' ∧ d = d' := by
  by_contra hnot
  obtain ⟨hno, hne⟩ := not_or.mp hnot
  have hzero : s'.reminders.countP (Reminder.isFor t' d') = 0 := by
    rw [h.countP, not_reminded_iff.mpr hno, if_neg hne]
  exact not_reminded_iff.mp hzero hr

/-- A step that leaves the tables alone. -/
theorem NoneTwice.untouched {s₀ s s' : SchedulerState} {t : String} {d : Nat} {name : String}
    {ms ms' : List SchedulerMode} (h : NoneTwice s₀ t d name ms s) (same : Untouched s s')
    (hins : 0 < ms'.countP (isInserting t d) → ¬ Reminded s t d)
    (hadd : ms'.countP (isAdding t d) ≤ ms.countP (isAdding t d)) :
    NoneTwice s₀ t d name ms' s' := by
  have hrows : s'.reminders.countP (Reminder.isFor t d)
      = s.reminders.countP (Reminder.isFor t d) := by rw [same.reminders]
  refine ⟨h.grown.trans same.grown, ?_, ?_, ?_, ?_⟩
  · rw [same.reminded]
    exact hins
  · rw [hrows]
    exact h.rows_ge
  · rw [hrows]
    exact h.rows_le
  · rw [hrows, same.jobsFor]
    have := h.jobs
    omega

/-- The insert of a row, by a run that no other run competes with. -/
theorem NoneTwice.inserted {s₀ s s' : SchedulerState} {t : String} {d : Nat} {name : String}
    {ms ms' : List SchedulerMode} (h : NoneTwice s₀ t d name ms s) {ω : Tick} {t' : String}
    {d' : Nat} (row : Inserted ω t' d' s s') (hone : ms.countP (isInserting t d) ≤ 1)
    (hins : ms'.countP (isInserting t d) + (if t' = t ∧ d' = d then 1 else 0)
      = ms.countP (isInserting t d))
    (hadd : ms'.countP (isAdding t d)
      ≤ ms.countP (isAdding t d) + if t' = t ∧ d' = d then 1 else 0) :
    NoneTwice s₀ t d name ms' s' := by
  have hrows := row.countP t d
  have hjobs : jobsFor s' t d name = jobsFor s t d name := by
    show s'.jobs.countP _ = _
    rw [row.jobs]
    rfl
  have hge := h.rows_ge
  have hle := h.rows_le
  have hbudget := h.jobs
  refine ⟨h.grown.trans row.grown, ?_, ?_, ?_, ?_⟩
  · intro hpos hr
    by_cases hkey : t' = t ∧ d' = d
    · -- the only run at this key has just left the mode
      rw [if_pos hkey] at hins
      omega
    · rw [if_neg hkey] at hins
      rcases row.reminded hr with hr | hkey'
      · exact h.unreminded (by omega) hr
      · exact hkey hkey'
  · omega
  · by_cases hkey : t' = t ∧ d' = d
    · rw [if_pos hkey] at hins hrows
      have hzero := not_reminded_iff.mpr (h.unreminded (by omega))
      omega
    · rw [if_neg hkey] at hrows
      omega
  · rw [hjobs]
    omega

/-- The acceptance of a job. -/
theorem NoneTwice.added {s₀ s s' : SchedulerState} {t : String} {d : Nat} {name : String}
    {ms ms' : List SchedulerMode} (h : NoneTwice s₀ t d name ms s) {job : ReminderJob}
    (hreminders : s'.reminders = s.reminders) (hjobs : s'.jobs = s.jobs ++ [job])
    (hins : ms'.countP (isInserting t d) = ms.countP (isInserting t d))
    (hadd : ms'.countP (isAdding t d) + (if job.taskId = t ∧ job.dueDate = d then 1 else 0)
      = ms.countP (isAdding t d)) : NoneTwice s₀ t d name ms' s' := by
  have hcount : jobsFor s' t d name
      ≤ jobsFor s t d name + if job.taskId = t ∧ job.dueDate = d then 1 else 0 := by
    show s'.jobs.countP _ ≤ s.jobs.countP _ + _
    rw [hjobs, List.countP_append, List.countP_singleton]
    refine Nat.add_le_add_left ?_ _
    -- a job of another key is not counted
    by_cases hkey : job.taskId = t ∧ job.dueDate = d
    · rw [if_pos hkey]
      split <;> omega
    · have hother : ¬ (decide (job.taskId = t) && decide (job.dueDate = d) &&
          decide (job.milestone = name)) = true := by
        intro hfor
        rw [Bool.and_eq_true, Bool.and_eq_true, decide_eq_true_eq, decide_eq_true_eq] at hfor
        exact hkey hfor.1
      exact Nat.le_of_eq (by rw [if_neg hkey, if_neg hother])
  have hbudget := h.jobs
  refine ⟨h.grown.trans ⟨⟨[], ?_⟩, _, hjobs⟩, ?_, ?_, ?_, ?_⟩
  · rw [hreminders, List.append_nil]
  · intro hpos hr
    refine h.unreminded (by omega) ?_
    rw [Reminded, hreminders] at hr
    exact hr
  · rw [hreminders]
    exact h.rows_ge
  · rw [hreminders]
    exact h.rows_le
  · rw [hreminders]
    omega

/-- One step of one run. -/
theorem NoneTwice.step {s₀ s s' : SchedulerState} {t : String} {d : Nat} {name : String}
    {ms : List SchedulerMode} {i : Nat} {ω : Tick} {m m' : SchedulerMode} {op : SchedulerOp}
    (h : NoneTwice s₀ t d name ms s) (hm : ms[i]? = some m)
    (hone : ms.countP (isInserting t d) ≤ 1) (hadv : Advance ω m op s m' s') :
    NoneTwice s₀ t d name (ms.set i m') s' := by
  have hins := countP_set_getElem? hm m' (isInserting t d)
  have hadd := countP_set_getElem? hm m' (isAdding t d)
  cases hadv with
  | look same reads =>
      refine h.untouched same (fun hpos => h.unreminded ?_) ?_
      · omega
      · omega
  | @none t' d' s s' same hnone =>
      simp [isInserting, isAdding] at hins hadd
      refine h.untouched same ?_ (Nat.le_of_eq hadd)
      intro hpos
      by_cases hkey : t' = t ∧ d' = d
      · obtain ⟨rfl, rfl⟩ := hkey
        exact hnone
      · -- the run is after another reminder
        rw [if_neg hkey] at hins
        exact h.unreminded (by omega)
  | insert row answered =>
      simp [isInserting, isAdding] at hins hadd
      exact h.inserted row hone hins (Nat.le_of_eq hadd)
  | insertLost row lost =>
      simp [isInserting, isAdding] at hins hadd
      refine h.inserted row hone hins ?_
      omega
  | insertRefused same refused =>
      simp [isInserting, isAdding] at hins hadd
      refine h.untouched same (fun hpos => h.unreminded ?_) (Nat.le_of_eq hadd)
      omega
  | add reminders jobs issued accepted =>
      simp [isInserting, isAdding] at hins hadd
      exact h.added reminders jobs hins hadd
  | addRefused same refused =>
      simp [isInserting, isAdding] at hins hadd
      refine h.untouched same (fun hpos => h.unreminded ?_) ?_
      · omega
      · omega

/-! ## Runs -/

/-- **None twice.**  From any tables, whatever fails and however any number of runs
    overlap, as long as no step is taken while two of them wait for the insert of a
    reminder for one task and due date: for every task, due date and milestone at most
    one row is inserted and at most one job is added. -/
theorem no_duplicate_reminders (order : DueOrder)
    (c : Pool SchedulerOp SchedulerOp.Res HttpError Unit SchedulerState)
    (hc : ∀ p ∈ c.calls, p = checkDueTasks) (l : List (Nat × Tick))
    (hl : Meets (exec order) (fun c _ => Apart c) c l) (t : String) (d : Nat)
    (name : String) :
    ∃ rows jobs,
      (run (exec order) c l).shared.reminders = c.shared.reminders ++ rows ∧
      (run (exec order) c l).shared.jobs = c.shared.jobs ++ jobs ∧
      rows.countP (Reminder.isFor t d) ≤ 1 ∧
      jobs.countP (fun j => j.taskId = t && j.dueDate = d && j.milestone = name) ≤ 1 := by
  have hms : Tracks schedulerProtocol (List.replicate c.calls.length .idle) c.calls := by
    refine tracks_replicate ?_
    intro p hp
    rw [hc p hp]
    exact checkDueTasks_conforms
  have hstart : NoneTwice c.shared t d name (List.replicate c.calls.length .idle)
      c.shared := by
    have hins : (List.replicate c.calls.length SchedulerMode.idle).countP (isInserting t d)
        = 0 := by simp [List.countP_replicate, isInserting]
    have hadd : (List.replicate c.calls.length SchedulerMode.idle).countP (isAdding t d)
        = 0 := by simp [List.countP_replicate, isAdding]
    refine ⟨⟨⟨[], by simp⟩, [], by simp⟩, ?_, Nat.le_refl _, Nat.le_succ _, ?_⟩
    · intro hpos
      omega
    · omega
  obtain ⟨ms, -, hend⟩ := hms.run (fun c ms i ω op k m hms hD hi hm hallows h =>
    h.step hm (inserting_le_one hms hD t d) (advances order ω c.shared hallows)) hl hstart
  obtain ⟨⟨⟨rows, hrows⟩, jobs, hjobs⟩, -, hge, hle, hbudget⟩ := hend
  refine ⟨rows, jobs, hrows, hjobs, ?_, ?_⟩
  · rw [hrows, List.countP_append] at hle
    omega
  · have hcount : jobsFor (run (exec order) c l).shared t d name
        = jobsFor c.shared t d name
          + jobs.countP (fun j => j.taskId = t && j.dueDate = d && j.milestone = name) := by
      show (run (exec order) c l).shared.jobs.countP _ = _
      rw [hjobs, List.countP_append]
      rfl
    omega

/-- Two instances of the application, one task a day ahead. -/
def twoInstances : Pool SchedulerOp SchedulerOp.Res HttpError Unit SchedulerState :=
  ⟨dayAhead, [checkDueTasks, checkDueTasks]⟩

/-- Some steps of the runs named, each with an id of its own. -/
def turns (order : List Nat) : List (Nat × Tick) := order.zipIdx.map fun (i, n) => (i, calm n)

theorem one_after_the_other :
    ∃ rows jobs,
      (run (exec stored) twoInstances
          (turns (List.replicate 7 0 ++ List.replicate 5 1))).shared.reminders
        = dayAhead.reminders ++ rows ∧
      (run (exec stored) twoInstances
          (turns (List.replicate 7 0 ++ List.replicate 5 1))).shared.jobs
        = dayAhead.jobs ++ jobs ∧
      rows.countP (Reminder.isFor "1" (24 * hour)) ≤ 1 ∧
      jobs.countP (fun j => j.taskId = "1" && j.dueDate = 24 * hour &&
        j.milestone = "24 hours") ≤ 1 :=
  no_duplicate_reminders stored twoInstances (by simp [twoInstances]) _ (by decide) _ _ _

/-- Both instances count zero before either inserts: two rows and two jobs, for one task,
    due date and milestone. -/
theorem both_counted_zero :
    let last := (run (exec stored) twoInstances
      (turns (List.replicate 5 0 ++ List.replicate 5 1 ++ [0, 1, 0, 1]))).shared
    dayAhead.reminders = [] ∧ dayAhead.jobs = [] ∧
      last.reminders.countP (Reminder.isFor "1" (24 * hour)) = 2 ∧
      jobsFor last "1" (24 * hour) "24 hours" = 2 := by
  decide

/-- Where two runs wait for the insert of a reminder for one task and due date, two
    steps more insert it twice. -/
theorem both_insert (order : DueOrder)
    {c : Pool SchedulerOp SchedulerOp.Res HttpError Unit SchedulerState} {i j : Nat}
    (hij : j ≠ i) {t : String} {d : Nat}
    {k k' : Except HttpError Reminder → SchedulerProg Unit}
    (hi : c.calls[i]? = some (.await (.saveReminder t d) k))
    (hj : c.calls[j]? = some (.await (.saveReminder t d) k')) {ω ω' : Tick}
    (hω : Insertable ω c.shared t) (hω' : Insertable ω' c.shared t)
    (hnew : ω'.newId ≠ ω.newId) (hfault : ω.fault = none) (hfault' : ω'.fault = none) :
    (run (exec order) c [(i, ω), (j, ω')]).shared.reminders
      = c.shared.reminders ++
        [⟨ω.newId, t, d, .pending⟩, ⟨ω'.newId, t, d, .pending⟩] := by
  have hsave : ∀ (ω : Tick) (s : SchedulerState), ω.fault = none → Insertable ω s t →
      (exec order ω (.saveReminder t d) s).1 = { s.wait ω with
        reminders := s.reminders ++ [⟨ω.newId, t, d, .pending⟩]
        issued := ω.newId :: s.issued } := by
    intro ω s hf hins
    show (write ω (s.wait ω) (insertReminder (s.wait ω) ω.newId t d)).1 = _
    rw [insertReminder_ok hins, write, hf]
  have hj' : (step (exec order) c i ω).calls[j]? = some (.await (.saveReminder t d) k') := by
    rw [step_calls_ne (exec order) c ω hij]
    exact hj
  -- the second insert meets the row of the first, which has another id
  have hsecond : Insertable ω' (exec order ω (.saveReminder t d) c.shared).1 t := by
    rw [hsave ω c.shared hfault hω]
    refine ⟨?_, hω'.2⟩
    intro hmem
    rcases List.mem_cons.mp hmem with heq | hmem
    · exact hnew heq
    · exact hω'.1 hmem
  rw [run_cons, run_cons, run_nil, step_await (exec order) hj']
  show (exec order ω' _ (step (exec order) c i ω).shared).1.reminders = _
  rw [step_await (exec order) hi]
  show (exec order ω' _ (exec order ω _ c.shared).1).1.reminders = _
  rw [hsave ω' _ hfault' hsecond, hsave ω c.shared hfault hω]
  exact List.append_assoc ..

end PlatformReminders
