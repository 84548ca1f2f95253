import TaskPlatform.ReminderProtocol

/-! # Reminders without a job

    The row of a reminder is written before its job is added, and it is the row that
    keeps later runs from reminding again.  A run that is cut off between the two
    leaves a row that waits for ever (`aborted_run_hides_task`); exactly then
    (`pending_reminders_queued_iff`). -/

namespace PlatformReminders

open AsyncProgram PlatformEntities Interleaving

/-- Every reminder that is still to be sent has a job. -/
def Queued (s : SchedulerState) : Prop :=
  ∀ r ∈ s.reminders, r.status = .pending → ∃ j ∈ s.jobs, j.reminderId = r.id

instance (s : SchedulerState) : Decidable (Queued s) :=
  inferInstanceAs (Decidable (∀ r ∈ s.reminders, _ → ∃ j ∈ s.jobs, _))

/-- The step does not cut a reminder off from its job: no row is inserted with the
    answer lost, and no job is refused. -/
def Uncut (ω : Tick) : SchedulerOp → SchedulerState → Prop
  | .saveReminder t _, s => ω.fault = some .lost → ¬ Insertable ω s t
  | .addJob _, _ => ω.fault ≠ some .refused
  | _, _ => True

instance decidableUncut (ω : Tick) :
    ∀ (op : SchedulerOp) (s : SchedulerState), Decidable (Uncut ω op s)
  | .saveReminder t _, s =>
      decidable_of_iff (¬ (ω.fault = some .lost ∧ Insertable ω s t)) not_and
  | .addJob _, _ => decidable_of_iff (¬ ω.fault = some .refused) Iff.rfl
  | .currentTime, _ => isTrue trivial
  | .findDueTasks _ _, _ => isTrue trivial
  | .findSentReminder _, _ => isTrue trivial
  | .countReminders _ _, _ => isTrue trivial

/-! ## Ids -/

/-- The ids in use have been issued. -/
structure Registered (m : SchedulerMode) (s : SchedulerState) : Prop where
  rows : ∀ r ∈ s.reminders, r.id ∈ s.issued
  jobs : ∀ j ∈ s.jobs, j.reminderId ∈ s.issued
  current : ∀ id t d, m = .adding id t d → id ∈ s.issued

theorem Registered.untouched {m m' : SchedulerMode} {s s' : SchedulerState}
    (h : Registered m s) (same : Untouched s s') (hm' : ∀ id t d, m' ≠ .adding id t d) :
    Registered m' s' := by
  refine ⟨?_, ?_, fun id t d heq => absurd heq (hm' id t d)⟩
  · rw [same.reminders, same.issued]
    exact h.rows
  · rw [same.jobs, same.issued]
    exact h.jobs

theorem Registered.inserted {m m' : SchedulerMode} {s s' : SchedulerState} {ω : Tick}
    {t : String} {d : Nat} (h : Registered m s) (row : Inserted ω t d s s')
    (hm' : ∀ id t d, m' = .adding id t d → id = ω.newId) : Registered m' s' := by
  refine ⟨?_, ?_, ?_⟩
  · intro r hr
    rw [row.reminders] at hr
    rw [row.issued]
    rcases List.mem_append.mp hr with hr | hr
    · exact List.mem_cons_of_mem _ (h.rows r hr)
    · rw [List.mem_singleton.mp hr]
      exact List.mem_cons_self ..
  · intro j hj
    rw [row.jobs] at hj
    rw [row.issued]
    exact List.mem_cons_of_mem _ (h.jobs j hj)
  · intro id t d heq
    rw [row.issued, hm' id t d heq]
    exact List.mem_cons_self ..

theorem Registered.step {ω : Tick} {m m' : SchedulerMode} {op : SchedulerOp}
    {s s' : SchedulerState} (h : Registered m s) (hadv : Advance ω m op s m' s') :
    Registered m' s' := by
  cases hadv with
  | look same reads => exact h.untouched same nofun
  | none same hnone => exact h.untouched same nofun
  | insert row answered =>
      refine h.inserted row ?_
      rintro id t d heq
      cases heq
      rfl
  | insertLost row lost => exact h.inserted row nofun
  | insertRefused same refused => exact h.untouched same nofun
  | @add job s s' reminders jobs issued accepted =>
      refine ⟨?_, ?_, nofun⟩
      · rw [reminders, issued]
        exact h.rows
      · intro j hj
        rw [jobs] at hj
        rw [issued]
        rcases List.mem_append.mp hj with hj | hj
        · exact h.jobs j hj
        · rw [List.mem_singleton.mp hj]
          exact h.current _ _ _ rfl
  | addRefused same refused => exact h.untouched same nofun

/-! ## While nothing is cut -/

/-- Every reminder to be sent has a job, or is the one whose job is about to be
    added. -/
structure Accounted (m : SchedulerMode) (s : SchedulerState) : Prop where
  registered : Registered m s
  queued : ∀ r ∈ s.reminders, r.status = .pending →
    (∃ j ∈ s.jobs, j.reminderId = r.id) ∨ ∃ t d, m = .adding r.id t d
  current : ∀ id t d, m = .adding id t d →
    (∃ r ∈ s.reminders, r.id = id ∧ r.status = .pending) ∧
      ∀ j ∈ s.jobs, j.reminderId ≠ id

theorem Accounted.untouched {m m' : SchedulerMode} {s s' : SchedulerState}
    (h : Accounted m s) (same : Untouched s s') (hm : ∀ id t d, m ≠ .adding id t d)
    (hm' : ∀ id t d, m' ≠ .adding id t d) : Accounted m' s' := by
  refine ⟨h.registered.untouched same hm', ?_, fun id t d heq => absurd heq (hm' id t d)⟩
  intro r hr hpending
  rw [same.reminders] at hr
  rw [same.jobs]
  rcases h.queued r hr hpending with hj | ⟨t, d, heq⟩
  · exact Or.inl hj
  · exact absurd heq (hm r.id t d)

theorem Accounted.step {ω : Tick} {m m' : SchedulerMode} {op : SchedulerOp}
    {s s' : SchedulerState} (h : Accounted m s) (hadv : Advance ω m op s m' s')
    (hω : Uncut ω op s) : Accounted m' s' := by
  have hreg := h.registered.step hadv
  cases hadv with
  | look same reads => exact h.untouched same nofun nofun
  | none same hnone => exact h.untouched same nofun nofun
  | @insert t d s s' row answered =>
      refine ⟨hreg, ?_, ?_⟩
      · intro r hr hpending
        rw [row.reminders] at hr
        rcases List.mem_append.mp hr with hr | hr
        · rw [row.jobs]
          rcases h.queued r hr hpending with hj | ⟨t, d, heq⟩
          · exact Or.inl hj
          · cases heq
        · rw [List.mem_singleton.mp hr]
          exact Or.inr ⟨t, d, rfl⟩
      · rintro id t' d' heq
        cases heq
        refine ⟨⟨⟨ω.newId, t, d, .pending⟩, ?_, rfl, rfl⟩, ?_⟩
        · rw [row.reminders]
          exact List.mem_append_right _ (List.mem_cons_self ..)
        · intro j hj heq
          rw [row.jobs] at hj
          have hknown := h.registered.jobs j hj
          rw [heq] at hknown
          exact row.insertable.1 hknown
  | insertLost row lost => exact absurd row.insertable (hω lost)
  | insertRefused same refused => exact h.untouched same nofun nofun
  | @add job s s' reminders jobs issued accepted =>
      refine ⟨hreg, ?_, nofun⟩
      intro r hr hpending
      rw [reminders] at hr
      left
      rw [jobs]
      rcases h.queued r hr hpending with ⟨j, hj, heq⟩ | ⟨t, d, heq⟩
      · exact ⟨j, List.mem_append_left _ hj, heq⟩
      · injection heq with hid
        exact ⟨job, List.mem_append_right _ (List.mem_cons_self ..), hid⟩
  | addRefused same refused => exact absurd refused hω

/-! ## Once something is cut -/

/-- A reminder to be sent has no job and is not about to get one. -/
structure Stranded (m : SchedulerMode) (s : SchedulerState) : Prop where
  registered : Registered m s
  stranded : ∃ r ∈ s.reminders, r.status = .pending ∧
    (∀ j ∈ s.jobs, j.reminderId ≠ r.id) ∧
    ∀ t d, m ≠ .adding r.id t d

theorem Accounted.breach {ω : Tick} {m m' : SchedulerMode} {op : SchedulerOp}
    {s s' : SchedulerState} (h : Accounted m s) (hadv : Advance ω m op s m' s')
    (hω : ¬ Uncut ω op s) : Stranded m' s' := by
  refine ⟨h.registered.step hadv, ?_⟩
  cases hadv with
  | @look op s s' same reads =>
      cases op with
      | saveReminder t d => exact absurd reads not_false
      | addJob job => exact absurd reads not_false
      | currentTime => exact absurd trivial hω
      | findDueTasks min max => exact absurd trivial hω
      | findSentReminder t => exact absurd trivial hω
      | countReminders t d => exact absurd trivial hω
  | none same hnone => exact absurd trivial hω
  | insert row answered =>
      refine absurd ?_ hω
      intro hlost
      rw [answered] at hlost
      cases hlost
  | @insertLost t d s s' row lost =>
      -- the row is stored, and the run does not know its id
      refine ⟨⟨ω.newId, t, d, .pending⟩, ?_, rfl, ?_, nofun⟩
      · rw [row.reminders]
        exact List.mem_append_right _ (List.mem_cons_self ..)
      · intro j hj heq
        rw [row.jobs] at hj
        have hknown := h.registered.jobs j hj
        rw [heq] at hknown
        exact row.insertable.1 hknown
  | insertRefused same refused => exact absurd refused hω
  | add reminders jobs issued accepted => exact absurd accepted hω
  | @addRefused job s s' same refused =>
      -- the row of the job is stored, and no other run will add the job
      obtain ⟨⟨r, hr, hid, hpending⟩, hnone⟩ := h.current _ _ _ rfl
      refine ⟨r, ?_, hpending, ?_, nofun⟩
      · rw [same.reminders]
        exact hr
      · rw [same.jobs, hid]
        exact hnone

theorem Stranded.step {ω : Tick} {m m' : SchedulerMode} {op : SchedulerOp}
    {s s' : SchedulerState} (h : Stranded m s) (hadv : Advance ω m op s m' s') :
    Stranded m' s' := by
  refine ⟨h.registered.step hadv, ?_⟩
  obtain ⟨r, hr, hpending, hnone, hmode⟩ := h.stranded
  have hkept : ∀ {s' : SchedulerState}, Untouched s s' →
      r ∈ s'.reminders ∧ ∀ j ∈ s'.jobs, j.reminderId ≠ r.id := by
    intro s' same
    rw [same.reminders, same.jobs]
    exact ⟨hr, hnone⟩
  have hbeside : ∀ {s' : SchedulerState} {t : String} {d : Nat}, Inserted ω t d s s' →
      r ∈ s'.reminders ∧ ∀ j ∈ s'.jobs, j.reminderId ≠ r.id := by
    intro s' t d row
    rw [row.reminders, row.jobs]
    exact ⟨List.mem_append_left _ hr, hnone⟩
  cases hadv with
  | look same reads => exact ⟨r, (hkept same).1, hpending, (hkept same).2, nofun⟩
  | none same hn => exact ⟨r, (hkept same).1, hpending, (hkept same).2, nofun⟩
  | insert row answered =>
      refine ⟨r, (hbeside row).1, hpending, (hbeside row).2, ?_⟩
      -- the id is new, and that of the stranded row is not
      rintro t d heq
      injection heq with hid
      have hknown := h.registered.rows r hr
      rw [← hid] at hknown
      exact row.insertable.1 hknown
  | insertLost row lost => exact ⟨r, (hbeside row).1, hpending, (hbeside row).2, nofun⟩
  | insertRefused same refused => exact ⟨r, (hkept same).1, hpending, (hkept same).2, nofun⟩
  | @add job s s' reminders jobs issued accepted =>
      refine ⟨r, ?_, hpending, ?_, nofun⟩
      · rw [reminders]
        exact hr
      · intro j hj heq
        rw [jobs] at hj
        rcases List.mem_append.mp hj with hj | hj
        · exact hnone j hj heq
        · rw [List.mem_singleton.mp hj] at heq
          apply hmode job.taskId job.dueDate
          rw [heq]
  | addRefused same refused => exact ⟨r, (hkept same).1, hpending, (hkept same).2, nofun⟩

/-! ## Runs one after another -/

/-- What happens to the state between two runs: tasks change, reminders go with their
    tasks or have been sent or have failed, time passes. -/
structure Between (s s' : SchedulerState) : Prop where
  reminders : ∀ r' ∈ s'.reminders, ∃ r ∈ s.reminders,
    r'.id = r.id ∧ (r'.status = .pending → r.status = .pending)
  jobs : s'.jobs = s.jobs
  issued : s'.issued = s.issued

/-- A run of `checkDueTasks`, with what comes before it and what it meets. -/
structure Round where
  before : SchedulerState → SchedulerState
  between : ∀ s, Between s (before s)
  world : Nat → Tick

/-- A run of the scheduler, after what happened before it. -/
def Round.run (order : DueOrder) (r : Round) (s : SchedulerState) : SchedulerState :=
  (solo (exec order) r.world checkDueTasks (r.before s)).1

/-- The state after some rounds. -/
def afterRounds (order : DueOrder) : List Round → SchedulerState → SchedulerState
  | [], s => s
  | r :: rest, s => afterRounds order rest (r.run order s)

/-- Every reminder to be sent has a job, and all ids in use have been issued; empty
    tables, for one. -/
structure Consistent (s : SchedulerState) : Prop where
  rows : ∀ r ∈ s.reminders, r.id ∈ s.issued
  jobs : ∀ j ∈ s.jobs, j.reminderId ∈ s.issued
  queued : Queued s

theorem consistent_iff {s : SchedulerState} : Consistent s ↔ Accounted .idle s := by
  constructor
  · intro h
    exact ⟨⟨h.rows, h.jobs, nofun⟩, fun r hr hp => Or.inl (h.queued r hr hp), nofun⟩
  · intro h
    refine ⟨h.registered.rows, h.registered.jobs, ?_⟩
    intro r hr hpending
    rcases h.queued r hr hpending with hj | ⟨t, d, heq⟩
    · exact hj
    · cases heq

theorem Between.consistent {s s' : SchedulerState} (h : Between s s') (hs : Consistent s) :
    Consistent s' := by
  refine ⟨?_, ?_, ?_⟩
  · intro r' hr'
    obtain ⟨r, hr, hid, -⟩ := h.reminders r' hr'
    rw [h.issued, hid]
    exact hs.rows r hr
  · rw [h.jobs, h.issued]
    exact hs.jobs
  · intro r' hr' hpending
    obtain ⟨r, hr, hid, hback⟩ := h.reminders r' hr'
    rw [h.jobs, hid]
    exact hs.queued r hr (hback hpending)

/-- One run: all is accounted for afterwards, unless something was cut. -/
theorem run_queued_iff (order : DueOrder) {s : SchedulerState} (hs : Consistent s)
    (ω : Nat → Tick) :
    (Along (exec order) Uncut ω checkDueTasks s →
      Consistent (solo (exec order) ω checkDueTasks s).1) ∧
    (¬ Along (exec order) Uncut ω checkDueTasks s →
      ¬ Queued (solo (exec order) ω checkDueTasks s).1) := by
  constructor
  · intro hω
    obtain ⟨m, hm, hend⟩ := checkDueTasks_conforms.keeps
      (fun m ω op s hallows hC h => Accounted.step h (advances order ω s hallows) hC) hω
      (consistent_iff.mp hs)
    have hidle : m = .idle := hm
    rw [hidle] at hend
    exact consistent_iff.mpr hend
  · intro hω hqueued
    obtain ⟨m, -, hend⟩ := checkDueTasks_conforms.breach
      (fun m ω op s hallows hC h => Accounted.step h (advances order ω s hallows) hC)
      (fun m ω op s hallows hC h => Accounted.breach h (advances order ω s hallows) hC)
      (fun m ω op s hallows h => Stranded.step h (advances order ω s hallows)) hω
      (consistent_iff.mp hs)
    obtain ⟨r, hr, hpending, hnone, -⟩ := hend.stranded
    obtain ⟨j, hj, hid⟩ := hqueued r hr hpending
    exact hnone j hj hid

/-- **When no reminder is lost.**  Over any sequence of runs, with others at work in
    between: after every run each reminder to be sent has a job, exactly when no run
    had an insert carried out whose answer was lost, or a job refused. -/
theorem pending_reminders_queued_iff (order : DueOrder) (rounds : List Round)
    (s : SchedulerState) (hs : Consistent s) :
    (∀ earlier r later, rounds = earlier ++ r :: later →
      Queued (r.run order (afterRounds order earlier s))) ↔
    ∀ earlier r later, rounds = earlier ++ r :: later →
      Along (exec order) Uncut r.world checkDueTasks
        (r.before (afterRounds order earlier s)) := by
  induction rounds generalizing s with
  | nil =>
      constructor
      · intro _ earlier r later heq
        exact absurd heq (by simp)
      · intro _ earlier r later heq
        exact absurd heq (by simp)
  | cons r₀ rest ih =>
      have hbefore := (r₀.between s).consistent hs
      obtain ⟨hgood, hbad⟩ := run_queued_iff order hbefore r₀.world
      constructor
      · intro h
        -- a run that was cut leaves a reminder without a job, for good
        have hfirst : Along (exec order) Uncut r₀.world checkDueTasks (r₀.before s) := by
          by_contra hcut
          exact hbad hcut (h [] r₀ rest rfl)
        have hlater := (ih (r₀.run order s) (hgood hfirst)).mp fun earlier r later heq =>
          h (r₀ :: earlier) r later (by rw [heq]; rfl)
        intro earlier r later heq
        cases earlier with
        | nil =>
            cases heq
            exact hfirst
        | cons r₁ earlier =>
            injection heq with h₁ h₂
            subst h₁
            exact hlater earlier r later h₂
      · intro h
        have hfirst := h [] r₀ rest rfl
        have hafter : Consistent (r₀.run order s) := hgood hfirst
        have hlater := (ih (r₀.run order s) hafter).mpr fun earlier r later heq =>
          h (r₀ :: earlier) r later (by rw [heq]; rfl)
        intro earlier r later heq
        cases earlier with
        | nil =>
            cases heq
            exact hafter.queued
        | cons r₁ earlier =>
            injection heq with h₁ h₂
            subst h₁
            exact hlater earlier r later h₂

/-- A run that nobody precedes. -/
def undisturbed (world : Nat → Tick) : Round where
  before := fun s => s
  between := fun _ => ⟨fun r hr => ⟨r, hr, rfl, fun h => h⟩, rfl, rfl⟩
  world := world

theorem dayAhead_consistent : Consistent dayAhead :=
  ⟨fun _ hr => absurd hr List.not_mem_nil, fun _ hj => absurd hj List.not_mem_nil,
    fun _ hr => absurd hr List.not_mem_nil⟩

/-- One operation is refused. -/
def failingAt (failing n : Nat) : Tick :=
  { newId := toString n, fault := if n = failing then some .refused else none }

/-- A run that fails to add its job leaves a row without one, and only then. -/
theorem calm_run_queued :
    Queued ((undisturbed calm).run stored dayAhead) ∧
      ¬ ∀ earlier r later, [undisturbed (failingAt 6)] = earlier ++ r :: later →
        Queued (r.run stored (afterRounds stored earlier dayAhead)) := by
  constructor
  · refine (pending_reminders_queued_iff stored [undisturbed calm] dayAhead
      dayAhead_consistent).mpr ?_ [] (undisturbed calm) [] rfl
    intro earlier r later hrounds
    cases earlier with
    | nil =>
        obtain ⟨rfl, -⟩ := List.cons.inj hrounds
        decide
    | cons first rest => exact absurd (congrArg List.length hrounds) (by simp)
  · intro hqueued
    have huncut := (pending_reminders_queued_iff stored [undisturbed (failingAt 6)] dayAhead
      dayAhead_consistent).mp hqueued [] (undisturbed (failingAt 6)) [] rfl
    exact absurd huncut (by decide)

/-- The first run inserts the row, fails to add the job and is aborted; the second, with
    everything back, finds the row and does nothing. -/
theorem aborted_run_hides_task :
    let first := undisturbed (failingAt 6)
    let second := undisturbed fun n => calm (n + 100)
    let last := afterRounds stored [first, second] dayAhead
    ¬ Queued (first.run stored dayAhead) ∧ ¬ Queued last ∧
      last.reminders = [⟨"5", "1", 24 * hour, .pending⟩] ∧ last.jobs = [] := by
  decide

end PlatformReminders
