import TaskPlatform.ReminderScheduler

/-! # Which milestones are served

    A run without failures at one time.  For each milestone it reminds of the tasks in
    the window of the milestone, unless a reminder row is there for the task and its
    due date; the row does not say for which milestone it was written, so the first
    milestone of a due date is the only one (`AfterMilestone`). -/

namespace PlatformReminders

open AsyncProgram PlatformEntities

/-! ## Reminders and jobs of a task and a due date -/

/-- A reminder row is there for the task and the due date. -/
def Reminded (s : SchedulerState) (taskId : String) (dueDate : Nat) : Prop :=
  ∃ r ∈ s.reminders, r.isFor taskId dueDate = true

instance (s : SchedulerState) (taskId : String) (dueDate : Nat) :
    Decidable (Reminded s taskId dueDate) :=
  inferInstanceAs (Decidable (∃ r ∈ s.reminders, r.isFor taskId dueDate = true))

/-- The jobs that have ever been added for a task, a due date and a milestone. -/
def jobsFor (s : SchedulerState) (taskId : String) (dueDate : Nat) (name : String) : Nat :=
  s.jobs.countP fun j => j.taskId = taskId && j.dueDate = dueDate && j.milestone = name

/-- The task is due in the window of the milestone, and in need of a reminder. -/
def DueFor (s : SchedulerState) (m : Milestone) (taskId : String) (dueDate : Nat) : Prop :=
  ∃ t ∈ s.tasks, t.id = taskId ∧ t.dueDate = some dueDate ∧ t.assignedTo ≠ none ∧
    t.status ≠ .done ∧ t.deletedAt = none ∧
    s.now + (m.hours - 1) * hour ≤ dueDate ∧ dueDate ≤ s.now + m.hours * hour

/-- No operation fails, and no time passes. -/
def Smooth (ω : Tick) (op : SchedulerOp) (s : SchedulerState) : Prop :=
  ω.fault = none ∧ ω.elapsed = 0 ∧
    match op with
    | .saveReminder _ _ => ω.newId ∉ s.issued
    | _ => True

instance (ω : Tick) (op : SchedulerOp) (s : SchedulerState) : Decidable (Smooth ω op s) := by
  unfold Smooth
  cases op <;> infer_instance

/-! ## The effect of a run -/

/-- What serving some tasks for a milestone does to the reminders and the jobs. -/
structure Serves (m : Milestone) (keys : String → Nat → Prop) (s s' : SchedulerState) :
    Prop where
  tasks : s'.tasks = s.tasks
  now : s'.now = s.now
  reminded : ∀ t d, Reminded s' t d ↔ Reminded s t d ∨ keys t d
  jobs : ∀ t d name, jobsFor s' t d name = jobsFor s t d name +
    if ¬ Reminded s t d ∧ Reminded s' t d ∧ name = m.name then 1 else 0

theorem Serves.nothing (m : Milestone) (s : SchedulerState) :
    Serves m (fun _ _ => False) s s := by
  refine ⟨rfl, rfl, fun t d => (or_false _).symm ▸ Iff.rfl, ?_⟩
  intro t d name
  have hnot : ¬ (¬ Reminded s t d ∧ Reminded s t d ∧ name = m.name) := fun h => h.1 h.2.1
  rw [if_neg hnot]
  rfl

/-- One after the other. -/
theorem Serves.trans {m : Milestone} {keys keys' : String → Nat → Prop}
    {s s₁ s₂ : SchedulerState} (h : Serves m keys s s₁) (h' : Serves m keys' s₁ s₂) :
    Serves m (fun t d => keys t d ∨ keys' t d) s s₂ := by
  refine ⟨h'.tasks.trans h.tasks, h'.now.trans h.now, ?_, ?_⟩
  · intro t d
    rw [h'.reminded, h.reminded, or_assoc]
  · intro t d name
    rw [h'.jobs, h.jobs, Nat.add_assoc]
    congr 1
    by_cases h₀ : Reminded s t d
    · have h₁ : Reminded s₁ t d := (h.reminded t d).mpr (Or.inl h₀)
      simp [h₀, h₁]
    · by_cases h₁ : Reminded s₁ t d
      · have h₂ : Reminded s₂ t d := (h'.reminded t d).mpr (Or.inl h₁)
        simp [h₀, h₁, h₂]
      · simp [h₀, h₁]

theorem Serves.congr {m : Milestone} {keys keys' : String → Nat → Prop}
    {s s' : SchedulerState} (h : Serves m keys s s') (hk : ∀ t d, keys t d ↔ keys' t d) :
    Serves m keys' s s' := by
  have heq : keys = keys' := by
    funext t d
    exact propext (hk t d)
  rw [← heq]
  exact h

section Run

variable {order : DueOrder}

/-- The run returns, with the state as described. -/
abbrev Runs (order : DueOrder) (p : SchedulerProg Unit) (s : SchedulerState)
    (R : SchedulerState → Prop) : Prop :=
  EnsuresWhen (exec order) Smooth (fun out s' => out = .ok () ∧ R s') p s

theorem Runs.bind {p q : SchedulerProg Unit} {s : SchedulerState}
    {R R' : SchedulerState → Prop} (hp : Runs order p s R)
    (hq : ∀ s', R s' → Runs order q s' R') : Runs order (p >>= fun _ => q) s R' := by
  refine EnsuresWhen.bind (hp.mono ?_)
  rintro (e | a) s' ⟨hout, hR⟩
  · cases hout
  · exact hq s' hR

/-- A tick without time and failure leaves the state alone while it is awaited. -/
theorem Smooth.wait {ω : Tick} {op : SchedulerOp} {s : SchedulerState}
    (h : Smooth ω op s) : s.wait ω = s := by
  show { s with now := s.now + ω.elapsed } = s
  rw [h.2.1]
  rfl

theorem Smooth.read {α : Type} {ω : Tick} {op : SchedulerOp} {s : SchedulerState}
    (h : Smooth ω op s) (a : α) : read ω a = .ok a := by
  unfold PlatformReminders.read
  rw [h.1]

theorem Smooth.write {α : Type} {ω : Tick} {op : SchedulerOp} {s s₀ s' : SchedulerState}
    {a : α} (h : Smooth ω op s) : write ω s₀ (.ok (s', a)) = (s', .ok a) := by
  unfold PlatformReminders.write
  rw [h.1]

/-- A reminder row and a job more, for a task that had no reminder. -/
theorem serves_scheduled {m : Milestone} {s : SchedulerState} {t : String} {d : Nat}
    (hnew : ¬ Reminded s t d) (newId user : String) :
    Serves m (fun t' d' => t' = t ∧ d' = d) s
      { s with
        reminders := s.reminders ++ [⟨newId, t, d, .pending⟩]
        issued := newId :: s.issued
        jobs := s.jobs ++ [⟨newId, t, user, m.name, d⟩] } := by
  have hreminded : ∀ t' d', (∃ r ∈ s.reminders ++ [⟨newId, t, d, .pending⟩],
      r.isFor t' d' = true) ↔ Reminded s t' d' ∨ t' = t ∧ d' = d := by
    intro t' d'
    constructor
    · rintro ⟨r, hr, hfor⟩
      rcases List.mem_append.mp hr with hr | hr
      · exact Or.inl ⟨r, hr, hfor⟩
      · rw [List.mem_singleton.mp hr, Reminder.isFor, Bool.and_eq_true, decide_eq_true_eq,
          decide_eq_true_eq] at hfor
        exact Or.inr ⟨hfor.1.symm, hfor.2.symm⟩
    · rintro (⟨r, hr, hfor⟩ | ⟨rfl, rfl⟩)
      · exact ⟨r, List.mem_append_left _ hr, hfor⟩
      · exact ⟨_, List.mem_append_right _ (List.mem_cons_self ..), by simp [Reminder.isFor]⟩
  refine ⟨rfl, rfl, hreminded, ?_⟩
  intro t' d' name
  show (s.jobs ++ [_]).countP _ = s.jobs.countP _ + _
  rw [List.countP_append, List.countP_singleton]
  congr 1
  -- only the task and date of the new job are counted once more
  by_cases hkey : t' = t ∧ d' = d
  · obtain ⟨rfl, rfl⟩ := hkey
    have hthere := (hreminded t' d').mpr (Or.inr ⟨rfl, rfl⟩)
    by_cases hname : name = m.name
    · rw [if_pos (by simp [hname]), if_pos ⟨hnew, hthere, hname⟩]
    · rw [if_neg (by simp [Ne.symm hname]), if_neg fun h => hname h.2.2]
  · rw [if_neg, if_neg]
    · rintro ⟨hn, h, -⟩
      rcases (hreminded t' d').mp h with h | h
      · exact hn h
      · exact hkey h
    · intro h
      rw [Bool.and_eq_true, Bool.and_eq_true, decide_eq_true_eq, decide_eq_true_eq] at h
      exact hkey ⟨h.1.1.symm, h.1.2.symm⟩

theorem scheduleReminder_runs {m : Milestone} {task : DueTask} {s : SchedulerState}
    (hstored : ∃ t ∈ s.tasks, t.id = task.id) (hnew : ¬ Reminded s task.id task.dueDate) :
    Runs order (scheduleReminder m task) s
      (Serves m (fun t d => t = task.id ∧ d = task.dueDate) s) := by
  obtain ⟨t₀, ht₀, hid⟩ := hstored
  have hfk : (s.tasks.any fun t => t.id = task.id) = true :=
    List.any_eq_true.mpr ⟨t₀, ht₀, decide_eq_true hid⟩
  intro ω₁ hω₁
  have hinsert : exec order ω₁ (.saveReminder task.id task.dueDate) s
      = ({ s with
            reminders := s.reminders ++ [⟨ω₁.newId, task.id, task.dueDate, .pending⟩]
            issued := ω₁.newId :: s.issued },
          .ok ⟨ω₁.newId, task.id, task.dueDate, .pending⟩) := by
    show write ω₁ (s.wait ω₁)
      (insertReminder (s.wait ω₁) ω₁.newId task.id task.dueDate) = _
    rw [hω₁.wait, insertReminder, if_pos ⟨hω₁.2.2, hfk⟩]
    exact hω₁.write
  rw [hinsert]
  intro ω₂ hω₂
  have hadd : ∀ (s₁ : SchedulerState) (job : ReminderJob), Smooth ω₂ (.addJob job) s₁ →
      exec order ω₂ (.addJob job) s₁ = ({ s₁ with jobs := s₁.jobs ++ [job] }, .ok ()) := by
    intro s₁ job h
    show write ω₂ (s₁.wait ω₂)
      (.ok ({ s₁.wait ω₂ with jobs := s₁.jobs ++ [job] }, ())) = _
    rw [h.wait]
    exact h.write
  rw [hadd _ _ hω₂]
  exact ⟨rfl, serves_scheduled hnew ω₁.newId task.assignedTo⟩

theorem checkTask_runs {m : Milestone} {task : DueTask} {s : SchedulerState}
    (hstored : ∃ t ∈ s.tasks, t.id = task.id) :
    Runs order (checkTask m task) s
      (Serves m (fun t d => t = task.id ∧ d = task.dueDate) s) := by
  intro ω₁ hω₁
  have hread : exec order ω₁ (.findSentReminder task.id) s = (s, .ok (s.reminders.find?
      fun r => r.taskId = task.id && r.status = .sent)) := by
    show (s.wait ω₁, read ω₁ _) = _
    rw [hω₁.wait, hω₁.read]
  rw [hread]
  intro ω₂ hω₂
  have hcount : exec order ω₂ (.countReminders task.id task.dueDate) s
      = (s, .ok (s.reminders.countP (Reminder.isFor task.id task.dueDate))) := by
    show (s.wait ω₂, read ω₂ _) = _
    rw [hω₂.wait, hω₂.read]
  rw [hcount]
  show Runs order (if s.reminders.countP (Reminder.isFor task.id task.dueDate) = 0 then _
    else _) s _
  -- the count decides, whatever the look-up of sent reminders found
  by_cases hzero : s.reminders.countP (Reminder.isFor task.id task.dueDate) = 0
  · rw [if_pos hzero]
    refine scheduleReminder_runs hstored ?_
    rintro ⟨r, hr, hfor⟩
    exact List.countP_eq_zero.mp hzero r hr hfor
  · rw [if_neg hzero]
    have hthere : Reminded s task.id task.dueDate := by
      by_contra hnot
      exact hzero (List.countP_eq_zero.mpr fun r hr hfor => hnot ⟨r, hr, hfor⟩)
    refine ⟨rfl, rfl, rfl, ?_, ?_⟩
    · intro t d
      constructor
      · exact Or.inl
      · rintro (h | ⟨rfl, rfl⟩)
        · exact h
        · exact hthere
    · intro t d name
      exact ((Serves.nothing m s).jobs t d name)

theorem checkTasks_runs {m : Milestone} {tasks : List DueTask} {s : SchedulerState}
    (hstored : ∀ task ∈ tasks, ∃ t ∈ s.tasks, t.id = task.id) :
    Runs order (checkTasks m tasks) s
      (Serves m (fun t d => ∃ task ∈ tasks, t = task.id ∧ d = task.dueDate) s) := by
  induction tasks generalizing s with
  | nil =>
      refine ⟨rfl, (Serves.nothing m s).congr ?_⟩
      intro t d
      simp
  | cons task rest ih =>
      refine Runs.bind (checkTask_runs (hstored task (List.mem_cons_self ..))) ?_
      intro s₁ h₁
      have hrest : ∀ task ∈ rest, ∃ t ∈ s₁.tasks, t.id = task.id := by
        rw [h₁.tasks]
        exact fun task ht => hstored task (List.mem_cons_of_mem _ ht)
      refine (ih hrest).mono ?_
      rintro out s₂ ⟨hout, h₂⟩
      refine ⟨hout, (h₁.trans h₂).congr ?_⟩
      intro t d
      simp

/-! ## Milestones -/

theorem selectDue_some {min max : Nat} {t : Task} {task : DueTask} :
    selectDue min max t = some task ↔
      t.id = task.id ∧ t.dueDate = some task.dueDate ∧ t.assignedTo = some task.assignedTo ∧
        min ≤ task.dueDate ∧ task.dueDate ≤ max ∧ t.status ≠ .done ∧
          t.deletedAt = none := by
  obtain ⟨id, user, due⟩ := task
  unfold selectDue
  cases hd : t.dueDate with
  | none =>
      constructor
      · intro h
        cases h
      · rintro ⟨-, h, -⟩
        cases h
  | some d =>
      cases hu : t.assignedTo with
      | none =>
          constructor
          · intro h
            cases h
          · rintro ⟨-, -, h, -⟩
            cases h
      | some u =>
          show (if min ≤ d ∧ d ≤ max ∧ t.status ≠ .done ∧ t.deletedAt = none then _
            else none) = _ ↔ _
          by_cases hc : min ≤ d ∧ d ≤ max ∧ t.status ≠ .done ∧ t.deletedAt = none
          · rw [if_pos hc]
            constructor
            · intro h
              cases h
              exact ⟨rfl, rfl, rfl, hc⟩
            · rintro ⟨rfl, hd', hu', -⟩
              cases hd'
              cases hu'
              rfl
          · rw [if_neg hc]
            constructor
            · intro h
              cases h
            · rintro ⟨-, hd', -, hc'⟩
              cases hd'
              exact absurd hc' hc

theorem checkMilestone_runs {m : Milestone} {s : SchedulerState} :
    Runs order (checkMilestone m) s (Serves m (DueFor s m) s) := by
  intro ω₁ hω₁
  have hclock : ∀ ω, Smooth ω .currentTime s → exec order ω .currentTime s = (s, s.now) := by
    intro ω hω
    show (s.wait ω, s.now + ω.elapsed) = _
    rw [hω.wait, hω.2.1]
    rfl
  rw [hclock ω₁ hω₁]
  intro ω₂ hω₂
  rw [hclock ω₂ hω₂]
  intro ω₃ hω₃
  let found := order.arrange (s.tasks.filterMap
    (selectDue (s.now + (m.hours - 1) * hour) (s.now + m.hours * hour)))
  have hfind : exec order ω₃ (.findDueTasks (s.now + (m.hours - 1) * hour)
      (s.now + m.hours * hour)) s = (s, .ok found) := by
    show (s.wait ω₃, read ω₃ _) = _
    rw [hω₃.wait, hω₃.read]
  -- the order of the rows is Postgres's, the rows are these
  have hmem : ∀ task, task ∈ found ↔ ∃ t ∈ s.tasks,
      selectDue (s.now + (m.hours - 1) * hour) (s.now + m.hours * hour) t = some task := by
    intro task
    rw [(order.perm _).mem_iff, List.mem_filterMap]
  rw [hfind]
  show Runs order (checkTasks m found) s _
  have hstored : ∀ task ∈ found, ∃ t ∈ s.tasks, t.id = task.id := by
    intro task htask
    obtain ⟨t, ht, hsel⟩ := (hmem task).mp htask
    exact ⟨t, ht, (selectDue_some.mp hsel).1⟩
  refine (checkTasks_runs hstored).mono ?_
  rintro out s' ⟨hout, hserves⟩
  refine ⟨hout, hserves.congr ?_⟩
  intro t d
  constructor
  · rintro ⟨task, htask, rfl, rfl⟩
    obtain ⟨t, ht, hsel⟩ := (hmem task).mp htask
    obtain ⟨hid, hdue, huser, hmin, hmax, hopen, hlive⟩ := selectDue_some.mp hsel
    exact ⟨t, ht, hid, hdue, by simp [huser], hopen, hlive, hmin, hmax⟩
  · rintro ⟨t, ht, rfl, hdue, huser, hopen, hlive, hmin, hmax⟩
    obtain ⟨user, huser⟩ := Option.ne_none_iff_exists'.mp huser
    exact ⟨⟨t.id, user, d⟩, (hmem _).mpr ⟨t, ht, selectDue_some.mpr
      ⟨rfl, hdue, huser, hmin, hmax, hopen, hlive⟩⟩, rfl, rfl⟩

/-- One milestone after the other. -/
inductive ServesAll : List Milestone → SchedulerState → SchedulerState → Prop where
  | nil (s : SchedulerState) : ServesAll [] s s
  | cons {m : Milestone} {ms : List Milestone} {s s₁ s₂ : SchedulerState}
      (first : Serves m (DueFor s m) s s₁) (rest : ServesAll ms s₁ s₂) :
      ServesAll (m :: ms) s s₂

theorem checkMilestones_runs {ms : List Milestone} {s : SchedulerState} :
    Runs order (checkMilestones ms) s (ServesAll ms s) := by
  induction ms generalizing s with
  | nil => exact ⟨rfl, .nil s⟩
  | cons m ms ih =>
      refine Runs.bind checkMilestone_runs ?_
      intro s₁ h₁
      refine ih.mono ?_
      rintro out s₂ ⟨hout, h₂⟩
      exact ⟨hout, .cons h₁ h₂⟩

theorem DueFor.congr {s s' : SchedulerState} (ht : s'.tasks = s.tasks) (hn : s'.now = s.now)
    (m : Milestone) (t : String) (d : Nat) : DueFor s' m t d ↔ DueFor s m t d := by
  unfold DueFor
  rw [ht, hn]

/-- Where a reminder is, no milestone adds anything. -/
theorem ServesAll.reminded {ms : List Milestone} {s s' : SchedulerState}
    (h : ServesAll ms s s') {t : String} {d : Nat} (hr : Reminded s t d) (name : String) :
    jobsFor s' t d name = jobsFor s t d name := by
  induction h with
  | nil s => rfl
  | cons first rest ih =>
      rw [ih ((first.reminded t d).mpr (Or.inl hr)), first.jobs, if_neg fun h => h.1 hr]
      rfl

/-- The task and due date of one milestone's window, and of no other's. -/
theorem ServesAll.jobs {ms : List Milestone} {s s' : SchedulerState} (h : ServesAll ms s s')
    {m : Milestone} (hm : m ∈ ms) {t : String} {d : Nat} (hdue : DueFor s m t d)
    (hother : ∀ m' ∈ ms, DueFor s m' t d → m' = m) :
    jobsFor s' t d m.name = jobsFor s t d m.name + if Reminded s t d then 0 else 1 := by
  induction h with
  | nil s => exact absurd hm List.not_mem_nil
  | @cons m₀ ms s s₁ s₂ first rest ih =>
      by_cases hm₀ : m₀ = m
      · subst hm₀
        have hthere : Reminded s₁ t d := (first.reminded t d).mpr (Or.inr hdue)
        rw [rest.reminded hthere, first.jobs]
        by_cases hr : Reminded s t d
        · rw [if_pos hr, if_neg fun h => h.1 hr]
        · rw [if_neg hr, if_pos ⟨hr, hthere, rfl⟩]
      · -- not in this window, so nothing happens to it
        have hnot : ¬ DueFor s m₀ t d := fun h => hm₀ (hother m₀ (List.mem_cons_self ..) h)
        have hsame : Reminded s₁ t d ↔ Reminded s t d := by
          rw [first.reminded]
          exact or_iff_left hnot
        have hin : m ∈ ms := by
          rcases List.mem_cons.mp hm with heq | hin
          · exact absurd heq.symm hm₀
          · exact hin
        have hcongr := DueFor.congr first.tasks first.now
        rw [ih hin ((hcongr m t d).mpr hdue) fun m' hm' h =>
          hother m' (List.mem_cons_of_mem _ hm') ((hcongr m' t d).mp h)]
        rw [first.jobs, if_neg fun h => h.1 (hsame.mp h.2.1), Nat.add_zero]
        simp only [hsame]

end Run

/-- The windows of the milestones are apart. -/
theorem milestone_unique {s : SchedulerState} {m m' : Milestone} (hm : m ∈ milestones)
    (hm' : m' ∈ milestones) {t : String} {d : Nat} (h : DueFor s m t d)
    (h' : DueFor s m' t d) : m' = m := by
  obtain ⟨-, -, -, -, -, -, -, hmin, hmax⟩ := h
  obtain ⟨-, -, -, -, -, -, -, hmin', hmax'⟩ := h'
  have hhours : m'.hours = m.hours := by
    have hcases : ∀ x ∈ milestones, x.hours = 24 ∨ x.hours = 12 ∨ x.hours = 6 ∨
      x.hours = 1 := by
      decide
    have h₁ := hcases m hm
    have h₂ := hcases m' hm'
    unfold hour at hmin hmax hmin' hmax'
    omega
  have hinj : ∀ x ∈ milestones, ∀ y ∈ milestones, x.hours = y.hours → x = y := by decide
  exact hinj m' hm' m hm hhours

/-- **When every milestone is served.**  Over any tables and any history of jobs, a run
    without failures at one time leaves exactly one job for every milestone and every
    task due in its window, exactly when before the run there was one where a reminder
    row for the task and its due date stands, and none where no row does. -/
theorem milestones_served_iff (order : DueOrder) (s : SchedulerState) (ω : Nat → Tick)
    (hω : Along (exec order) Smooth ω checkDueTasks s) :
    (∀ m ∈ milestones, ∀ t d, DueFor s m t d →
        jobsFor (solo (exec order) ω checkDueTasks s).1 t d m.name = 1) ↔
      ∀ m ∈ milestones, ∀ t d, DueFor s m t d →
        jobsFor s t d m.name = if Reminded s t d then 1 else 0 := by
  have hrun : Runs order checkDueTasks s (ServesAll milestones s) := checkMilestones_runs
  have hall := (hrun.solo hω).2
  have hjobs : ∀ m ∈ milestones, ∀ t d, DueFor s m t d →
      jobsFor (solo (exec order) ω checkDueTasks s).1 t d m.name
        = jobsFor s t d m.name + if Reminded s t d then 0 else 1 :=
    fun m hm t d hdue => hall.jobs hm hdue fun m' hm' h => milestone_unique hm hm' hdue h
  constructor
  · intro h m hm t d hdue
    have hone := h m hm t d hdue
    rw [hjobs m hm t d hdue] at hone
    by_cases hr : Reminded s t d
    · rw [if_pos hr] at hone ⊢
      exact hone
    · rw [if_neg hr] at hone ⊢
      omega
  · intro h m hm t d hdue
    rw [hjobs m hm t d hdue, h m hm t d hdue]
    by_cases hr : Reminded s t d
    · rw [if_pos hr, if_pos hr]
    · rw [if_neg hr, if_neg hr]

/-! ## A task a day ahead -/

/-- One assigned task, due in 24 hours; nothing reminded yet. -/
def dayAhead : SchedulerState where
  tasks := [{
    id := "1", workspaceId := "w", projectId := "p", parentTaskId := none, title := "Plan",
    description := none, status := .todo, priority := .medium, assignedTo := some "a",
    dueDate := some (24 * hour), createdBy := "a", completedAt := none, labels := none,
    attachments := none, version := 1, deletedAt := none, createdAt := 0, updatedAt := 0 }]
  reminders := []
  jobs := []
  issued := []
  now := 0

/-- Rows come back as they are stored. -/
def stored : DueOrder := ⟨fun l => l, fun l => .refl l⟩

/-- Nothing fails, and the ids are those of the steps. -/
def calm (n : Nat) : Tick := { newId := toString n }

theorem day_ahead_served :
    DueFor dayAhead ⟨"24 hours", 24⟩ "1" (24 * hour) ∧
      jobsFor (solo (exec stored) calm checkDueTasks dayAhead).1 "1" (24 * hour)
        "24 hours" = 1 := by
  have hdue : DueFor dayAhead ⟨"24 hours", 24⟩ "1" (24 * hour) :=
    ⟨_, List.mem_cons_self .., rfl, rfl, by decide⟩
  refine ⟨hdue, (milestones_served_iff stored dayAhead calm (by decide)).mpr ?_
    ⟨"24 hours", 24⟩ (by decide) "1" (24 * hour) hdue⟩
  intro m _ t d _
  have hnone : ¬ Reminded dayAhead t d := by
    rintro ⟨r, hr, -⟩
    exact absurd hr List.not_mem_nil
  rw [if_neg hnone]
  rfl

/-- Twelve hours later. -/
def halfDayAhead : SchedulerState :=
  { (solo (exec stored) calm checkDueTasks dayAhead).1 with now := 12 * hour }

/-- The run a day ahead has written the reminder row of the due date; the run twelve
    hours ahead finds it and adds no job. -/
theorem second_milestone_missed :
    let last := (solo (exec stored) (fun n => calm (n + 100)) checkDueTasks halfDayAhead).1
    Along (exec stored) Smooth calm checkDueTasks dayAhead ∧
      Along (exec stored) Smooth (fun n => calm (n + 100)) checkDueTasks halfDayAhead ∧
      DueFor halfDayAhead ⟨"12 hours", 12⟩ "1" (24 * hour) ∧
      jobsFor last "1" (24 * hour) "12 hours" = 0 := by
  refine ⟨by decide, by decide, ⟨_, List.mem_cons_self .., rfl, rfl, ?_⟩, by decide⟩
  decide

end PlatformReminders
