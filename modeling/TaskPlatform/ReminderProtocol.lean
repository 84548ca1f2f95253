import TaskPlatform.Protocol
import TaskPlatform.ReminderMilestones

/-! # The protocol of `checkDueTasks`

    Between a count of zero and the end of the reminder that it starts, a run is in
    one of two modes: about to insert the row, or about to add its job.  `Advance` lists
    all that one step can do, so that no invariant has to look at the program or at
    `exec` again. -/

namespace PlatformReminders

open AsyncProgram PlatformEntities Interleaving

/-- How far a run of the scheduler has come. -/
inductive SchedulerMode where
  | idle
  | inserting (taskId : String) (dueDate : Nat)
  | adding (reminderId taskId : String) (dueDate : Nat)
  deriving DecidableEq, Repr

/-- The operations of a mode. -/
def SchedulerMode.allows : SchedulerMode → SchedulerOp → Prop
  | .inserting t d, op => op = .saveReminder t d
  | .adding id t d, op =>
      ∃ job, op = .addJob job ∧ job.reminderId = id ∧ job.taskId = t ∧ job.dueDate = d
  | .idle, .saveReminder _ _ => False
  | .idle, .addJob _ => False
  | .idle, _ => True

/-- Where an answer leads. -/
def SchedulerMode.after : (op : SchedulerOp) → op.Res → SchedulerMode
  | .countReminders t d, .ok 0 => .inserting t d
  | .saveReminder t d, .ok row => .adding row.id t d
  | _, _ => .idle

/-- A run begins and ends idle. -/
def schedulerProtocol : Protocol SchedulerOp SchedulerOp.Res SchedulerMode where
  allows := SchedulerMode.allows
  next := fun _ => SchedulerMode.after
  rest := fun m => m = .idle

/-! ## The program keeps to it -/

theorem scheduleReminder_conforms (m : Milestone) (task : DueTask) :
    Conforms schedulerProtocol (.inserting task.id task.dueDate) (scheduleReminder m task) := by
  refine ⟨rfl, ?_⟩
  rintro (e | row)
  · rfl
  · refine ⟨⟨_, rfl, rfl, rfl, rfl⟩, ?_⟩
    rintro (e | _)
    · rfl
    · rfl

theorem checkTask_conforms (m : Milestone) (task : DueTask) :
    Conforms schedulerProtocol .idle (checkTask m task) := by
  refine ⟨trivial, ?_⟩
  rintro (e | existing)
  · rfl
  · refine ⟨trivial, ?_⟩
    rintro (e | reminderCount)
    · rfl
    · cases reminderCount with
      | zero => exact scheduleReminder_conforms m task
      | succ n => rfl

theorem checkTasks_conforms (m : Milestone) (tasks : List DueTask) :
    Conforms schedulerProtocol .idle (checkTasks m tasks) := by
  induction tasks with
  | nil => rfl
  | cons task tasks ih =>
      refine (checkTask_conforms m task).bind ?_
      rintro _ _ rfl
      exact ih

theorem checkMilestones_conforms (ms : List Milestone) :
    Conforms schedulerProtocol .idle (checkMilestones ms) := by
  induction ms with
  | nil => rfl
  | cons m ms ih =>
      refine Conforms.bind (P := schedulerProtocol) (m := .idle) ?_ ?_
      · refine ⟨trivial, fun _ => ⟨trivial, fun _ => ⟨trivial, ?_⟩⟩⟩
        rintro (e | tasks)
        · rfl
        · exact checkTasks_conforms m tasks
      · rintro _ _ rfl
        exact ih

theorem checkDueTasks_conforms : Conforms schedulerProtocol .idle checkDueTasks :=
  checkMilestones_conforms milestones

/-! ## What a step can do -/

/-- Rows, jobs and ids are as they were. -/
structure Untouched (s s' : SchedulerState) : Prop where
  reminders : s'.reminders = s.reminders
  jobs : s'.jobs = s.jobs
  issued : s'.issued = s.issued

/-- The database takes the row. -/
def Insertable (ω : Tick) (s : SchedulerState) (taskId : String) : Prop :=
  ω.newId ∉ s.issued ∧ (s.tasks.any fun t => t.id = taskId) = true

instance (ω : Tick) (s : SchedulerState) (taskId : String) :
    Decidable (Insertable ω s taskId) :=
  inferInstanceAs (Decidable (_ ∧ _))

/-- The row is there after the step. -/
structure Inserted (ω : Tick) (t : String) (d : Nat) (s s' : SchedulerState) : Prop where
  insertable : Insertable ω s t
  reminders : s'.reminders = s.reminders ++ [⟨ω.newId, t, d, .pending⟩]
  jobs : s'.jobs = s.jobs
  issued : s'.issued = ω.newId :: s.issued

/-- The steps of a run, with the modes before and after. -/
inductive Advance (ω : Tick) : SchedulerMode → SchedulerOp → SchedulerState →
    SchedulerMode → SchedulerState → Prop where
  | look {op : SchedulerOp} {s s' : SchedulerState} (same : Untouched s s')
      (reads : SchedulerMode.idle.allows op) : Advance ω .idle op s .idle s'
  | none {t : String} {d : Nat} {s s' : SchedulerState} (same : Untouched s s')
      (none : ¬ Reminded s t d) :
      Advance ω .idle (.countReminders t d) s (.inserting t d) s'
  | insert {t : String} {d : Nat} {s s' : SchedulerState} (row : Inserted ω t d s s')
      (answered : ω.fault = none) :
      Advance ω (.inserting t d) (.saveReminder t d) s (.adding ω.newId t d) s'
  | insertLost {t : String} {d : Nat} {s s' : SchedulerState} (row : Inserted ω t d s s')
      (lost : ω.fault = some .lost) :
      Advance ω (.inserting t d) (.saveReminder t d) s .idle s'
  | insertRefused {t : String} {d : Nat} {s s' : SchedulerState} (same : Untouched s s')
      (refused : ω.fault = some .lost → ¬ Insertable ω s t) :
      Advance ω (.inserting t d) (.saveReminder t d) s .idle s'
  | add {job : ReminderJob} {s s' : SchedulerState}
      (reminders : s'.reminders = s.reminders) (jobs : s'.jobs = s.jobs ++ [job])
      (issued : s'.issued = s.issued) (accepted : ω.fault ≠ some .refused) :
      Advance ω (.adding job.reminderId job.taskId job.dueDate) (.addJob job) s .idle s'
  | addRefused {job : ReminderJob} {s s' : SchedulerState} (same : Untouched s s')
      (refused : ω.fault = some .refused) :
      Advance ω (.adding job.reminderId job.taskId job.dueDate) (.addJob job) s .idle s'

theorem untouched_wait (s : SchedulerState) (ω : Tick) : Untouched s (s.wait ω) :=
  ⟨rfl, rfl, rfl⟩

theorem not_reminded_iff {s : SchedulerState} {t : String} {d : Nat} :
    s.reminders.countP (Reminder.isFor t d) = 0 ↔ ¬ Reminded s t d := by
  rw [List.countP_eq_zero]
  constructor
  · rintro h ⟨r, hr, hfor⟩
    exact h r hr hfor
  · intro h r hr hfor
    exact h ⟨r, hr, hfor⟩

theorem insertReminder_ok {ω : Tick} {s : SchedulerState} {t : String}
    (h : Insertable ω s t) (d : Nat) :
    insertReminder (s.wait ω) ω.newId t d = .ok ({ s.wait ω with
      reminders := s.reminders ++ [⟨ω.newId, t, d, .pending⟩]
      issued := ω.newId :: s.issued }, ⟨ω.newId, t, d, .pending⟩) :=
  if_pos h

/-- The insert, by what fails. -/
theorem saveReminder_advances (order : DueOrder) (ω : Tick) (s : SchedulerState) (t : String)
    (d : Nat) :
    Advance ω (.inserting t d) (.saveReminder t d) s
      (SchedulerMode.after (.saveReminder t d) (exec order ω (.saveReminder t d) s).2)
      (exec order ω (.saveReminder t d) s).1 := by
  have hexec : exec order ω (.saveReminder t d) s
      = write ω (s.wait ω) (insertReminder (s.wait ω) ω.newId t d) := rfl
  by_cases hins : Insertable ω s t
  · rw [hexec, insertReminder_ok hins]
    cases hf : ω.fault with
    | none =>
        rw [write, hf]
        exact .insert ⟨hins, rfl, rfl, rfl⟩ hf
    | some f =>
        cases f with
        | lost =>
            rw [write, hf]
            exact .insertLost ⟨hins, rfl, rfl, rfl⟩ hf
        | refused =>
            rw [write, hf]
            refine .insertRefused (untouched_wait s ω) ?_
            intro h
            rw [hf] at h
            cases h
  · have herr : insertReminder (s.wait ω) ω.newId t d = .error .queryFailed := if_neg hins
    rw [hexec, herr]
    exact .insertRefused (untouched_wait s ω) fun _ => hins

theorem addJob_advances (order : DueOrder) (ω : Tick) (s : SchedulerState)
    (job : ReminderJob) :
    Advance ω (.adding job.reminderId job.taskId job.dueDate) (.addJob job) s .idle
      (exec order ω (.addJob job) s).1 := by
  show Advance _ _ _ _ _ (write ω (s.wait ω) _).1
  cases hf : ω.fault with
  | none =>
      rw [write, hf]
      refine .add rfl rfl rfl ?_
      rw [hf]
      exact nofun
  | some f =>
      cases f with
      | lost =>
          rw [write, hf]
          refine .add rfl rfl rfl ?_
          rw [hf]
          exact nofun
      | refused =>
          rw [write, hf]
          exact .addRefused (untouched_wait s ω) hf

/-- **Steps of a run.**  One step of a run that keeps to the protocol is one of those
    listed. -/
theorem advances (order : DueOrder) {m : SchedulerMode} (ω : Tick) {op : SchedulerOp}
    (s : SchedulerState) (h : m.allows op) :
    Advance ω m op s (SchedulerMode.after op (exec order ω op s).2)
      (exec order ω op s).1 := by
  cases m with
  | inserting t d =>
      cases h
      exact saveReminder_advances order ω s t d
  | adding id t d =>
      obtain ⟨job, rfl, rfl, rfl, rfl⟩ := h
      exact addJob_advances order ω s job
  | idle =>
      have hwait := untouched_wait s ω
      cases op with
      | currentTime => exact .look hwait trivial
      | findDueTasks min max => exact .look hwait trivial
      | findSentReminder t => exact .look hwait trivial
      | countReminders t d =>
          show Advance ω _ _ s (SchedulerMode.after (.countReminders t d)
            (read ω (s.reminders.countP (Reminder.isFor t d)))) _
          cases hf : ω.fault with
          | some f =>
              rw [read, hf]
              exact .look hwait trivial
          | none =>
              rw [read, hf]
              cases hcount : s.reminders.countP (Reminder.isFor t d) with
              | zero => exact .none hwait (not_reminded_iff.mp hcount)
              | succ n => exact .look hwait trivial
      | saveReminder t d => exact absurd h not_false
      | addJob job => exact absurd h not_false

end PlatformReminders
