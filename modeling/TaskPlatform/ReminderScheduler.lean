import TaskPlatform.AsyncProgram
import TaskPlatform.Entities
import Mathlib.Data.List.Basic

/-! # `SchedulerService`: reminders of due tasks

    `checkDueTasks` of `src/modules/scheduler/scheduler.service.ts`, which cron starts
    every minute, as a program over its queries, its inserts and the jobs that it adds
    to the reminder queue.

    Any of these may fail: before it has done anything (`refused`), or after it has,
    the answer being lost on the way (`lost`).  `jobs` holds every job that the queue
    has ever accepted.  The local time has a constant offset, so that adding hours to
    a date is adding their milliseconds. -/

namespace PlatformReminders

open AsyncProgram PlatformEntities

/-! ## Rows and jobs -/

/-- `ReminderStatus`. -/
inductive ReminderStatus where
  | pending
  | sent
  | failed
  deriving DecidableEq, Repr

/-- A row of `reminders`. -/
structure Reminder where
  id : String
  taskId : String
  scheduledAt : Nat
  status : ReminderStatus
  deriving DecidableEq, Repr

/-- A time before the due date, with its name. -/
structure Milestone where
  name : String
  hours : Nat
  deriving DecidableEq, Repr

/-- `milestones`. -/
def milestones : List Milestone :=
  [⟨"24 hours", 24⟩, ⟨"12 hours", 12⟩, ⟨"6 hours", 6⟩, ⟨"1 hour", 1⟩]

/-- What the scheduler reads of a task that its query returns. -/
structure DueTask where
  id : String
  assignedTo : String
  dueDate : Nat
  deriving DecidableEq, Repr

/-- The data of a `process-reminder` job. -/
structure ReminderJob where
  reminderId : String
  taskId : String
  userId : String
  milestone : String
  dueDate : Nat
  deriving DecidableEq, Repr

/-- The milliseconds of an hour. -/
def hour : Nat := 3600000

/-! ## Operations -/

/-- What the scheduler awaits. -/
inductive SchedulerOp where
  | currentTime
  | findDueTasks (min max : Nat)
  | findSentReminder (taskId : String)
  | countReminders (taskId : String) (scheduledAt : Nat)
  | saveReminder (taskId : String) (scheduledAt : Nat)
  | addJob (job : ReminderJob)

/-- The answers. -/
abbrev SchedulerOp.Res : SchedulerOp → Type
  | .currentTime => Nat
  | .findDueTasks _ _ => Except HttpError (List DueTask)
  | .findSentReminder _ => Except HttpError (Option Reminder)
  | .countReminders _ _ => Except HttpError Nat
  | .saveReminder _ _ => Except HttpError Reminder
  | .addJob _ => Except HttpError Unit

/-- The methods of the service, as programs over these operations. -/
abbrev SchedulerProg := Prog SchedulerOp SchedulerOp.Res HttpError

/-- Await one operation. -/
abbrev ask (op : SchedulerOp) : SchedulerProg op.Res := Prog.perform op

/-! ## The program -/

/-- Insert the reminder row, then add the job. -/
def scheduleReminder (milestone : Milestone) (task : DueTask) : SchedulerProg Unit := do
  let saved ← ask (.saveReminder task.id task.dueDate)
  let savedReminder ← Prog.orThrow saved
  let added ← ask (.addJob
    { reminderId := savedReminder.id
      taskId := task.id
      userId := task.assignedTo
      milestone := milestone.name
      dueDate := task.dueDate })
  Prog.orThrow added

/-- The body of the inner loop.  What the first query finds is not looked at. -/
def checkTask (milestone : Milestone) (task : DueTask) : SchedulerProg Unit := do
  let existing ← ask (.findSentReminder task.id)
  let _ ← Prog.orThrow existing
  let counted ← ask (.countReminders task.id task.dueDate)
  let reminderCount ← Prog.orThrow counted
  if reminderCount = 0 then scheduleReminder milestone task
  else .done ()

/-- `for (const task of tasks)`. -/
def checkTasks (milestone : Milestone) : List DueTask → SchedulerProg Unit
  | [] => .done ()
  | task :: tasks => do
      checkTask milestone task
      checkTasks milestone tasks

/-- The body of the outer loop. -/
def checkMilestone (milestone : Milestone) : SchedulerProg Unit := do
  let now ← ask .currentTime
  let targetTimeMin := now + (milestone.hours - 1) * hour
  let now ← ask .currentTime
  let targetTimeMax := now + milestone.hours * hour
  let found ← ask (.findDueTasks targetTimeMin targetTimeMax)
  let tasks ← Prog.orThrow found
  checkTasks milestone tasks

/-- `for (const milestone of milestones)`. -/
def checkMilestones : List Milestone → SchedulerProg Unit
  | [] => .done ()
  | milestone :: rest => do
      checkMilestone milestone
      checkMilestones rest

/-- `checkDueTasks`: one milestone after the other. -/
def checkDueTasks : SchedulerProg Unit := checkMilestones milestones

/-! ## The world -/

/-- The tables, the queue and the clock. -/
structure SchedulerState where
  tasks : List Task
  reminders : List Reminder
  /-- Every job that the queue has accepted. -/
  jobs : List ReminderJob
  /-- Every id that a reminder has had. -/
  issued : List String
  now : Nat

/-- How an operation fails: without an effect, or with its answer lost. -/
inductive Fault where
  | refused
  | lost
  deriving DecidableEq, Repr

/-- What the outside world decides at an await. -/
structure Tick where
  elapsed : Nat := 0
  fault : Option Fault := none
  newId : String := ""
  deriving Inhabited

/-- Time passes while an operation is awaited. -/
def SchedulerState.wait (s : SchedulerState) (ω : Tick) : SchedulerState :=
  { s with now := s.now + ω.elapsed }

/-- The order in which the query returns its rows; it has no `ORDER BY`. -/
structure DueOrder where
  arrange : List DueTask → List DueTask
  perm : ∀ l, (arrange l).Perm l

/-- A live, assigned task that is not done, due between the two times. -/
def selectDue (min max : Nat) (t : Task) : Option DueTask :=
  match t.dueDate, t.assignedTo with
  | some due, some user =>
      if min ≤ due ∧ due ≤ max ∧ t.status ≠ .done ∧ t.deletedAt = none then
        some ⟨t.id, user, due⟩
      else
        none
  | _, _ => none

/-- A reminder for a task and a due date. -/
def Reminder.isFor (taskId : String) (scheduledAt : Nat) (r : Reminder) : Bool :=
  r.taskId = taskId && r.scheduledAt = scheduledAt

/-- A row with a generated id, for a task that is there. -/
def insertReminder (s : SchedulerState) (newId taskId : String) (scheduledAt : Nat) :
    Except HttpError (SchedulerState × Reminder) :=
  if newId ∉ s.issued ∧ (s.tasks.any fun t => t.id = taskId) then
    let row : Reminder := ⟨newId, taskId, scheduledAt, .pending⟩
    .ok ({ s with reminders := s.reminders ++ [row], issued := newId :: s.issued }, row)
  else
    .error .queryFailed

/-- What a query answers. -/
def read {α : Type} (ω : Tick) (a : α) : Except HttpError α :=
  match ω.fault with
  | none => .ok a
  | some _ => .error .queryFailed

/-- What a write leaves behind and answers. -/
def write {α : Type} (ω : Tick) (s : SchedulerState) :
    Except HttpError (SchedulerState × α) → SchedulerState × Except HttpError α
  | .error e => (s, .error e)
  | .ok (s', a) =>
      match ω.fault with
      | none => (s', .ok a)
      | some .lost => (s', .error .queryFailed)
      | some .refused => (s, .error .queryFailed)

/-- The operations. -/
def exec (order : DueOrder) (ω : Tick) :
    (op : SchedulerOp) → SchedulerState → SchedulerState × op.Res
  | .currentTime, s => (s.wait ω, s.now + ω.elapsed)
  | .findDueTasks min max, s =>
      (s.wait ω, read ω (order.arrange (s.tasks.filterMap (selectDue min max))))
  | .findSentReminder taskId, s =>
      (s.wait ω, read ω (s.reminders.find? fun r => r.taskId = taskId && r.status = .sent))
  | .countReminders taskId scheduledAt, s =>
      (s.wait ω, read ω (s.reminders.countP (Reminder.isFor taskId scheduledAt)))
  | .saveReminder taskId scheduledAt, s =>
      write ω (s.wait ω) (insertReminder (s.wait ω) ω.newId taskId scheduledAt)
  | .addJob job, s =>
      write ω (s.wait ω) (.ok ({ s.wait ω with jobs := s.jobs ++ [job] }, ()))

end PlatformReminders
