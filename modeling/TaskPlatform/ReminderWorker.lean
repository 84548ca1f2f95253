import TaskPlatform.ReminderScheduler

/-! # `ReminderWorker` and the notifications that it sends

    `process` of `src/workers/reminder.worker.ts`, which a job of the reminder queue runs,
    and `createAndSendNotification` of `src/modules/notification/notification.service.ts`.
    A job whose processor throws is run again until its attempts are used up.

    Every call to the database and to a queue may fail, as in `ReminderScheduler`; the
    message to the socket room of a user is sent without waiting for anything.  An insert
    for a user that is gone fails like any other. -/

namespace PlatformNotifications

open AsyncProgram PlatformEntities
open PlatformReminders (Reminder ReminderStatus ReminderJob Tick)

/-- A row of `notifications`. -/
structure Notification where
  id : String
  userId : String
  type : String
  title : String
  message : String
  isRead : Bool
  deriving DecidableEq, Repr

/-- The data of a `send-push` job. -/
structure PushJob where
  notificationId : String
  userId : String
  type : String
  title : String
  message : String
  deriving DecidableEq, Repr

/-- The data of a `send-email` job. -/
structure EmailJob where
  userId : String
  subject : String
  text : String
  deriving DecidableEq, Repr

/-- What ends an attempt: an `Error` with its message, or a call that failed. -/
inductive JobError where
  | error (message : String)
  | callFailed
  deriving DecidableEq, Repr

/-! ## Operations -/

/-- What the worker awaits. -/
inductive WorkerOp where
  | findTask (id : String)
  | saveNotification (userId type title message : String)
  | sendNotificationCreated (userId : String) (notification : Notification)
  | addPush (job : PushJob)
  | addEmail (job : EmailJob)
  | updateReminder (id : String) (status : ReminderStatus)

/-- The answers. -/
abbrev WorkerOp.Res : WorkerOp → Type
  | .findTask _ => Except JobError (Option Task)
  | .saveNotification _ _ _ _ => Except JobError Notification
  | .sendNotificationCreated _ _ => Unit
  | .addPush _ => Except JobError Unit
  | .addEmail _ => Except JobError Unit
  | .updateReminder _ _ => Except JobError Unit

/-- The methods of the worker, as programs over these operations. -/
abbrev WorkerProg := Prog WorkerOp WorkerOp.Res JobError

/-- Await one operation. -/
abbrev ask (op : WorkerOp) : WorkerProg op.Res := Prog.perform op

/-! ## The programs -/

/-- The handler logs the error and throws it on. -/
def createAndSendNotification (userId type title message : String) :
    WorkerProg Notification :=
  Prog.catching (do
    let saved ← ask (.saveNotification userId type title message)
    let savedNotification ← Prog.orThrow saved
    ask (.sendNotificationCreated userId savedNotification)
    let pushed ← ask (.addPush
      { notificationId := savedNotification.id
        userId := userId
        type := type
        title := title
        message := message })
    Prog.orThrow pushed
    let emailed ← ask (.addEmail { userId := userId, subject := title, text := message })
    Prog.orThrow emailed
    .done savedNotification) fun error => .fail error

/-- The `try` block of `process`. -/
def deliverReminder (job : ReminderJob) : WorkerProg Unit := do
  let found ← ask (.findTask job.taskId)
  let task ← Prog.orThrow found
  match task with
  | none => .fail (.error ("Task " ++ job.taskId ++ " not found"))
  | some task => do
      let _ ← createAndSendNotification job.userId "DUE_REMINDER"
        ("Task Due Soon: " ++ task.title)
        ("Reminder: The task \"" ++ task.title ++ "\" is due in " ++ job.milestone ++ ".")
      let marked ← ask (.updateReminder job.reminderId .sent)
      Prog.orThrow marked

/-- `process`: an error marks the reminder as failed and is thrown again. -/
def process (job : ReminderJob) : WorkerProg Unit :=
  (deliverReminder job).catching fun error => do
    let marked ← ask (.updateReminder job.reminderId .failed)
    Prog.orThrow marked
    .fail error

/-! ## The world -/

/-- The tables, the queues and what the sockets were sent. -/
structure WorkerState where
  tasks : List Task
  reminders : List Reminder
  notifications : List Notification
  /-- What has been sent to the rooms of which users. -/
  sent : List (String × Notification)
  pushJobs : List PushJob
  emailJobs : List EmailJob

/-- What a call that would lead from `s` to `s'` leaves behind and answers. -/
def settle {α : Type} (ω : Tick) (s s' : WorkerState) (a : α) :
    WorkerState × Except JobError α :=
  match ω.fault with
  | none => (s', .ok a)
  | some .lost => (s', .error .callFailed)
  | some .refused => (s, .error .callFailed)

/-- A row with a generated id. -/
def insertNotification (ω : Tick) (s : WorkerState) (row : Notification) :
    WorkerState × Except JobError Notification :=
  if s.notifications.any fun n => n.id = row.id then (s, .error .callFailed)
  else settle ω s { s with notifications := s.notifications ++ [row] } row

/-- `UPDATE reminders SET status = $2 WHERE id = $1`. -/
def WorkerState.mark (s : WorkerState) (id : String) (status : ReminderStatus) : WorkerState :=
  { s with reminders := s.reminders.map fun r => if r.id = id then { r with status } else r }

/-- The operations. -/
def workerExec (ω : Tick) : (op : WorkerOp) → WorkerState → WorkerState × op.Res
  | .findTask id, s =>
      settle ω s s (s.tasks.find? fun t => t.id = id && decide (t.deletedAt = none))
  | .saveNotification userId type title message, s =>
      insertNotification ω s ⟨ω.newId, userId, type, title, message, false⟩
  | .sendNotificationCreated userId n, s => ({ s with sent := s.sent ++ [(userId, n)] }, ())
  | .addPush job, s => settle ω s { s with pushJobs := s.pushJobs ++ [job] } ()
  | .addEmail job, s => settle ω s { s with emailJobs := s.emailJobs ++ [job] } ()
  | .updateReminder id status, s => settle ω s (s.mark id status) ()

/-! ## Attempts -/

/-- An attempt that has been executed. -/
structure Attempt where
  before : WorkerState
  after : WorkerState
  outcome : Except JobError Unit

/-- The attempts of a job, of which there are as many as worlds to run them in, unless
    one returns before. -/
def runJob (job : ReminderJob) : List (Nat → Tick) → WorkerState → List Attempt
  | [], _ => []
  | world :: rest, s =>
      let (s', outcome) := solo workerExec world (process job) s
      ⟨s, s', outcome⟩ :: match outcome with
        | .ok _ => []
        | .error _ => runJob job rest s'

/-- The state after the last attempt. -/
def afterAttempts (s : WorkerState) (attempts : List Attempt) : WorkerState :=
  (attempts.getLast?.map Attempt.after).getD s

end PlatformNotifications
