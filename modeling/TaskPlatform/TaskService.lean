import TaskPlatform.AsyncProgram
import TaskPlatform.GlobPattern
import TaskPlatform.TaskTable

/-! # `TaskService`: tasks behind a cache

    `createTask`, `getTasks`, `findById`, `updateTask` and `deleteTask` of
    `src/modules/task/task.service.ts` with the helpers that they call, each a
    program over the operations it awaits, and the meaning of these operations on
    the database, a Redis cache whose entries may expire at any time, and a clock.

    Redis and the queues do not fail here; the database rejects what its
    constraints reject. -/

namespace PlatformTasks

open AsyncProgram PlatformEntities RowTable GlobPattern

/-! ## Requests -/

/-- A field of a request body: left out, `null`, or a value. -/
inductive Field (α : Type) where
  | undefined
  | null
  | val (a : α)
  deriving DecidableEq, Repr

/-- `if (field !== undefined) column = field`. -/
def Field.assign {α : Type} (f : Field α) (column : Option α) : Option α :=
  match f with
  | .undefined => column
  | .null => none
  | .val a => some a

/-- A column that had a value is emptied by a `null` alone. -/
theorem assign_eq_none {α : Type} {f : Field α} {a : α} :
    f.assign (some a) = none ↔ f = .null := by
  cases f with
  | undefined => simp [Field.assign]
  | null => simp [Field.assign]
  | val b => simp [Field.assign]

/-- The body of a request for a new task; only the title is required. -/
structure CreateTaskDto where
  title : String
  description : Option String := none
  parentTaskId : Option String := none
  priority : Option TaskPriority := none
  assignedTo : Option String := none
  dueDate : Option Nat := none
  labels : Option (List String) := none
  attachments : Option (List Attachment) := none
  deriving DecidableEq, Repr

/-- The body of an update.  Each field may be left out, and each may be `null`:
    `@IsOptional` lets both pass. -/
structure UpdateTaskDto where
  title : Field String := .undefined
  description : Field String := .undefined
  status : Field TaskStatus := .undefined
  priority : Field TaskPriority := .undefined
  assignedTo : Field String := .undefined
  dueDate : Field Nat := .undefined
  labels : Field (List String) := .undefined
  attachments : Field (List Attachment) := .undefined
  version : Field Int := .undefined
  deriving DecidableEq, Repr

/-! ## Cache keys -/

/-- The key of one task. -/
def getTaskCacheKey (id : String) : String := "task:id:" ++ id

/-- The glob pattern of all lists of a project. -/
def getListCachePattern (workspaceId projectId : String) : String :=
  "workspace:" ++ workspaceId ++ ":project:" ++ projectId ++ ":tasks:" ++ "*"

/-- A number in a template string. -/
def showNumber : Option Nat → String
  | some n => toString n
  | none => "undefined"

/-- The text of the enumeration. -/
def SortOrder.text : SortOrder → String
  | .asc => "ASC"
  | .desc => "DESC"

/-- The key of a list: the query in a template string. -/
def getListCacheKey (workspaceId projectId : String) (query : QueryTaskDto) : String :=
  "workspace:" ++ workspaceId ++ ":project:" ++ projectId ++ ":tasks:" ++
    ("page:" ++ showNumber query.page ++ ":limit:" ++ showNumber query.limit ++
      ":status:" ++ (truthy query.status).getD "all" ++
      ":priority:" ++ (truthy query.priority).getD "all" ++
      ":assignee:" ++ (truthy query.assignedTo).getD "all" ++
      ":search:" ++ (truthy query.search).getD "none" ++
      ":sortBy:" ++ query.sortBy.getD "undefined" ++
      ":sortOrder:" ++ (query.sortOrder.map SortOrder.text).getD "undefined")

/-! ## Operations -/

/-- A workspace as it is loaded, with its owner. -/
structure LoadedWorkspace where
  row : Workspace
  owner : Option UserView
  deriving DecidableEq, Repr

/-- What the services keep in Redis: `TaskService` the first two, `WorkspaceService`
    and `ProjectService` the others. -/
inductive CacheValue where
  | task (t : LoadedTask)
  | tasks (page : TaskPage)
  | workspace (w : LoadedWorkspace)
  | projects (l : List Project)
  deriving DecidableEq, Repr

/-- What the services hand to `RealtimeGateway`. -/
inductive RealtimeEvent where
  | taskCreated (workspaceId : String) (task : Task)
  | taskUpdated (workspaceId : String) (task : TaskEntity)
  | taskDeleted (workspaceId id : String) (deletedAt : Nat)
  | notificationCreated (userId : String) (notification : Notification)

/-- The jobs that a notification adds to the queues. -/
inductive Job where
  | sendPush (notificationId userId type title message : String)
  | sendEmail (userId subject text : String)

/-- The values of a task before an update, for the audit log. -/
structure OldValues where
  title : String
  description : Option String
  status : TaskStatus
  priority : TaskPriority
  assignedTo : Option String
  dueDate : Option Nat
  version : Nat

/-- The payloads that `TaskService` hands to `AuditService.log`. -/
inductive TaskAudit where
  | created (taskId projectId workspaceId : String)
  | updated (taskId workspaceId : String) (previous : OldValues) (new : UpdateTaskDto)
  | deleted (taskId workspaceId : String)

/-- The operations the service awaits.  Queue failures of `audit` and `activity`
    are caught where they arise; those of notifications are passed on. -/
inductive TaskOp where
  | cacheGet (key : String)
  | cacheSet (key : String) (value : CacheValue) (ttlSeconds : Nat)
  | cacheDel (key : String)
  | cacheDelPattern (pattern : String)
  | findOne (id workspaceId : String)
  | getManyAndCount (workspaceId projectId : String) (query : QueryTaskDto)
  | insert (task : NewTask)
  | save (task : TaskEntity)
  | softRemove (task : LoadedTask)
  | currentTime
  | auditLog (action userId : String) (payload : TaskAudit)
  | activityLog (workspaceId entityType entityId action performedBy : String)
  | insertNotification (userId type title message : String)
  | queueAdd (job : Job)
  | emit (event : RealtimeEvent)

/-- The answers. -/
abbrev TaskOp.Res : TaskOp → Type
  | .cacheGet _ => Option CacheValue
  | .cacheSet _ _ _ => Unit
  | .cacheDel _ => Unit
  | .cacheDelPattern _ => Unit
  | .findOne _ _ => Option LoadedTask
  | .getManyAndCount _ _ _ => TaskPage
  | .insert _ => Except HttpError Task
  | .save _ => Except HttpError TaskEntity
  | .softRemove _ => Unit
  | .currentTime => Nat
  | .auditLog _ _ _ => Unit
  | .activityLog _ _ _ _ _ => Unit
  | .insertNotification _ _ _ _ => Except HttpError Notification
  | .queueAdd _ => Except HttpError Unit
  | .emit _ => Unit

/-- What the calls return.  `getTasks` hands a cached value on as it is. -/
inductive TaskReply where
  | created (task : Task)
  | listed (value : CacheValue)
  | found (task : LoadedTask)
  | updated (task : TaskEntity)
  | deleted
  deriving DecidableEq, Repr

/-- The methods of the services, as programs over these operations. -/
abbrev TaskProg := Prog TaskOp TaskOp.Res HttpError

/-- Await one operation. -/
abbrev ask (op : TaskOp) : TaskProg op.Res := Prog.perform op

/-! ## The programs -/

/-- `NotificationService.createAndSendNotification`; its `catch` logs and throws the
    error again. -/
def createAndSendNotification (userId type title message : String) :
    TaskProg Notification := do
  let savedNotification ← ask (.insertNotification userId type title message)
  match savedNotification with
  | .error e => .fail e
  | .ok notification => do
      ask (.emit (.notificationCreated userId notification))
      let queued ← ask (.queueAdd (.sendPush notification.id userId type title message))
      match queued with
      | .error e => .fail e
      | .ok _ => do
          let mailed ← ask (.queueAdd (.sendEmail userId title message))
          match mailed with
          | .error e => .fail e
          | .ok _ => .done notification

/-- The notification of `createTask`, if the request names an assignee. -/
def notifyAssignee (dto : CreateTaskDto) : TaskProg Unit :=
  match truthy dto.assignedTo with
  | none => .done ()
  | some assignee => do
      let _ ← createAndSendNotification assignee "TASK_ASSIGNED"
        ("Assigned Task: " ++ dto.title)
        ("You have been assigned to the task \"" ++ dto.title ++ "\" in project.")
      .done ()

/-- `createTask`. -/
def createTask (workspaceId projectId userId : String) (dto : CreateTaskDto) :
    TaskProg TaskReply := do
  let saved ← ask (.insert
    { workspaceId := workspaceId
      projectId := projectId
      title := dto.title
      description := dto.description
      parentTaskId := dto.parentTaskId
      priority := dto.priority.getD .medium
      status := .todo
      assignedTo := dto.assignedTo
      dueDate := dto.dueDate
      labels := dto.labels
      attachments := some (dto.attachments.getD [])
      createdBy := userId })
  match saved with
  | .error e => .fail e
  | .ok saved => do
      ask (.cacheDelPattern (getListCachePattern workspaceId projectId))
      ask (.auditLog "TASK_CREATE" userId (.created saved.id projectId workspaceId))
      ask (.activityLog workspaceId "TASK" saved.id "TASK_CREATED" userId)
      ask (.emit (.taskCreated workspaceId saved))
      notifyAssignee dto
      .done (.created saved)

/-- `getTasks`: whatever lies under the key is handed on as it is. -/
def getTasks (workspaceId projectId : String) (query : QueryTaskDto) :
    TaskProg TaskReply := do
  let cacheKey := getListCacheKey workspaceId projectId query
  let cached ← ask (.cacheGet cacheKey)
  match cached with
  | some cached => .done (.listed cached)
  | none => do
      let result ← ask (.getManyAndCount workspaceId projectId query)
      ask (.cacheSet cacheKey (.tasks result) 300)
      .done (.listed (.tasks result))

/-- The second half of `findById`: the database, and the cache fill. -/
def findInDatabase (id workspaceId : String) : TaskProg LoadedTask := do
  let task ← ask (.findOne id workspaceId)
  match task with
  | none => .fail (.notFound "Task not found in this workspace")
  | some task => do
      ask (.cacheSet (getTaskCacheKey id) (.task task) 300)
      .done task

/-- `findById`.  A cached task of another workspace is passed over. -/
def findById (id workspaceId : String) : TaskProg LoadedTask := do
  let cached ← ask (.cacheGet (getTaskCacheKey id))
  match cached with
  | some (.task cached) =>
      if cached.row.workspaceId = workspaceId then .done cached
      else findInDatabase id workspaceId
  | _ => findInDatabase id workspaceId

/-- The message of both lock conflicts. -/
def lockMessage : String :=
  "Optimistic locking violation: Task has been modified by another request. Please reload."

/-- `dto.version !== undefined && task.version !== dto.version`. -/
def versionMismatch (version : Field Int) (current : Nat) : Bool :=
  match version with
  | .undefined => false
  | .null => true
  | .val v => (current : Int) ≠ v

/-- The status moves to DONE. -/
def completes (dto : UpdateTaskDto) (task : LoadedTask) : Bool :=
  dto.status = .val .done && task.row.status ≠ .done

/-- The completion time that the update leaves in the object. -/
def completionTime (dto : UpdateTaskDto) (task : LoadedTask) : TaskProg (Option Nat) :=
  if completes dto task then do
    let now ← ask .currentTime
    .done (some now)
  else
    match dto.status with
    | .val .done => .done task.row.completedAt
    | .val _ => .done none
    | _ => .done task.row.completedAt

/-- `dto.assignedTo !== undefined && dto.assignedTo !== task.assignedTo`. -/
def assigneeChanges (dto : UpdateTaskDto) (task : LoadedTask) : Bool :=
  dto.assignedTo ≠ .undefined
    && dto.assignedTo.assign task.row.assignedTo ≠ task.row.assignedTo

/-- The task object with the fields of the request assigned to it. -/
def applyDto (task : LoadedTask) (dto : UpdateTaskDto) (completedAt : Option Nat) :
    TaskEntity :=
  { row := { task.row with
      description := dto.description.assign task.row.description
      assignedTo := dto.assignedTo.assign task.row.assignedTo
      dueDate := dto.dueDate.assign task.row.dueDate
      labels := dto.labels.assign task.row.labels
      attachments := dto.attachments.assign task.row.attachments
      completedAt := completedAt }
    title := dto.title.assign (some task.row.title)
    status := dto.status.assign (some task.row.status)
    priority := dto.priority.assign (some task.row.priority)
    assignee := task.assignee
    creator := task.creator }

/-- A nullable string in a template string. -/
def showText (s : Option String) : String := s.getD "null"

/-- Activity log and notifications of an update: a completion is told to the creator,
    or else a new assignee is told.  `task` is the object as its save has left it, and
    that save has taken the assignee out of a task whose relation was loaded as null. -/
def announceUpdate (id workspaceId userId : String) (task : TaskEntity)
    (taskCompleted assigneeChanged : Bool) : TaskProg Unit :=
  if taskCompleted then do
    ask (.activityLog workspaceId "TASK" id "TASK_COMPLETED" userId)
    if task.row.createdBy ≠ userId then do
      let _ ← createAndSendNotification task.row.createdBy "TASK_COMPLETED"
        ("Completed Task: " ++ showText task.title)
        ("The task \"" ++ showText task.title ++ "\" has been completed.")
      .done ()
    else .done ()
  else
    match assigneeChanged, truthy task.row.assignedTo with
    | true, some assignee => do
        ask (.activityLog workspaceId "TASK" id "TASK_ASSIGNED" userId)
        let _ ← createAndSendNotification assignee "TASK_ASSIGNED"
          ("Assigned Task: " ++ showText task.title)
          ("You have been assigned to the task \"" ++ showText task.title ++ "\".")
        .done ()
    | _, _ => ask (.activityLog workspaceId "TASK" id "TASK_UPDATED" userId)

/-- What `updateTask` does once its save went through: `task` is what was loaded, and
    `saved` the same object with what was assigned to it and what `save` put into it.  No
    project is ever assigned. -/
def afterSave (id workspaceId userId : String) (dto : UpdateTaskDto) (task : LoadedTask)
    (saved : TaskEntity) : TaskProg TaskReply := do
  ask (.cacheDel (getTaskCacheKey id))
  ask (.cacheDelPattern (getListCachePattern workspaceId task.row.projectId))
  ask (.auditLog "TASK_UPDATE" userId (.updated id workspaceId
    ⟨task.row.title, task.row.description, task.row.status, task.row.priority,
      task.row.assignedTo, task.row.dueDate, task.row.version⟩ dto))
  announceUpdate id workspaceId userId saved (completes dto task) (assigneeChanges dto task)
  ask (.emit (.taskUpdated workspaceId saved))
  .done (.updated saved)

/-- `updateTask` from the point where the task is loaded. -/
def updateLoaded (id workspaceId userId : String) (dto : UpdateTaskDto)
    (task : LoadedTask) : TaskProg TaskReply :=
  if versionMismatch dto.version task.row.version then
    .fail (.conflict lockMessage)
  else do
    let completedAt ← completionTime dto task
    let saved ← ask (.save (applyDto task dto completedAt))
    match saved with
    | .error e => .fail e
    | .ok saved => afterSave id workspaceId userId dto task saved

/-- `updateTask`.  Its `catch` turns an `OptimisticLockVersionMismatchError` into the
    lock conflict and throws anything else again; `save` never raises that error. -/
def updateTask (id workspaceId userId : String) (dto : UpdateTaskDto) :
    TaskProg TaskReply := do
  let task ← findById id workspaceId
  updateLoaded id workspaceId userId dto task

/-- `deleteTask`. -/
def deleteTask (id workspaceId userId : String) : TaskProg TaskReply := do
  let task ← findById id workspaceId
  ask (.softRemove task)
  ask (.cacheDel (getTaskCacheKey id))
  ask (.cacheDelPattern (getListCachePattern workspaceId task.row.projectId))
  ask (.auditLog "TASK_DELETE" userId (.deleted id workspaceId))
  ask (.activityLog workspaceId "TASK" id "TASK_DELETED" userId)
  let now ← ask .currentTime
  ask (.emit (.taskDeleted workspaceId id now))
  .done .deleted

/-- The calls a client can make. -/
inductive TaskCall where
  | createTask (workspaceId projectId userId : String) (dto : CreateTaskDto)
  | getTasks (workspaceId projectId : String) (query : QueryTaskDto)
  | findById (id workspaceId : String)
  | updateTask (id workspaceId userId : String) (dto : UpdateTaskDto)
  | deleteTask (id workspaceId userId : String)

/-- The method behind each call. -/
def TaskCall.prog : TaskCall → TaskProg TaskReply
  | .createTask w p u dto => PlatformTasks.createTask w p u dto
  | .getTasks w p q => PlatformTasks.getTasks w p q
  | .findById id w => do
      let task ← PlatformTasks.findById id w
      .done (.found task)
  | .updateTask id w u dto => PlatformTasks.updateTask id w u dto
  | .deleteTask id w u => PlatformTasks.deleteTask id w u

/-! ## Database, cache and clock -/

/-- Postgres, Redis and the clock. -/
structure TaskState where
  db : Database
  cache : String → Option CacheValue
  now : Nat

/-- What the outside world decides at an await: how far the clock has moved, which
    cache entries have expired, which id an insert generates. -/
structure Choice where
  elapsed : Nat := 0
  expired : List String := []
  newId : String := ""

/-- Time passes while an operation is awaited. -/
def TaskState.wait (s : TaskState) (ω : Choice) : TaskState :=
  { s with
    cache := fun key => if key ∈ ω.expired then none else s.cache key
    now := s.now + ω.elapsed }

/-- The operations.  `JSON.stringify` and `JSON.parse` between the service and Redis
    hand back an equal object; `delPattern` is taken as one step. -/
def exec (pg : PostgresText) (ω : Choice) :
    (op : TaskOp) → TaskState → TaskState × op.Res
  | .cacheGet key, s => (s.wait ω, (s.wait ω).cache key)
  | .cacheSet key value _, s =>
      ({ s.wait ω with
          cache := fun k => if k = key then some value else (s.wait ω).cache k }, ())
  | .cacheDel key, s =>
      ({ s.wait ω with
          cache := fun k => if k = key then none else (s.wait ω).cache k }, ())
  | .cacheDelPattern pattern, s =>
      ({ s.wait ω with
          cache := fun k =>
            if globMatch pattern k then none else (s.wait ω).cache k }, ())
  | .findOne id workspaceId, s => (s.wait ω, findOneTask s.db id workspaceId)
  | .getManyAndCount workspaceId projectId query, s =>
      (s.wait ω, listTasks pg s.db workspaceId projectId query)
  | .insert task, s =>
      match insertTask s.db ω.newId (s.now + ω.elapsed) task with
      | .error e => (s.wait ω, .error e)
      | .ok (db, row) => ({ s.wait ω with db := db }, .ok row)
  | .save task, s =>
      match saveTask s.db (s.now + ω.elapsed) task with
      | .error e => (s.wait ω, .error e)
      | .ok (db, saved) => ({ s.wait ω with db := db }, .ok saved)
  | .softRemove task, s =>
      ({ s.wait ω with db := softRemoveTask s.db (s.now + ω.elapsed) task.row.id }, ())
  | .currentTime, s => (s.wait ω, s.now + ω.elapsed)
  | .auditLog _ _ _, s => (s.wait ω, ())
  | .activityLog _ _ _ _ _, s => (s.wait ω, ())
  | .insertNotification userId type title message, s =>
      if s.db.users.any (fun u => u.id = userId) then
        let row : Notification := ⟨ω.newId, userId, type, title, message, false⟩
        ({ s.wait ω with
            db := { s.db with notifications := s.db.notifications ++ [row] } }, .ok row)
      else
        (s.wait ω, .error .queryFailed)
  | .queueAdd _, s => (s.wait ω, .ok ())
  | .emit _, s => (s.wait ω, ())

end PlatformTasks
