import TaskPlatform.Cascade
import TaskPlatform.TaskService

/-! # Workspaces, projects and comments

    `src/modules/workspace/workspace.service.ts`, `project.service.ts`,
    `comment.service.ts` and the queries of `dashboard.controller.ts`, as programs
    over the operations they await.  Redis, the queues and the sockets are those of
    the task service (`ApiOp.task`); the database has one operation for each
    statement.

    `deleteWorkspace` and `deleteProject` remove rows, and Postgres removes what
    refers to them. -/

namespace PlatformApi

open AsyncProgram PlatformEntities PlatformTasks RowTable

/-! ## Operations -/

/-- A membership with its user. -/
structure LoadedMember where
  row : WorkspaceMember
  user : Option UserView
  deriving DecidableEq, Repr

/-- A comment with its user. -/
structure LoadedComment where
  row : Comment
  user : Option UserView
  deriving DecidableEq, Repr

/-- The values of a project before and after an update, for the audit log. -/
structure ProjectValues where
  name : String
  description : Option String
  status : String
  deriving DecidableEq, Repr

/-- The payloads of the audit log besides those of tasks. -/
inductive ApiAudit where
  | workspaceCreated (workspaceId slug : String)
  | workspaceUpdated (workspaceId previousName newName : String)
  | workspaceDeleted (workspaceId slug : String)
  | invited (workspaceId invitedUserId invitedUserEmail : String) (role : Role)
  | projectCreated (projectId workspaceId : String)
  | projectUpdated (projectId workspaceId : String) (previous new : ProjectValues)
  | projectDeleted (projectId workspaceId : String)
  | commented (commentId taskId workspaceId : String)

/-- The three hierarchy queries. -/
inductive SubtaskQuery where
  | tree
  | descendants
  | ancestors
  deriving DecidableEq, Repr

/-- What a hierarchy query returns: a tree (or `null`), or a list of rows. -/
inductive Hierarchy where
  | tree (node : Option TaskNode)
  | rows (rows : List TreeRow)

/-- The rows that the six queries of the dashboard count and group. -/
structure Counted where
  projects : List Project
  tasks : List Task
  deriving DecidableEq, Repr

/-- What the services under a workspace await. -/
inductive ApiOp where
  /-- Redis, clock, queues, sockets, and the statements of the task service. -/
  | task (op : TaskOp)
  | findWorkspaceById (id : String)
  | findWorkspaceBySlug (slug : String)
  /-- The transaction of `createWorkspace`. -/
  | insertWorkspace (name slug ownerId : String)
  | saveWorkspace (workspace : LoadedWorkspace)
  | removeWorkspace (id : String)
  | findMember (workspaceId userId : String)
  | findMembers (workspaceId : String)
  | saveMember (member : WorkspaceMember)
  | findUserByEmail (email : String)
  | findUserById (id : String)
  | sendMemberJoined (workspaceId : String) (role : Role) (user : UserView)
  | insertProject (workspaceId name : String) (description : Option String) (status : String)
  | findActiveProjects (workspaceId : String)
  | findProject (id workspaceId : String)
  | saveProject (project : Project)
  | removeProject (id : String)
  | findTask (id workspaceId : String)
  | insertComment (taskId userId message : String)
  | findComment (id : String)
  | findComments (taskId : String)
  | sendCommentCreated (workspaceId : String) (comment : Option LoadedComment)
  /-- Both statements of a call of the subtask service. -/
  | subtasks (query : SubtaskQuery) (taskId workspaceId : String)
  | count (workspaceId : String)
  | auditLog (action userId : String) (payload : ApiAudit)

/-- The answers. -/
abbrev ApiOp.Res : ApiOp → Type
  | .task op => op.Res
  | .findWorkspaceById _ => Option LoadedWorkspace
  | .findWorkspaceBySlug _ => Option LoadedWorkspace
  | .insertWorkspace _ _ _ => Except HttpError Workspace
  | .saveWorkspace _ => Except HttpError LoadedWorkspace
  | .removeWorkspace _ => Unit
  | .findMember _ _ => Option WorkspaceMember
  | .findMembers _ => List LoadedMember
  | .saveMember _ => Except HttpError WorkspaceMember
  | .findUserByEmail _ => Option UserView
  | .findUserById _ => Option UserView
  | .sendMemberJoined _ _ _ => Unit
  | .insertProject _ _ _ _ => Except HttpError Project
  | .findActiveProjects _ => List Project
  | .findProject _ _ => Option Project
  | .saveProject _ => Except HttpError Project
  | .removeProject _ => Unit
  | .findTask _ _ => Option Task
  | .insertComment _ _ _ => Except HttpError Comment
  | .findComment _ => Option LoadedComment
  | .findComments _ => List LoadedComment
  | .sendCommentCreated _ _ => Unit
  | .subtasks _ _ _ => Except HttpError Hierarchy
  | .count _ => Counted
  | .auditLog _ _ _ => Unit

/-- The methods of the services, as programs over these operations. -/
abbrev ApiProg := Prog ApiOp ApiOp.Res HttpError

/-- Await one operation. -/
abbrev ask (op : ApiOp) : ApiProg op.Res := Prog.perform op

/-- A program of the task service as a program of the API. -/
def liftTask {α : Type} : TaskProg α → ApiProg α
  | .done a => .done a
  | .fail e => .fail e
  | .await op k => .await (.task op) fun r => liftTask (k r)

/-- What the database answered, or its error thrown. -/
def orThrow {α : Type} : Except HttpError α → ApiProg α
  | .ok a => .done a
  | .error e => .fail e

/-- What the database found, or an exception. -/
def orNotFound {α : Type} (message : String) : Option α → ApiProg α
  | some a => .done a
  | none => .fail (.notFound message)

/-- `ActivityService.log`. -/
def activityLog (workspaceId entityType entityId action performedBy : String) :
    ApiProg Unit :=
  ask (.task (.activityLog workspaceId entityType entityId action performedBy))

section Issued

open Interleaving

variable {α : Type} {F : ApiOp → Prop}

/-- What a program of the task service issues, it issues here. -/
theorem onlyIssues_liftTask {p : TaskProg α} (h : OnlyIssues (fun op => F (.task op)) p) :
    OnlyIssues F (liftTask p) := by
  induction p with
  | done a => trivial
  | fail e => trivial
  | await op k ih => exact ⟨h.1, fun r => ih r (h.2 r)⟩

/-- Throwing an error issues nothing. -/
theorem onlyIssues_orThrow (r : Except HttpError α) : OnlyIssues F (orThrow r) := by
  cases r with
  | ok a => trivial
  | error e => trivial

/-- An exception for a missing row issues nothing. -/
theorem onlyIssues_orNotFound (message : String) (r : Option α) :
    OnlyIssues F (orNotFound message r) := by
  cases r with
  | some a => trivial
  | none => trivial

end Issued

/-! ## `WorkspaceService` -/

/-- `getCacheKey`: a workspace is kept under its id and under its slug. -/
def getCacheKey (idOrSlug : String) (isSlug : Bool) : String :=
  if isSlug then "workspace:slug:" ++ idOrSlug else "workspace:id:" ++ idOrSlug

/-- `toLowerCase` as far as it makes letters that a slug may hold: those of ASCII, the
    Kelvin sign, and a dotted capital I, which leaves a combining dot behind. -/
def toLowerCase (c : Char) : List Char :=
  if c = '\u212A' then ['k']
  else if c = '\u0130' then ['i', '\u0307']
  else [c.toLower]

/-- `[a-z0-9]`. -/
def inSlug (c : Char) : Bool := ('a' ≤ c && c ≤ 'z') || ('0' ≤ c && c ≤ '9')

/-- `.replace(/[^a-z0-9]+/g, '-')`: a dash for every run of other characters.  `pending`
    says whether the run at hand has its dash. -/
def dashed : (pending : Bool) → List Char → List Char
  | _, [] => []
  | pending, c :: rest =>
      if inSlug c then c :: dashed false rest
      else if pending then dashed true rest
      else '-' :: dashed true rest

/-- `.replace(/(^-|-$)+/g, '')`. -/
def trimDashes (l : List Char) : List Char :=
  let dropDash : List Char → List Char
    | '-' :: rest => rest
    | rest => rest
  (dropDash (dropDash l).reverse).reverse

/-- The slug that `createWorkspace` makes of a name. -/
def slugOf (name : String) : String :=
  String.ofList (trimDashes (dashed false (name.toList.flatMap toLowerCase)))

example : slugOf "Büro!" = "b-ro" := by decide

/-- `createWorkspace`. -/
def createWorkspace (ownerId name : String) (slug : Option String) :
    ApiProg LoadedWorkspace := do
  let workspaceSlug := (truthy slug).getD (slugOf name)
  let existing ← ask (.findWorkspaceBySlug workspaceSlug)
  match existing with
  | some _ => .fail (.conflict
      "A workspace with this slug already exists. Please choose a different slug or name.")
  | none => do
      let answer ← ask (.insertWorkspace name workspaceSlug ownerId)
      let savedWorkspace ← orThrow answer
      ask (.auditLog "WORKSPACE_CREATE" ownerId
        (.workspaceCreated savedWorkspace.id workspaceSlug))
      .done ⟨savedWorkspace, none⟩

/-- The common shape of `findById` and `findBySlug`.  Only workspaces are ever put under
    these keys. -/
def findWorkspace (cacheKey : String) (query : ApiOp)
    (found : query.Res → Option LoadedWorkspace) : ApiProg LoadedWorkspace := do
  let cached ← ask (.task (.cacheGet cacheKey))
  match cached with
  | some (.workspace cached) => .done cached
  | _ => do
      let answer ← ask query
      let workspace ← orNotFound "Workspace not found" (found answer)
      ask (.task (.cacheSet cacheKey (.workspace workspace) 3600))
      .done workspace

/-- `findById`. -/
def findById (id : String) : ApiProg LoadedWorkspace :=
  findWorkspace (getCacheKey id false) (.findWorkspaceById id) fun w => w

/-- `findBySlug`. -/
def findBySlug (slug : String) : ApiProg LoadedWorkspace :=
  findWorkspace (getCacheKey slug true) (.findWorkspaceBySlug slug) fun w => w

/-- `findById` asks the cache, the database, and fills the cache. -/
theorem onlyIssues_findById {F : ApiOp → Prop} (hget : ∀ key, F (.task (.cacheGet key)))
    (hset : ∀ key workspace ttl, F (.task (.cacheSet key (.workspace workspace) ttl)))
    (hfind : ∀ id, F (.findWorkspaceById id)) (id : String) :
    Interleaving.OnlyIssues F (findById id) := by
  have hdatabase : Interleaving.OnlyIssues F (do
      let answer ← ask (.findWorkspaceById id)
      let workspace ← orNotFound "Workspace not found" answer
      ask (.task (.cacheSet (getCacheKey id false) (.workspace workspace) 3600))
      Prog.done workspace) := by
    refine ⟨hfind id, ?_⟩
    intro answer
    cases answer with
    | none => trivial
    | some workspace => exact ⟨hset _ _ _, fun _ => trivial⟩
  simp only [findById, findWorkspace, Prog.perform_bind]
  refine ⟨hget _, ?_⟩
  intro cached
  dsimp only
  split
  · trivial
  · exact hdatabase

/-- `cacheService.del` of both keys of a workspace. -/
def dropWorkspace (id : String) (workspace : LoadedWorkspace) : ApiProg Unit := do
  ask (.task (.cacheDel (getCacheKey id false)))
  ask (.task (.cacheDel (getCacheKey workspace.row.slug true)))

/-- `updateWorkspace`. -/
def updateWorkspace (id userId name : String) : ApiProg LoadedWorkspace := do
  let workspace ← findById id
  let answer ← ask (.saveWorkspace
    { workspace with row := { workspace.row with name := name } })
  let saved ← orThrow answer
  dropWorkspace id workspace
  ask (.auditLog "WORKSPACE_UPDATE" userId
    (.workspaceUpdated id workspace.row.name name))
  .done saved

/-- `deleteWorkspace`. -/
def deleteWorkspace (id userId : String) : ApiProg Unit := do
  let workspace ← findById id
  ask (.removeWorkspace workspace.row.id)
  dropWorkspace id workspace
  ask (.auditLog "WORKSPACE_DELETE" userId (.workspaceDeleted id workspace.row.slug))

/-- `inviteMember`.  Between the check for a membership and its `save` there are other
    awaits. -/
def inviteMember (workspaceId performerId email : String) (role : Role) :
    ApiProg WorkspaceMember := do
  let workspace ← findById workspaceId
  let found ← ask (.findUserByEmail email)
  let user ← orNotFound "User with this email not found. They must register first." found
  let existingMember ← ask (.findMember workspaceId user.id)
  match existingMember with
  | some _ => .fail (.conflict "User is already a member of this workspace")
  | none => do
      let answer ← ask (.saveMember ⟨workspaceId, user.id, role⟩)
      let savedMember ← orThrow answer
      let invited ← ask (.findUserById user.id)
      let invitedUser ← orNotFound "User not found" invited
      ask (.sendMemberJoined workspaceId role invitedUser)
      let _ ← liftTask (createAndSendNotification user.id "WORKSPACE_MEMBER_JOINED"
        ("Joined Workspace: " ++ workspace.row.name)
        ("You have been added to the workspace \"" ++ workspace.row.name ++ "\" as a "
          ++ role.text ++ "."))
      ask (.auditLog "WORKSPACE_INVITE" performerId
        (.invited workspaceId user.id email role))
      .done savedMember

/-- `getMembers`. -/
def getMembers (workspaceId : String) : ApiProg (List LoadedMember) :=
  ask (.findMembers workspaceId)

/-! ## `ProjectService` -/

/-- The key of the projects of a workspace. -/
def getProjectsCacheKey (workspaceId : String) : String :=
  "workspace:" ++ workspaceId ++ ":projects"

/-- `createProject`. -/
def createProject (workspaceId userId name : String) (description : Option String) :
    ApiProg Project := do
  let answer ← ask (.insertProject workspaceId name description "ACTIVE")
  let saved ← orThrow answer
  ask (.task (.cacheDel (getProjectsCacheKey workspaceId)))
  ask (.auditLog "PROJECT_CREATE" userId (.projectCreated saved.id workspaceId))
  activityLog workspaceId "PROJECT" saved.id "PROJECT_CREATED" userId
  .done saved

/-- Only project lists are ever put under this key. -/
def getProjects (workspaceId : String) : ApiProg (List Project) := do
  let cached ← ask (.task (.cacheGet (getProjectsCacheKey workspaceId)))
  match cached with
  | some (.projects cached) => .done cached
  | _ => do
      let projects ← ask (.findActiveProjects workspaceId)
      ask (.task (.cacheSet (getProjectsCacheKey workspaceId) (.projects projects) 300))
      .done projects

/-- `findById`. -/
def findProjectById (id workspaceId : String) : ApiProg Project := do
  let found ← ask (.findProject id workspaceId)
  orNotFound "Project not found in this workspace" found

/-- `updateProject`: fields that are left out stay. -/
def updateProject (id workspaceId userId : String) (name : Option String)
    (description : Option String) (status : Option String) : ApiProg Project := do
  let project ← findProjectById id workspaceId
  let edited : Project :=
    { project with
      name := name.getD project.name
      description := description <|> project.description
      status := status.getD project.status }
  let answer ← ask (.saveProject edited)
  let saved ← orThrow answer
  ask (.task (.cacheDel (getProjectsCacheKey workspaceId)))
  ask (.auditLog "PROJECT_UPDATE" userId (.projectUpdated id workspaceId
    ⟨project.name, project.description, project.status⟩
    ⟨edited.name, edited.description, edited.status⟩))
  activityLog workspaceId "PROJECT" id "PROJECT_UPDATED" userId
  .done saved

/-- `deleteProject`. -/
def deleteProject (id workspaceId userId : String) : ApiProg Unit := do
  let project ← findProjectById id workspaceId
  ask (.removeProject project.id)
  ask (.task (.cacheDel (getProjectsCacheKey workspaceId)))
  ask (.auditLog "PROJECT_DELETE" userId (.projectDeleted id workspaceId))
  activityLog workspaceId "PROJECT" id "PROJECT_DELETED" userId

/-! ## `CommentService` -/

/-- The assignee and the creator of a task, without the commenter, each once. -/
def commentTargets (task : Task) (userId : String) : List String :=
  let assignee := (truthy task.assignedTo).toList.filter fun u => u ≠ userId
  if task.createdBy ≠ userId ∧ task.createdBy ∉ assignee then
    assignee ++ [task.createdBy]
  else
    assignee

/-- The start of a message in a notification. -/
def excerpt (message : String) : String :=
  substring message 50 ++ (if utf16Length message > 50 then "..." else "")

/-- One notification after the other. -/
def notifyAll (task : Task) (message : String) : List String → ApiProg Unit
  | [] => .done ()
  | target :: rest => do
      let _ ← liftTask (createAndSendNotification target "COMMENT_ADDED"
        ("New Comment on: " ++ task.title)
        ("A new comment was added to the task \"" ++ task.title ++ "\": \""
          ++ excerpt message ++ "\""))
      notifyAll task message rest

/-- `addComment`.  The notifications come last, so a failing one leaves the comment behind. -/
def addComment (workspaceId taskId userId message : String) : ApiProg Comment := do
  let found ← ask (.findTask taskId workspaceId)
  let task ← orNotFound "Task not found in this workspace" found
  let answer ← ask (.insertComment taskId userId message)
  let saved ← orThrow answer
  let savedWithUser ← ask (.findComment saved.id)
  ask (.sendCommentCreated workspaceId savedWithUser)
  ask (.auditLog "COMMENT_CREATE" userId (.commented saved.id taskId workspaceId))
  activityLog workspaceId "TASK" taskId "COMMENT_ADDED" userId
  notifyAll task message (commentTargets task userId)
  .done saved

/-- `getComments`: only for a task of the workspace. -/
def getComments (taskId workspaceId : String) : ApiProg (List LoadedComment) := do
  let found ← ask (.findTask taskId workspaceId)
  let _ ← orNotFound "Task not found in this workspace" found
  ask (.findComments taskId)

/-! ## The statements -/

section Statements

variable (db : Database)

/-- A workspace with its owner. -/
def loadWorkspace (w : Workspace) : LoadedWorkspace := ⟨w, findUser db w.ownerId⟩

/-- The row a workspace object stands for; the join column is written from the loaded
    owner. -/
def LoadedWorkspace.toRow (w : LoadedWorkspace) : Workspace :=
  { w.row with
    ownerId :=
      match w.owner with
      | some u => u.id
      | none => w.row.ownerId }

/-- `save` of a workspace object: update of its row, or an insert if the row is gone.
    The slug is unique and the owner a user. -/
def saveWorkspace (w : LoadedWorkspace) : Except HttpError (Database × LoadedWorkspace) :=
  let row := LoadedWorkspace.toRow w
  if db.workspaces.any (fun w' => w'.slug = row.slug && w'.id ≠ row.id)
      || !db.users.any (fun u => u.id = row.ownerId) then
    .error .queryFailed
  else
    .ok ({ db with workspaces := upsert Workspace.id row db.workspaces }, w)

/-- The primary key of `workspace_members`. -/
def memberKey (m : WorkspaceMember) : String × String := (m.workspaceId, m.userId)

/-- Both inserts, or neither: the workspace with a generated id, and its owner as a
    member with the role `ADMIN`. -/
def insertWorkspace (newId name slug ownerId : String) :
    Except HttpError (Database × Workspace) :=
  let row : Workspace := ⟨newId, name, slug, ownerId⟩
  if newId ≠ "" && (lookup Workspace.id newId db.workspaces).isNone
      && !db.workspaces.any (fun w => w.slug = slug)
      && db.users.any (fun u => u.id = ownerId) then
    .ok ({ db with
      workspaces := db.workspaces ++ [row]
      members := upsert memberKey ⟨newId, ownerId, .admin⟩ db.members }, row)
  else
    .error .queryFailed

/-- `findOne` by the primary key. -/
def findMember (workspaceId userId : String) : Option WorkspaceMember :=
  lookup memberKey (workspaceId, userId) db.members

/-- The members of a workspace, with their users. -/
def findMembers (workspaceId : String) : List LoadedMember :=
  (db.members.filter fun m => m.workspaceId = workspaceId).map fun m =>
    ⟨m, findUser db m.userId⟩

/-- `save` of a membership: the row of its key is overwritten, or a new one added. -/
def saveMember (m : WorkspaceMember) : Except HttpError (Database × WorkspaceMember) :=
  if db.workspaces.any (fun w => w.id = m.workspaceId)
      && db.users.any (fun u => u.id = m.userId) then
    .ok ({ db with members := upsert memberKey m db.members }, m)
  else
    .error .queryFailed

/-- `INSERT` of a project: a generated id, in a workspace that exists. -/
def insertProject (newId : String) (now : Nat) (workspaceId name : String)
    (description : Option String) (status : String) :
    Except HttpError (Database × Project) :=
  let row : Project := ⟨newId, workspaceId, name, description, status, now⟩
  if newId ≠ "" && (lookup Project.id newId db.projects).isNone
      && db.workspaces.any (fun w => w.id = workspaceId) then
    .ok ({ db with projects := db.projects ++ [row] }, row)
  else
    .error .queryFailed

/-- The active projects of a workspace, newest first. -/
def findActiveProjects (workspaceId : String) : List Project :=
  (db.projects.filter fun p => p.workspaceId = workspaceId && p.status = "ACTIVE").insertionSort
    fun a b => b.createdAt ≤ a.createdAt

/-- `findOne` of a project by its id and its workspace. -/
def findProject (id workspaceId : String) : Option Project :=
  db.projects.find? fun p => p.id = id && p.workspaceId = workspaceId

/-- `save` of a project object: update of its row, or an insert if the row is gone. -/
def saveProject (p : Project) : Except HttpError (Database × Project) :=
  if db.workspaces.any (fun w => w.id = p.workspaceId) then
    .ok ({ db with projects := upsert Project.id p db.projects }, p)
  else
    .error .queryFailed

/-- `findOne({ where: { id, workspaceId } })` on tasks, without relations. -/
def findTask (id workspaceId : String) : Option Task :=
  db.tasks.find? fun t => t.id = id && t.workspaceId = workspaceId && t.deletedAt.isNone

/-- `INSERT` of a comment: a generated id, on a task that exists, by a user who does. -/
def insertComment (newId : String) (now : Nat) (taskId userId message : String) :
    Except HttpError (Database × Comment) :=
  let row : Comment := ⟨newId, taskId, userId, message, now⟩
  if newId ≠ "" && (lookup Comment.id newId db.comments).isNone
      && db.tasks.any (fun t => t.id = taskId) && db.users.any (fun u => u.id = userId) then
    .ok ({ db with comments := db.comments ++ [row] }, row)
  else
    .error .queryFailed

/-- A comment with its author. -/
def loadComment (c : Comment) : LoadedComment := ⟨c, findUser db c.userId⟩

/-- The comments on a task, oldest first. -/
def findComments (taskId : String) : List LoadedComment :=
  ((db.comments.filter fun c => c.taskId = taskId).insertionSort
    fun a b => a.createdAt ≤ b.createdAt).map (loadComment db)

/-- The two statements of a hierarchy call.  A query that is not through after as many
    rounds as there are tasks is given up. -/
def hierarchy (order : RowOrder) (query : SubtaskQuery) (taskId workspaceId : String) :
    Except HttpError Hierarchy :=
  let rounds := db.tasks.length
  match query with
  | .tree =>
      match getTaskTree order rounds db taskId workspaceId with
      | some answer => answer.map .tree
      | none => .error .queryFailed
  | .descendants =>
      match getDescendants order rounds db taskId workspaceId with
      | some answer => answer.map .rows
      | none => .error .queryFailed
  | .ancestors =>
      match getAncestors order rounds db taskId workspaceId with
      | some answer => answer.map .rows
      | none => .error .queryFailed

/-- What the queries of `getSummary` select for a workspace: its projects, and its live
    tasks. -/
def countedRows (workspaceId : String) : Counted where
  projects := db.projects.filter fun p => p.workspaceId = workspaceId
  tasks := db.tasks.filter fun t => t.workspaceId = workspaceId && t.deletedAt.isNone

end Statements

/-- The user is a member of the workspace. -/
def IsMember (db : Database) (userId workspaceId : String) : Prop :=
  ∃ m ∈ db.members, m.workspaceId = workspaceId ∧ m.userId = userId

instance (db : Database) (userId workspaceId : String) :
    Decidable (IsMember db userId workspaceId) :=
  inferInstanceAs (Decidable (∃ m ∈ db.members, _))

/-! ### What a statement that goes through does -/

section Inversions

variable {db db' : Database}

/-- A new workspace has a new id, and its owner as a member. -/
theorem insertWorkspace_ok {newId name slug ownerId : String} {w : Workspace}
    (h : insertWorkspace db newId name slug ownerId = .ok (db', w)) :
    newId ≠ "" ∧ lookup Workspace.id newId db.workspaces = none ∧
      w = ⟨newId, name, slug, ownerId⟩ ∧
      db' = { db with
        workspaces := db.workspaces ++ [w]
        members := upsert memberKey ⟨newId, ownerId, .admin⟩ db.members } := by
  unfold insertWorkspace at h
  split at h
  · rename_i hc
    rw [Bool.and_eq_true, Bool.and_eq_true, Bool.and_eq_true,
      Option.isNone_iff_eq_none] at hc
    cases h
    exact ⟨of_decide_eq_true hc.1.1.1, hc.1.1.2, rfl, rfl⟩
  · cases h

/-- A saved workspace is in the table, and handed back as it was given. -/
theorem saveWorkspace_ok {w saved : LoadedWorkspace}
    (h : saveWorkspace db w = .ok (db', saved)) :
    db' = { db with
      workspaces := upsert Workspace.id (LoadedWorkspace.toRow w) db.workspaces } ∧
      saved = w := by
  simp only [saveWorkspace] at h
  split at h
  · cases h
  · cases h
    exact ⟨rfl, rfl⟩

/-- A membership that was saved is one in a workspace that exists. -/
theorem saveMember_ok {m saved : WorkspaceMember}
    (h : saveMember db m = .ok (db', saved)) :
    (∃ w ∈ db.workspaces, w.id = m.workspaceId) ∧
      db' = { db with members := upsert memberKey m db.members } ∧ saved = m := by
  unfold saveMember at h
  split at h
  · rename_i hc
    rw [Bool.and_eq_true, List.any_eq_true] at hc
    obtain ⟨⟨w, hw, hid⟩, -⟩ := hc
    cases h
    exact ⟨⟨w, hw, of_decide_eq_true hid⟩, rfl, rfl⟩
  · cases h

/-- A new project has a new id and a workspace. -/
theorem insertProject_ok {newId workspaceId name status : String} {now : Nat}
    {description : Option String} {p : Project}
    (h : insertProject db newId now workspaceId name description status = .ok (db', p)) :
    newId ≠ "" ∧ lookup Project.id newId db.projects = none ∧
      (∃ w ∈ db.workspaces, w.id = workspaceId) ∧
      p = ⟨newId, workspaceId, name, description, status, now⟩ ∧
      db' = { db with projects := db.projects ++ [p] } := by
  unfold insertProject at h
  dsimp only at h
  split at h
  · rename_i hc
    rw [Bool.and_eq_true, Bool.and_eq_true, Option.isNone_iff_eq_none,
      List.any_eq_true] at hc
    obtain ⟨⟨hid, hnew⟩, w, hw, hwid⟩ := hc
    cases h
    exact ⟨of_decide_eq_true hid, hnew, ⟨w, hw, of_decide_eq_true hwid⟩, rfl, rfl⟩
  · cases h

/-- A saved project is in the table, and handed back as it was given. -/
theorem saveProject_ok {p saved : Project} (h : saveProject db p = .ok (db', saved)) :
    db' = { db with projects := upsert Project.id p db.projects } ∧ saved = p := by
  unfold saveProject at h
  split at h
  · cases h
    exact ⟨rfl, rfl⟩
  · cases h

/-- A new comment is on the task of the request. -/
theorem insertComment_ok {newId taskId userId message : String} {now : Nat} {c : Comment}
    (h : insertComment db newId now taskId userId message = .ok (db', c)) :
    c.taskId = taskId ∧ db' = { db with comments := db.comments ++ [c] } := by
  unfold insertComment at h
  dsimp only at h
  split at h
  · cases h
    exact ⟨rfl, rfl⟩
  · cases h

end Inversions

/-- The state after a statement that may be rejected. -/
def commit {α : Type} (s : TaskState) :
    Except HttpError (Database × α) → TaskState × Except HttpError α
  | .ok (db, a) => ({ s with db := db }, .ok a)
  | .error e => (s, .error e)

/-- What Postgres decides by itself: its text configuration, and the order of rows. -/
structure Postgres where
  text : PostgresText
  order : RowOrder


/-- Rows as they are stored, and plain text search. -/
def plainPostgres : Postgres := ⟨plainText, asStored⟩

/-- The operations. -/
def apiExec (pg : Postgres) (ω : Choice) :
    (op : ApiOp) → TaskState → TaskState × op.Res
  | .task op, s => exec pg.text ω op s
  | .findWorkspaceById id, s =>
      (s.wait ω, (s.db.workspaces.find? fun w => w.id = id).map (loadWorkspace s.db))
  | .findWorkspaceBySlug slug, s =>
      (s.wait ω, (s.db.workspaces.find? fun w => w.slug = slug).map (loadWorkspace s.db))
  | .insertWorkspace name slug ownerId, s =>
      commit (s.wait ω) (insertWorkspace s.db ω.newId name slug ownerId)
  | .saveWorkspace w, s => commit (s.wait ω) (saveWorkspace s.db w)
  | .removeWorkspace id, s => ({ s.wait ω with db := removeWorkspace s.db id }, ())
  | .findMember workspaceId userId, s => (s.wait ω, findMember s.db workspaceId userId)
  | .findMembers workspaceId, s => (s.wait ω, findMembers s.db workspaceId)
  | .saveMember m, s => commit (s.wait ω) (saveMember s.db m)
  | .findUserByEmail email, s =>
      (s.wait ω, (s.db.users.find? fun u => u.email = email).map User.view)
  | .findUserById id, s => (s.wait ω, findUser s.db id)
  | .sendMemberJoined _ _ _, s => (s.wait ω, ())
  | .insertProject workspaceId name description status, s =>
      commit (s.wait ω) (insertProject s.db ω.newId (s.now + ω.elapsed) workspaceId name
        description status)
  | .findActiveProjects workspaceId, s => (s.wait ω, findActiveProjects s.db workspaceId)
  | .findProject id workspaceId, s => (s.wait ω, findProject s.db id workspaceId)
  | .saveProject p, s => commit (s.wait ω) (saveProject s.db p)
  | .removeProject id, s => ({ s.wait ω with db := removeProject s.db id }, ())
  | .findTask id workspaceId, s => (s.wait ω, findTask s.db id workspaceId)
  | .insertComment taskId userId message, s =>
      commit (s.wait ω) (insertComment s.db ω.newId (s.now + ω.elapsed) taskId userId
        message)
  | .findComment id, s =>
      (s.wait ω, (s.db.comments.find? fun c => c.id = id).map (loadComment s.db))
  | .findComments taskId, s => (s.wait ω, findComments s.db taskId)
  | .sendCommentCreated _ _, s => (s.wait ω, ())
  | .subtasks query taskId workspaceId, s =>
      (s.wait ω, hierarchy s.db pg.order query taskId workspaceId)
  | .count workspaceId, s => (s.wait ω, countedRows s.db workspaceId)
  | .auditLog _ _ _, s => (s.wait ω, ())

end PlatformApi
