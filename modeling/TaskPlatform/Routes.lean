import TaskPlatform.WorkspaceService

/-! # Guards and routes

    `RoleGuard` and `PermissionGuard` of `src/common/guards`, and the handlers of all
    controllers that `RoleGuard` protects.

    The guards look for a workspace in the path, the query string, the headers and
    the body, in this order; each handler takes it from its own path parameter. -/

namespace PlatformApi

open AsyncProgram PlatformEntities PlatformTasks RowTable

/-! ## Requests -/

/-- A value in a request: absent (or anything JavaScript takes for false), a text, or
    something else, such as an array or an object. -/
inductive Param where
  | undefined
  | text (s : String)
  | other
  deriving DecidableEq, Repr

/-- `a || b`. -/
def Param.or (a b : Param) : Param :=
  match a with
  | .undefined => b
  | .text s => if s = "" then b else a
  | .other => a

/-- What one part of a request says about the workspace. -/
structure Named where
  workspaceId : Param := .undefined
  slug : Param := .undefined
  deriving DecidableEq, Repr

/-- The payload of a verified access token. -/
structure AuthUser where
  userId : String
  email : String
  deriving DecidableEq, Repr

/-- The parts of a request that the guards read.  `user` is what `JwtAuthGuard` left
    there. -/
structure Request where
  user : Option AuthUser
  params : Named
  query : Named
  headers : Named
  body : Named
  deriving DecidableEq, Repr

/-- `request.params.workspaceId || request.query.workspaceId ||
    request.headers['x-workspace-id'] || request.body?.workspaceId`. -/
def Request.workspaceId (r : Request) : Param :=
  r.params.workspaceId.or (r.query.workspaceId.or
    (r.headers.workspaceId.or r.body.workspaceId))

/-- The slug: out of the path, or else the query, the headers, the body. -/
def Request.slug (r : Request) : Param :=
  r.params.slug.or (r.query.slug.or (r.headers.slug.or r.body.slug))

/-! ## Guards -/

/-- What a guard attaches to the request. -/
structure Attached where
  workspaceId : String
  member : WorkspaceMember
  deriving DecidableEq, Repr

/-- The workspace id, or else the id of the workspace of the slug; absent if neither
    names one.  A value that is no text is one that Postgres rejects. -/
def resolveWorkspace (r : Request) : ApiProg (Option String) :=
  match r.workspaceId with
  | .text id => if id = "" then resolveSlug else .done (some id)
  | .other => .fail .queryFailed
  | .undefined => resolveSlug
where
  resolveSlug : ApiProg (Option String) :=
    match r.slug with
    | .text slug =>
        if slug = "" then .done none
        else do
          let workspace ← ask (.findWorkspaceBySlug slug)
          .done (workspace.map fun w => w.row.id)
    | .other => .fail .queryFailed
    | .undefined => .done none

/-- The membership of the user, or an exception. -/
def checkMember (workspaceId userId : String) : ApiProg WorkspaceMember := do
  let member ← ask (.findMember workspaceId userId)
  match member with
  | some member => .done member
  | none => .fail (.forbidden "You are not a member of this workspace")

/-- `RoleGuard.canActivate`; what it attaches, if it lets the request pass. -/
def roleGuard (requiredRoles : Option (List Role)) (r : Request) :
    ApiProg (Option Attached) :=
  match r.user with
  | none => .fail (.forbidden "User context not found in request")
  | some user => do
      let workspaceId ← resolveWorkspace r
      match workspaceId with
      | none =>
          match requiredRoles with
          | none => .done none
          | some _ => .fail (.badRequest
              "Workspace context (workspaceId or slug) is required for this route")
      | some workspaceId => do
          let member ← checkMember workspaceId user.userId
          match requiredRoles with
          | none => .done (some ⟨workspaceId, member⟩)
          | some roles =>
              if roles = [] ∨ member.role ∈ roles then .done (some ⟨workspaceId, member⟩)
              else .fail (.forbidden ("Access denied. Required role(s): "
                ++ ", ".intercalate (roles.map Role.text)))

/-- `Permission`. -/
inductive Permission where
  | workspaceCreate
  | workspaceUpdate
  | workspaceDelete
  | workspaceInvite
  | projectCreate
  | projectUpdate
  | projectDelete
  | taskCreate
  | taskAssign
  | taskUpdate
  | taskDelete
  deriving DecidableEq, Repr

/-- The text of the enumeration. -/
def Permission.text : Permission → String
  | .workspaceCreate => "workspace:create"
  | .workspaceUpdate => "workspace:update"
  | .workspaceDelete => "workspace:delete"
  | .workspaceInvite => "workspace:invite"
  | .projectCreate => "project:create"
  | .projectUpdate => "project:update"
  | .projectDelete => "project:delete"
  | .taskCreate => "task:create"
  | .taskAssign => "task:assign"
  | .taskUpdate => "task:update"
  | .taskDelete => "task:delete"

/-- `ROLE_PERMISSIONS`; an administrator has all of them. -/
def rolePermissions : Role → List Permission
  | .admin =>
      [.workspaceCreate, .workspaceUpdate, .workspaceDelete, .workspaceInvite,
        .projectCreate, .projectUpdate, .projectDelete,
        .taskCreate, .taskAssign, .taskUpdate, .taskDelete]
  | .member => [.projectCreate, .projectUpdate, .taskCreate, .taskAssign, .taskUpdate]

/-- The last check of `PermissionGuard`. -/
def checkPermissions (required : List Permission) (attached : Attached) :
    ApiProg (Option Attached) :=
  if required.all fun perm => perm ∈ rolePermissions attached.member.role then
    .done (some attached)
  else
    .fail (.forbidden ("Access denied. Required permission(s): "
      ++ ", ".intercalate (required.map Permission.text)))

/-- `PermissionGuard.canActivate`.  It uses what `RoleGuard` attached, or resolves the
    workspace itself. -/
def permissionGuard (required : List Permission) (r : Request)
    (attached : Option Attached) : ApiProg (Option Attached) :=
  if required = [] then .done attached
  else
    match r.user with
    | none => .fail (.forbidden "User context not found in request")
    | some user =>
        match attached with
        | some attached => checkPermissions required attached
        | none => do
            let workspaceId ← resolveWorkspace r
            match workspaceId with
            | none =>
                .fail (.badRequest "Workspace context is required for permission check")
            | some workspaceId => do
                let member ← checkMember workspaceId user.userId
                checkPermissions required ⟨workspaceId, member⟩

/-! ## Routes -/

/-- A segment of the path: it is never empty. -/
structure Segment where
  text : String
  nonempty : text ≠ ""

/-- The routes that `RoleGuard` protects, with their path parameters and bodies. -/
inductive Route where
  | createTask (workspaceId projectId : Segment) (dto : CreateTaskDto)
  | listTasks (workspaceId projectId : Segment) (query : QueryTaskDto)
  | getTask (workspaceId taskId : Segment)
  | updateTask (workspaceId taskId : Segment) (dto : UpdateTaskDto)
  | deleteTask (workspaceId taskId : Segment)
  | presignAttachment (workspaceId taskId : Segment) (uuid filename : String)
  | getTree (workspaceId taskId : Segment)
  | getDescendants (workspaceId taskId : Segment)
  | getAncestors (workspaceId taskId : Segment)
  | createProject (workspaceId : Segment) (name : String) (description : Option String)
  | listProjects (workspaceId : Segment)
  | getProject (workspaceId projectId : Segment)
  | updateProject (workspaceId projectId : Segment) (name description status : Option String)
  | deleteProject (workspaceId projectId : Segment)
  | addComment (workspaceId taskId : Segment) (message : String)
  | listComments (workspaceId taskId : Segment)
  | dashboardSummary (workspaceId : Segment)
  | getById (workspaceId : Segment)
  | updateWorkspace (workspaceId : Segment) (name : String)
  | deleteWorkspace (workspaceId : Segment)
  | inviteMember (workspaceId : Segment) (email : String) (role : Role)
  | getMembers (workspaceId : Segment)
  | getBySlug (slug : Segment)

/-- The path parameter that names the workspace: an id, but for `slug/:slug`. -/
def Route.workspace : Route → Segment ⊕ Segment
  | .getBySlug slug => .inr slug
  | .createTask w _ _ | .listTasks w _ _ | .getTask w _ | .updateTask w _ _
  | .deleteTask w _ | .presignAttachment w _ _ _ | .getTree w _ | .getDescendants w _
  | .getAncestors w _ | .createProject w _ _ | .listProjects w | .getProject w _
  | .updateProject w _ _ _ _ | .deleteProject w _ | .addComment w _ _
  | .listComments w _ | .dashboardSummary w | .getById w | .updateWorkspace w _
  | .deleteWorkspace w | .inviteMember w _ _ | .getMembers w => .inl w

/-- `request.params`. -/
def Route.params (route : Route) : Named :=
  match route.workspace with
  | .inl w => { workspaceId := .text w.text }
  | .inr slug => { slug := .text slug.text }

/-- `@Permissions(..)`; no route has `@Roles(..)`. -/
def Route.permissions : Route → List Permission
  | .createTask _ _ _ => [.taskCreate]
  | .updateTask _ _ _ => [.taskUpdate]
  | .deleteTask _ _ => [.taskDelete]
  | .createProject _ _ _ => [.projectCreate]
  | .updateProject _ _ _ _ _ => [.projectUpdate]
  | .deleteProject _ _ => [.projectDelete]
  | .updateWorkspace _ _ => [.workspaceUpdate]
  | .deleteWorkspace _ => [.workspaceDelete]
  | .inviteMember _ _ _ => [.workspaceInvite]
  | _ => []

/-- What a handler returns. -/
inductive Reply where
  | task (reply : TaskReply)
  | presigned (key : String)
  | hierarchy (hierarchy : Hierarchy)
  | project (project : Project)
  | projects (projects : List Project)
  | comment (comment : Comment)
  | comments (comments : List LoadedComment)
  | summary (counted : Counted)
  | workspace (workspace : LoadedWorkspace)
  | member (member : WorkspaceMember)
  | members (members : List LoadedMember)
  | empty

/-- The handler of a route, for the user of the request. -/
def Route.handler (userId : String) : Route → ApiProg Reply
  | .createTask w p dto =>
      Reply.task <$> liftTask (TaskCall.createTask w.text p.text userId dto).prog
  | .listTasks w p query =>
      Reply.task <$> liftTask (TaskCall.getTasks w.text p.text query).prog
  | .getTask w t => Reply.task <$> liftTask (TaskCall.findById t.text w.text).prog
  | .updateTask w t dto =>
      Reply.task <$> liftTask (TaskCall.updateTask t.text w.text userId dto).prog
  | .deleteTask w t =>
      Reply.task <$> liftTask (TaskCall.deleteTask t.text w.text userId).prog
  | .presignAttachment w t uuid filename =>
      .done (.presigned ("workspaces/" ++ w.text ++ "/tasks/" ++ t.text ++ "/" ++ uuid
        ++ "-" ++ filename))
  | .getTree w t => subtaskHandler .tree w t
  | .getDescendants w t => subtaskHandler .descendants w t
  | .getAncestors w t => subtaskHandler .ancestors w t
  | .createProject w name description =>
      Reply.project <$> PlatformApi.createProject w.text userId name description
  | .listProjects w => Reply.projects <$> getProjects w.text
  | .getProject w p => Reply.project <$> findProjectById p.text w.text
  | .updateProject w p name description status =>
      Reply.project <$> PlatformApi.updateProject p.text w.text userId name description
        status
  | .deleteProject w p =>
      (fun _ => Reply.empty) <$> PlatformApi.deleteProject p.text w.text userId
  | .addComment w t message =>
      Reply.comment <$> PlatformApi.addComment w.text t.text userId message
  | .listComments w t => Reply.comments <$> getComments t.text w.text
  | .dashboardSummary w => Reply.summary <$> ask (.count w.text)
  | .getById w => Reply.workspace <$> PlatformApi.findById w.text
  | .updateWorkspace w name =>
      Reply.workspace <$> PlatformApi.updateWorkspace w.text userId name
  | .deleteWorkspace w =>
      (fun _ => Reply.empty) <$> PlatformApi.deleteWorkspace w.text userId
  | .inviteMember w email role =>
      Reply.member <$> PlatformApi.inviteMember w.text userId email role
  | .getMembers w => Reply.members <$> PlatformApi.getMembers w.text
  | .getBySlug slug => Reply.workspace <$> findBySlug slug.text
where
  subtaskHandler (query : SubtaskQuery) (w t : Segment) : ApiProg Reply := do
    let answer ← ask (.subtasks query t.text w.text)
    Reply.hierarchy <$> orThrow answer

/-- A request to one of the routes. -/
structure ApiRequest where
  route : Route
  user : Option AuthUser
  query : Named := {}
  headers : Named := {}
  body : Named := {}

/-- What the guards see of it. -/
def ApiRequest.request (r : ApiRequest) : Request :=
  ⟨r.user, r.route.params, r.query, r.headers, r.body⟩

/-- The guards in their order, and then the handler.  `JwtAuthGuard` is the verified user
    or none. -/
def handle (r : ApiRequest) : ApiProg Reply :=
  match r.user with
  | none => .fail (.unauthorized "Invalid or expired access token")
  | some user => do
      let attached ← roleGuard none r.request
      let _ ← permissionGuard r.route.permissions r.request attached
      r.route.handler user.userId

end PlatformApi
