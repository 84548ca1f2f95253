import TaskPlatform.ApiRoutes
import TaskPlatform.CacheTransparency
import TaskPlatform.LiveViews
import TaskPlatform.NotificationInbox
import TaskPlatform.TagCache

/-! # The queries and mutations of the web client

    The endpoints of `src/frontend/src/app/api/endpoints.ts` that show or change what belongs
    to a workspace, and those of the notifications: the tags that they provide and invalidate,
    the handlers behind them, and what the database answers to each query.  The guards in
    front of the handlers are left out: they change nothing.  Sessions are left out, and the
    audit log, which is written from a queue. -/

namespace PlatformQueries

open AsyncProgram PlatformEntities PlatformTasks PlatformApi RowTable
open PlatformLive (Tag)
open PlatformRoutes (PathId Endpoint routed routes)

/-- What stays as it is through a run: how Postgres answers, the user who is signed in, and
    when each notification was made. -/
structure Backend where
  pg : Postgres
  session : DashboardSession
  /-- The spelling of the columns for the text of an id. -/
  uuid : String → Option String
  createdAt : String → Nat
  userId : String
  /-- It comes out of a token. -/
  spelled : uuid userId = some userId

/-! ## Queries -/

/-- The queries of the client's API slice that the server answers. -/
inductive Query where
  | getWorkspaces
  | getWorkspaceMembers (workspaceId : PathId)
  | getProjects (workspaceId : PathId)
  | getTasks (workspaceId projectId : PathId) (params : QueryTaskDto)
  | getTaskById (workspaceId taskId : PathId)
  | getSubtaskTree (workspaceId taskId : PathId)
  | getComments (workspaceId taskId : PathId)
  | getDashboardMetrics (workspaceId : PathId)
  | getNotifications
  deriving DecidableEq

/-- What comes back; the figures of the dashboard, for the times that their statements
    saw. -/
inductive Answer where
  | workspaces (workspaces : List (Option Workspace))
  | reply (reply : Reply)
  | metrics (now : Nat → Int) (summary : DashboardSummary)
  | notifications (notifications : List Notification)

/-- The times at which an answer was worked out; only the dashboard looks at the clock. -/
def Answer.askedAt : Answer → Nat → Int
  | .metrics now _ => now
  | _ => fun _ => 0

/-- `providesTags` of each endpoint. -/
def Query.providesTags : Query → List Tag
  | .getWorkspaces => [⟨.workspace, none⟩]
  | .getWorkspaceMembers _ => [⟨.workspace, none⟩]
  | .getProjects _ => [⟨.project, none⟩]
  | .getTasks _ _ _ => [⟨.task, none⟩]
  | .getTaskById _ taskId => [⟨.task, some taskId.text⟩]
  | .getSubtaskTree _ taskId => [⟨.task, some taskId.text⟩]
  | .getComments _ _ => [⟨.comment, none⟩]
  | .getDashboardMetrics _ => [⟨.dashboard, none⟩]
  | .getNotifications => [⟨.notification, none⟩]

/-- The ids that the request names. -/
def Query.ids : Query → List String
  | .getWorkspaces => []
  | .getWorkspaceMembers w => [w.text]
  | .getProjects w => [w.text]
  | .getTasks w p params => (TaskCall.getTasks w.text p.text params).ids
  | .getTaskById w t => [t.text, w.text]
  | .getSubtaskTree w t => [t.text, w.text]
  | .getComments w t => [t.text, w.text]
  | .getDashboardMetrics w => [w.text]
  | .getNotifications => []

/-- The query spells its ids as the columns do. -/
def Query.Spelled (uuid : String → Option String) (q : Query) : Prop :=
  ∀ x ∈ q.ids, uuid x = some x

/-- `getUserWorkspaces` of `workspace.service.ts`. -/
def getUserWorkspaces (db : Database) (userId : String) : List (Option Workspace) :=
  (db.members.filter fun m => m.userId = userId).map fun m =>
    lookup Workspace.id m.workspaceId db.workspaces

/-- The handler of `getSubtaskTree`. -/
def getTree (taskId workspaceId : String) : ApiProg Reply := do
  let answer ← ask (.subtasks .tree taskId workspaceId)
  Reply.hierarchy <$> orThrow answer

/-- Time passes while so many statements are awaited. -/
def waits (ω : Nat → Choice) : Nat → TaskState → TaskState
  | 0, s => s
  | n + 1, s => (waits ω n s).wait (ω n)

/-- The time that each of the statements sees. -/
def clock (ω : Nat → Choice) (s : TaskState) (n : Nat) : Int := (waits ω n s).now

section Service

variable (b : Backend)

/-- A handler whose request names these ids and no list query. -/
def byValue (ids : List String) (p : ApiProg Reply) : ApiProg Reply :=
  p.expand (ApiOp.byValue (Reading.of b.uuid ids []))

/-- A handler, and what the client makes of its answer. -/
def served (p : ApiProg Reply) (ω : Nat → Choice) (s : TaskState) : TaskState × Option Answer :=
  let out := solo (apiExec b.pg) ω p s
  (out.1, out.2.toOption.map .reply)

/-- The six statements of the dashboard, one after the other. -/
def serveDashboard (workspaceId : String) (ω : Nat → Choice) (s : TaskState) :
    TaskState × Option Answer :=
  match b.uuid workspaceId with
  | none => (waits ω 1 s, none)
  | some w =>
      (waits ω 6 s,
        (getSummary b.session (dashboardTables s.db) (clock ω s) w).toOption.map
          (.metrics (clock ω s)))

/-- The handler of a query. -/
def Query.serve (ω : Nat → Choice) (s : TaskState) : Query → TaskState × Option Answer
  | .getWorkspaces => (s.wait (ω 0), some (.workspaces (getUserWorkspaces s.db b.userId)))
  | .getWorkspaceMembers w => served b ((ApiCall.getMembers w.text).byValue b.uuid) ω s
  | .getProjects w => served b ((ApiCall.getProjects w.text).byValue b.uuid) ω s
  | .getTasks w p params =>
      served b ((ApiCall.task (.getTasks w.text p.text params)).byValue b.uuid) ω s
  | .getTaskById w t => served b ((ApiCall.task (.findById t.text w.text)).byValue b.uuid) ω s
  | .getSubtaskTree w t =>
      served b (byValue b (Query.getSubtaskTree w t).ids (getTree t.text w.text)) ω s
  | .getComments w t =>
      served b (byValue b (Query.getComments w t).ids
        (Reply.comments <$> PlatformApi.getComments t.text w.text)) ω s
  | .getDashboardMetrics w => serveDashboard b w.text ω s
  | .getNotifications =>
      (s.wait (ω 0),
        some (.notifications (PlatformInbox.findRows ⟨s, b.createdAt⟩ b.userId none)))

/-- What the database answers at these times. -/
def Query.answer (now : Nat → Int) (db : Database) : Query → Option Answer
  | .getWorkspaces => some (.workspaces (getUserWorkspaces db b.userId))
  | .getWorkspaceMembers w => some (.reply (.members (findMembers db w.text)))
  | .getProjects w => some (.reply (.projects (findActiveProjects db w.text)))
  | .getTasks w p params =>
      if params.runs then
        some (.reply (.task (.listed (.tasks (listTasks b.pg.text db w.text p.text params)))))
      else none
  | .getTaskById w t =>
      (findOneTask db t.text w.text).map fun task => .reply (.task (.found task))
  | .getSubtaskTree w t =>
      (hierarchy db b.pg.order .tree t.text w.text).toOption.map fun h => .reply (.hierarchy h)
  | .getComments w t =>
      (findTask db t.text w.text).map fun _ => .reply (.comments (findComments db t.text))
  | .getDashboardMetrics w =>
      (getSummary b.session (dashboardTables db) now w.text).toOption.map (.metrics now)
  | .getNotifications =>
      some (.notifications (PlatformInbox.findRows ⟨⟨db, fun _ => none, 0⟩, b.createdAt⟩
        b.userId none))

/-- The answer is what the database holds, as it is or, for the dashboard, as it would have
    been counted when the client asked. -/
def Query.Right (db : Database) (q : Query) (a : Answer) : Prop :=
  q.answer b a.askedAt db = some a

end Service

/-! ## Mutations -/

/-- The mutations of what belongs to a workspace. -/
inductive Mutation where
  | createWorkspace (name : String) (slug : Option String)
  | updateWorkspace (id : PathId) (name : String)
  | deleteWorkspace (id : PathId)
  | inviteWorkspaceMember (workspaceId : PathId) (email : String) (role : Role)
  | createProject (workspaceId : PathId) (name : String) (description : Option String)
  | updateProject (workspaceId id : PathId) (name description status : Option String)
  | deleteProject (workspaceId id : PathId)
  | createTask (workspaceId projectId : PathId) (dto : CreateTaskDto)
  | updateTask (workspaceId taskId : PathId) (dto : UpdateTaskDto)
  | deleteTask (workspaceId taskId : PathId)
  | addComment (workspaceId taskId : PathId) (message : String)

namespace Mutation

/-- `invalidatesTags` of each endpoint. -/
def invalidatesTags : Mutation → List Tag
  | .createWorkspace _ _ => [⟨.workspace, none⟩]
  | .updateWorkspace _ _ => [⟨.workspace, none⟩]
  | .deleteWorkspace _ => [⟨.workspace, none⟩]
  | .inviteWorkspaceMember _ _ _ => [⟨.workspace, none⟩]
  | .createProject _ _ _ => [⟨.project, none⟩]
  | .updateProject _ _ _ _ _ => [⟨.project, none⟩]
  | .deleteProject _ _ => [⟨.project, none⟩]
  | .createTask _ _ _ => [⟨.task, none⟩, ⟨.dashboard, none⟩]
  | .updateTask _ taskId _ => [⟨.task, none⟩, ⟨.task, some taskId.text⟩,
    ⟨.dashboard, none⟩]
  | .deleteTask _ _ => [⟨.task, none⟩, ⟨.dashboard, none⟩]
  | .addComment _ _ _ => [⟨.comment, none⟩]

/-- The method and the path of the request. -/
def endpoint : Mutation → Endpoint
  | .createWorkspace _ _ => .createWorkspace
  | .updateWorkspace id _ => .updateWorkspace id
  | .deleteWorkspace id => .deleteWorkspace id
  | .inviteWorkspaceMember w _ _ => .inviteWorkspaceMember w
  | .createProject w _ _ => .createProject w
  | .updateProject w id _ _ _ => .updateProject w id
  | .deleteProject w id => .deleteProject w id
  | .createTask w p _ => .createTask w p
  | .updateTask w t _ => .updateTask w t
  | .deleteTask w t => .deleteTask w t
  | .addComment w t _ => .addComment w t

/-- The handler that the mutation is meant for, for ids as the columns spell them. -/
def handlerProg (userId : String) : Mutation → ApiProg Reply
  | .createWorkspace name slug => (ApiCall.createWorkspace userId name slug).prog
  | .updateWorkspace id name => (ApiCall.updateWorkspace id.text userId name).prog
  | .deleteWorkspace id => (ApiCall.deleteWorkspace id.text userId).prog
  | .inviteWorkspaceMember w email role => (ApiCall.inviteMember w.text userId email role).prog
  | .createProject w name description =>
      (ApiCall.createProject w.text userId name description).prog
  | .updateProject w id name description status =>
      (ApiCall.updateProject id.text w.text userId name description status).prog
  | .deleteProject w id => (ApiCall.deleteProject id.text w.text userId).prog
  | .createTask w p dto => (ApiCall.task (.createTask w.text p.text userId dto)).prog
  | .updateTask w t dto => (ApiCall.task (.updateTask t.text w.text userId dto)).prog
  | .deleteTask w t => (ApiCall.task (.deleteTask t.text w.text userId)).prog
  | .addComment w t message =>
      Reply.comment <$> PlatformApi.addComment w.text t.text userId message

/-- The ids that the request names. -/
def ids (userId : String) : Mutation → List String
  | .createWorkspace name slug => (ApiCall.createWorkspace userId name slug).ids
  | .updateWorkspace id name => (ApiCall.updateWorkspace id.text userId name).ids
  | .deleteWorkspace id => (ApiCall.deleteWorkspace id.text userId).ids
  | .inviteWorkspaceMember w email role => (ApiCall.inviteMember w.text userId email role).ids
  | .createProject w name description =>
      (ApiCall.createProject w.text userId name description).ids
  | .updateProject w id name description status =>
      (ApiCall.updateProject id.text w.text userId name description status).ids
  | .deleteProject w id => (ApiCall.deleteProject id.text w.text userId).ids
  | .createTask w p dto => (TaskCall.createTask w.text p.text userId dto).ids
  | .updateTask w t dto => (TaskCall.updateTask t.text w.text userId dto).ids
  | .deleteTask w t => (TaskCall.deleteTask t.text w.text userId).ids
  | .addComment w t _ => [w.text, t.text, userId]

/-- The mutation spells its ids as the columns do. -/
def Spelled (b : Backend) (m : Mutation) : Prop := ∀ x ∈ m.ids b.userId, b.uuid x = some x

/-- What the server does with the request: the handler, if there is a route to one. -/
def prog (b : Backend) (m : Mutation) : ApiProg Reply :=
  if (routed routes m.endpoint.method m.endpoint.path).isSome then
    byValue b (m.ids b.userId) (m.handlerProg b.userId)
  else .fail (.notFound ("Cannot PUT " ++ m.endpoint.path))

/-- Whether there is a route settles what the server does. -/
theorem prog_eq (b : Backend) (m : Mutation) :
    m.prog b = if m.endpoint.handler.isSome then
        byValue b (m.ids b.userId) (m.handlerProg b.userId)
      else .fail (.notFound ("Cannot PUT " ++ m.endpoint.path)) := by
  unfold prog
  cases hh : m.endpoint.handler with
  | none =>
      rw [PlatformRoutes.routed_none (fun _ => Iff.rfl) _ hh]
      rfl
  | some h =>
      rw [PlatformRoutes.routed_row (fun _ => Iff.rfl) _ (m.endpoint.row_mem hh)]
      rfl

end Mutation

/-- A handler whose request spells its ids as the columns do. -/
theorem byValue_spelled {b : Backend} {ids : List String} (h : ∀ x ∈ ids, b.uuid x = some x)
    (p : ApiProg Reply) : byValue b ids p = p := by
  rw [byValue, Reading.of_spelled h fun query hq => absurd hq List.not_mem_nil]
  exact Prog.expand_self ApiOp.byValue_asStored p

/-- The mutations. -/
inductive Request where
  | mutation (m : Mutation)
  | markNotificationRead (notificationId : PathId)
  | markAllNotificationsRead

namespace Request

/-- The marks drop the notifications. -/
def invalidatesTags : Request → List Tag
  | .mutation m => m.invalidatesTags
  | .markNotificationRead _ => [⟨.notification, none⟩]
  | .markAllNotificationsRead => [⟨.notification, none⟩]

/-- A handler of the notifications. -/
def marked {α : Type} (b : Backend) (p : PlatformInbox.InboxProg α) (ω : Nat → Choice)
    (s : TaskState) : TaskState :=
  (solo (PlatformInbox.exec b.pg.text) (fun n => ⟨ω n, none⟩) p ⟨s, b.createdAt⟩).1.tasks

/-- The state that a request leaves behind. -/
def perform (b : Backend) (ω : Nat → Choice) (s : TaskState) : Request → TaskState
  | .mutation m => (solo (apiExec b.pg) ω (m.prog b) s).1
  | .markNotificationRead id =>
      match b.uuid id.text with
      | none => s.wait (ω 0)
      | some id => marked b (PlatformInbox.markAsRead id b.userId) ω s
  | .markAllNotificationsRead => marked b (PlatformInbox.markAllAsRead b.userId) ω s

end Request

end PlatformQueries
