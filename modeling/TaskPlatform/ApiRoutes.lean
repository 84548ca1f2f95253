import TaskPlatform.PathRouting

/-! # From an endpoint of the client to a handler of the server

    The urls of `src/frontend/src/app/api/endpoints.ts` (and of the refresh in `apiSlice.ts`)
    on the one side, the routes that the decorators of the controllers under
    `src/src/modules` declare on the other.  A request of the client finds the handler that
    it is meant for and brings its ids along, whatever the ids and in whatever order the
    routes are registered; a `PUT` of a workspace or a project finds none
    (`requests_are_routed`). -/

namespace PlatformRoutes

open PathRouting

/-! ## The server -/

/-- The methods of requests. -/
inductive Method where
  | get
  | post
  | put
  | patch
  | delete
  deriving DecidableEq, Repr

/-- The methods of the controllers. -/
inductive Handler where
  | signup
  | login
  | logout
  | refresh
  | verifyEmail
  | forgotPassword
  | resetPassword
  | getSessions
  | revokeSession
  | getProfile
  | updateProfile
  | createWorkspace
  | getUserWorkspaces
  | getBySlug
  | getById
  | updateWorkspace
  | deleteWorkspace
  | inviteMember
  | getMembers
  | getSummary
  | createProject
  | listProjects
  | getProject
  | updateProject
  | deleteProject
  | createTask
  | listTasks
  | getTask
  | updateTask
  | deleteTask
  | getAttachmentPresign
  | getTree
  | getDescendants
  | getAncestors
  | addComment
  | listComments
  | getNotifications
  | markAsRead
  | markAllAsRead
  | getAuditLogs
  | checkHealth
  | checkDb
  | checkRedis
  | getMetrics
  deriving DecidableEq, Repr

/-- A segment of a path. -/
abbrev Segment := List Char

/-- A route with its handler. -/
abbrev ApiRow := Row Method Segment Handler

/-- A fixed part of a path. -/
def word (text : String) : PathPart Segment := .word text.toList

/-- `:name`. -/
def param (_name : String) : PathPart Segment := .param

/-- `@Controller(path)` with its handlers, under the global prefix. -/
def controller (path : List (PathPart Segment))
    (handlers : List (Method × List (PathPart Segment) × Handler)) : List ApiRow :=
  handlers.map fun h => ⟨h.1, word "api" :: word "v1" :: (path ++ h.2.1), h.2.2⟩

/-- `AuthController`. -/
def authController : List ApiRow := controller [word "auth"]
  [(.post, [word "signup"], .signup),
    (.post, [word "login"], .login),
    (.post, [word "logout"], .logout),
    (.post, [word "refresh"], .refresh),
    (.post, [word "verify-email"], .verifyEmail),
    (.post, [word "forgot-password"], .forgotPassword),
    (.post, [word "reset-password"], .resetPassword),
    (.get, [word "sessions"], .getSessions),
    (.post, [word "sessions", param "sessionId", word "revoke"], .revokeSession)]

/-- `UserController`. -/
def usersController : List ApiRow := controller [word "users"]
  [(.get, [word "profile"], .getProfile),
    (.patch, [word "profile"], .updateProfile)]

/-- An invitation may be sent to two paths. -/
def workspaceController : List ApiRow := controller [word "workspaces"]
  [(.post, [], .createWorkspace),
    (.get, [], .getUserWorkspaces),
    (.get, [word "slug", param "slug"], .getBySlug),
    (.get, [param "workspaceId"], .getById),
    (.patch, [param "workspaceId"], .updateWorkspace),
    (.delete, [param "workspaceId"], .deleteWorkspace),
    (.post, [param "workspaceId", word "invite"], .inviteMember),
    (.post, [param "workspaceId", word "members", word "invite"], .inviteMember),
    (.get, [param "workspaceId", word "members"], .getMembers)]

/-- `DashboardController`; both paths lead to the one handler. -/
def dashboardController : List ApiRow :=
  controller [word "workspaces", param "workspaceId", word "dashboard"]
  [(.get, [word "summary"], .getSummary),
    (.get, [word "metrics"], .getSummary)]

/-- `ProjectController`. -/
def projectController : List ApiRow :=
  controller [word "workspaces", param "workspaceId", word "projects"]
  [(.post, [], .createProject),
    (.get, [], .listProjects),
    (.get, [param "projectId"], .getProject),
    (.patch, [param "projectId"], .updateProject),
    (.delete, [param "projectId"], .deleteProject)]

/-- `@Put` stands over `@Patch` on the update of a task and is applied after it: it is the
    method of the route. -/
def taskController : List ApiRow := controller [word "workspaces", param "workspaceId"]
  [(.post, [word "projects", param "projectId", word "tasks"], .createTask),
    (.get, [word "projects", param "projectId", word "tasks"], .listTasks),
    (.get, [word "tasks", param "taskId"], .getTask),
    (.put, [word "tasks", param "taskId"], .updateTask),
    (.delete, [word "tasks", param "taskId"], .deleteTask),
    (.get, [word "tasks", param "taskId", word "attachments", word "presign"],
      .getAttachmentPresign)]

/-- `SubtaskController`. -/
def subtaskController : List ApiRow :=
  controller [word "workspaces", param "workspaceId", word "tasks", param "taskId"]
  [(.get, [word "tree"], .getTree),
    (.get, [word "descendants"], .getDescendants),
    (.get, [word "ancestors"], .getAncestors)]

/-- `CommentController`. -/
def commentController : List ApiRow :=
  controller
    [word "workspaces", param "workspaceId", word "tasks", param "taskId", word "comments"]
  [(.post, [], .addComment),
    (.get, [], .listComments)]

/-- `NotificationController`. -/
def notificationController : List ApiRow := controller [word "notifications"]
  [(.get, [], .getNotifications),
    (.post, [param "id", word "read"], .markAsRead),
    (.post, [word "read-all"], .markAllAsRead)]

/-- `AuditController`. -/
def auditController : List ApiRow := controller [word "admin"]
  [(.get, [word "audit-logs"], .getAuditLogs)]

/-- `HealthController`. -/
def healthController : List ApiRow := controller [word "health"]
  [(.get, [], .checkHealth),
    (.get, [word "db"], .checkDb),
    (.get, [word "redis"], .checkRedis)]

/-- `MetricsController`. -/
def metricsController : List ApiRow := controller [word "metrics"]
  [(.get, [], .getMetrics)]

/-- The controllers of the modules that `AppModule` imports; `AppController` is in none. -/
def routes : List ApiRow :=
  metricsController ++ healthController ++ notificationController ++ auditController
    ++ usersController ++ authController ++ workspaceController ++ dashboardController
    ++ projectController ++ taskController ++ subtaskController ++ commentController

/-- Words are compared without regard to case, and a parameter is a segment that is not
    empty. -/
def express : Reading Segment where
  same w s := w.map Char.toLower = s.map Char.toLower
  admits s := !s.isEmpty

/-- No path of plain ids is one of two routes. -/
theorem routes_apart : ∀ row ∈ routes, ∀ row' ∈ routes, row'.method = row.method ∧
    mayMatch express row'.pattern row.pattern = true → row' = row := by
  decide +kernel

/-- `path` cut at its slashes, without the empty parts at its ends. -/
def segments (path : String) : List Segment :=
  let parts := (path.toList.splitOn '/').drop 1
  if parts.getLast? = some [] then parts.dropLast else parts

/-- What the server makes of a request: a handler and its path parameters, or a 404. -/
def routed (table : List ApiRow) (method : Method) (path : String) :
    Option (Handler × List String) :=
  (route express table method (segments path)).map fun out => (out.1, out.2.map String.ofList)

/-! ## The client -/

/-- An id as it stands in a path: nothing in it has to be escaped, and it is no word of a
    route. -/
@[ext] structure PathId where
  text : String
  nonempty : text.toList ≠ []
  plain : ∀ c ∈ text.toList, c.isAlphanum = true ∨ c = '-'
  unreserved : ∀ v ∈ tableWords routes, express.same v text.toList = false
  deriving DecidableEq

namespace PathId

/-- The part of a path that the id becomes. -/
def segment (a : PathId) : Segment := a.text.toList

theorem no_slash (a : PathId) : '/' ∉ a.segment := by
  intro h
  rcases a.plain '/' h with h | h
  · exact absurd h (by decide)
  · exact absurd h (by decide)

/-- The characters can be looked at one by one. -/
theorem plain_of_all {text : String}
    (h : (text.toList.all fun c => c.isAlphanum || c == '-') = true) :
    ∀ c ∈ text.toList, c.isAlphanum = true ∨ c = '-' := by
  intro c hc
  have hplain := List.all_eq_true.mp h c hc
  rw [Bool.or_eq_true, beq_iff_eq] at hplain
  exact hplain

/-- Words are shorter than uuids. -/
def ofUuid (text : String) (hlength : text.toList.length = 36)
    (hplain : ∀ c ∈ text.toList, c.isAlphanum = true ∨ c = '-') : PathId where
  text := text
  nonempty := fun h => by
    rw [h] at hlength
    cases hlength
  plain := hplain
  unreserved := by
    intro v hv
    have hshort : ∀ v ∈ tableWords routes, v.length < 36 := by decide +kernel
    refine decide_eq_false fun hsame => ?_
    have hlen := congrArg List.length hsame
    rw [List.length_map, List.length_map, hlength] at hlen
    exact absurd hlen (Nat.ne_of_lt (hshort v hv))

end PathId

/-- The endpoints, with the ids that come in their urls. -/
inductive Endpoint where
  | login
  | signup
  | verifyEmail
  | forgotPassword
  | resetPassword
  | getSessions
  | revokeSession (sessionId : PathId)
  | refresh
  | getWorkspaces
  | createWorkspace
  | updateWorkspace (id : PathId)
  | deleteWorkspace (id : PathId)
  | getWorkspaceMembers (workspaceId : PathId)
  | inviteWorkspaceMember (workspaceId : PathId)
  | getProjects (workspaceId : PathId)
  | createProject (workspaceId : PathId)
  | updateProject (workspaceId id : PathId)
  | deleteProject (workspaceId id : PathId)
  | getTasks (workspaceId projectId : PathId)
  | getTaskById (workspaceId taskId : PathId)
  | getSubtaskTree (workspaceId taskId : PathId)
  | createTask (workspaceId projectId : PathId)
  | updateTask (workspaceId taskId : PathId)
  | deleteTask (workspaceId taskId : PathId)
  | getComments (workspaceId taskId : PathId)
  | addComment (workspaceId taskId : PathId)
  | getDashboardMetrics (workspaceId : PathId)
  | getNotifications
  | markNotificationRead (notificationId : PathId)
  | markAllNotificationsRead
  | getAdminAuditLogs

namespace Endpoint

/-- `method` of each endpoint; a query has none, and is a `GET`. -/
def method : Endpoint → Method
  | .login | .signup | .verifyEmail | .forgotPassword | .resetPassword | .revokeSession _
  | .refresh | .createWorkspace | .inviteWorkspaceMember _ | .createProject _
  | .createTask _ _ | .addComment _ _ | .markNotificationRead _
  | .markAllNotificationsRead => .post
  | .updateWorkspace _ | .updateProject _ _ | .updateTask _ _ => .put
  | .deleteWorkspace _ | .deleteProject _ _ | .deleteTask _ _ => .delete
  | .getSessions | .getWorkspaces | .getWorkspaceMembers _ | .getProjects _ | .getTasks _ _
  | .getTaskById _ _ | .getSubtaskTree _ _ | .getComments _ _ | .getDashboardMetrics _
  | .getNotifications | .getAdminAuditLogs => .get

/-- `url` of each endpoint. -/
def url : Endpoint → String
  | .login => "/auth/login"
  | .signup => "/auth/signup"
  | .verifyEmail => "/auth/verify-email"
  | .forgotPassword => "/auth/forgot-password"
  | .resetPassword => "/auth/reset-password"
  | .getSessions => "/auth/sessions"
  | .revokeSession sessionId => "/auth/sessions/" ++ sessionId.text ++ "/revoke"
  | .refresh => "/auth/refresh"
  | .getWorkspaces => "/workspaces"
  | .createWorkspace => "/workspaces"
  | .updateWorkspace id => "/workspaces/" ++ id.text
  | .deleteWorkspace id => "/workspaces/" ++ id.text
  | .getWorkspaceMembers w => "/workspaces/" ++ w.text ++ "/members"
  | .inviteWorkspaceMember w => "/workspaces/" ++ w.text ++ "/members/invite"
  | .getProjects w => "/workspaces/" ++ w.text ++ "/projects"
  | .createProject w => "/workspaces/" ++ w.text ++ "/projects"
  | .updateProject w id => "/workspaces/" ++ w.text ++ "/projects/" ++ id.text
  | .deleteProject w id => "/workspaces/" ++ w.text ++ "/projects/" ++ id.text
  | .getTasks w p => "/workspaces/" ++ w.text ++ "/projects/" ++ p.text ++ "/tasks"
  | .getTaskById w t => "/workspaces/" ++ w.text ++ "/tasks/" ++ t.text
  | .getSubtaskTree w t => "/workspaces/" ++ w.text ++ "/tasks/" ++ t.text ++ "/tree"
  | .createTask w p => "/workspaces/" ++ w.text ++ "/projects/" ++ p.text ++ "/tasks"
  | .updateTask w t => "/workspaces/" ++ w.text ++ "/tasks/" ++ t.text
  | .deleteTask w t => "/workspaces/" ++ w.text ++ "/tasks/" ++ t.text
  | .getComments w t => "/workspaces/" ++ w.text ++ "/tasks/" ++ t.text ++ "/comments"
  | .addComment w t => "/workspaces/" ++ w.text ++ "/tasks/" ++ t.text ++ "/comments"
  | .getDashboardMetrics w => "/workspaces/" ++ w.text ++ "/dashboard/metrics"
  | .getNotifications => "/notifications"
  | .markNotificationRead notificationId => "/notifications/" ++ notificationId.text ++ "/read"
  | .markAllNotificationsRead => "/notifications/read-all"
  | .getAdminAuditLogs => "/admin/audit-logs"

/-- The ids in the url. -/
def ids : Endpoint → List PathId
  | .revokeSession id | .updateWorkspace id | .deleteWorkspace id | .getWorkspaceMembers id
  | .inviteWorkspaceMember id | .getProjects id | .createProject id
  | .getDashboardMetrics id | .markNotificationRead id => [id]
  | .updateProject w id | .deleteProject w id | .getTasks w id | .getTaskById w id
  | .getSubtaskTree w id | .createTask w id | .updateTask w id | .deleteTask w id
  | .getComments w id | .addComment w id => [w, id]
  | .login | .signup | .verifyEmail | .forgotPassword | .resetPassword | .getSessions
  | .refresh | .getWorkspaces | .createWorkspace | .getNotifications
  | .markAllNotificationsRead | .getAdminAuditLogs => []

/-- The handler that the endpoint is meant for, if the server has it under this method. -/
def handler : Endpoint → Option Handler
  | .login => some .login
  | .signup => some .signup
  | .verifyEmail => some .verifyEmail
  | .forgotPassword => some .forgotPassword
  | .resetPassword => some .resetPassword
  | .getSessions => some .getSessions
  | .revokeSession _ => some .revokeSession
  | .refresh => some .refresh
  | .getWorkspaces => some .getUserWorkspaces
  | .createWorkspace => some .createWorkspace
  | .updateWorkspace _ => none
  | .deleteWorkspace _ => some .deleteWorkspace
  | .getWorkspaceMembers _ => some .getMembers
  | .inviteWorkspaceMember _ => some .inviteMember
  | .getProjects _ => some .listProjects
  | .createProject _ => some .createProject
  | .updateProject _ _ => none
  | .deleteProject _ _ => some .deleteProject
  | .getTasks _ _ => some .listTasks
  | .getTaskById _ _ => some .getTask
  | .getSubtaskTree _ _ => some .getTree
  | .createTask _ _ => some .createTask
  | .updateTask _ _ => some .updateTask
  | .deleteTask _ _ => some .deleteTask
  | .getComments _ _ => some .listComments
  | .addComment _ _ => some .addComment
  | .getDashboardMetrics _ => some .getSummary
  | .getNotifications => some .getNotifications
  | .markNotificationRead _ => some .markAsRead
  | .markAllNotificationsRead => some .markAllAsRead
  | .getAdminAuditLogs => some .getAuditLogs

/-- The shape of the url. -/
def pattern : Endpoint → List (PathPart Segment)
  | .login => [word "auth", word "login"]
  | .signup => [word "auth", word "signup"]
  | .verifyEmail => [word "auth", word "verify-email"]
  | .forgotPassword => [word "auth", word "forgot-password"]
  | .resetPassword => [word "auth", word "reset-password"]
  | .getSessions => [word "auth", word "sessions"]
  | .revokeSession _ => [word "auth", word "sessions", .param, word "revoke"]
  | .refresh => [word "auth", word "refresh"]
  | .getWorkspaces | .createWorkspace => [word "workspaces"]
  | .updateWorkspace _ | .deleteWorkspace _ => [word "workspaces", .param]
  | .getWorkspaceMembers _ => [word "workspaces", .param, word "members"]
  | .inviteWorkspaceMember _ => [word "workspaces", .param, word "members", word "invite"]
  | .getProjects _ | .createProject _ => [word "workspaces", .param, word "projects"]
  | .updateProject _ _ | .deleteProject _ _ =>
      [word "workspaces", .param, word "projects", .param]
  | .getTasks _ _ | .createTask _ _ =>
      [word "workspaces", .param, word "projects", .param, word "tasks"]
  | .getTaskById _ _ | .updateTask _ _ | .deleteTask _ _ =>
      [word "workspaces", .param, word "tasks", .param]
  | .getSubtaskTree _ _ => [word "workspaces", .param, word "tasks", .param, word "tree"]
  | .getComments _ _ | .addComment _ _ =>
      [word "workspaces", .param, word "tasks", .param, word "comments"]
  | .getDashboardMetrics _ => [word "workspaces", .param, word "dashboard", word "metrics"]
  | .getNotifications => [word "notifications"]
  | .markNotificationRead _ => [word "notifications", .param, word "read"]
  | .markAllNotificationsRead => [word "notifications", word "read-all"]
  | .getAdminAuditLogs => [word "admin", word "audit-logs"]

/-- The path of the request: `baseURL` ends in `/api/v1`. -/
def path (e : Endpoint) : String := "/api/v1" ++ e.url

/-- Its segments. -/
def parts (e : Endpoint) : List Segment :=
  fill (word "api" :: word "v1" :: e.pattern) (e.ids.map PathId.segment)

theorem path_toList (e : Endpoint) : e.path.toList = e.parts.flatMap ('/' :: ·) := by
  unfold path url
  cases e <;> simp [parts, pattern, ids, word, fill, PathId.segment]

theorem arity_pattern (e : Endpoint) :
    (e.ids.map PathId.segment).length = arity (word "api" :: word "v1" :: e.pattern) := by
  cases e <;> rfl

/-- The server has a route for the handler of an endpoint. -/
theorem row_mem (e : Endpoint) {h : Handler} (hh : e.handler = some h) :
    (⟨e.method, word "api" :: word "v1" :: e.pattern, h⟩ : ApiRow) ∈ routes := by
  cases e <;> cases hh <;> dsimp only [method, pattern] <;> decide +kernel

/-- And none for those without, under their method. -/
theorem no_row (e : Endpoint) (hh : e.handler = none) : ∀ row ∈ routes,
    ¬ (row.method = e.method ∧
      mayMatch express row.pattern (word "api" :: word "v1" :: e.pattern) = true) := by
  cases e <;> cases hh <;> dsimp only [method, pattern] <;> decide +kernel

theorem words_plain (e : Endpoint) :
    ∀ v ∈ words (word "api" :: word "v1" :: e.pattern), '/' ∉ v ∧ v ≠ [] := by
  cases e <;> dsimp only [pattern] <;> decide +kernel

end Endpoint

/-! ## Between the two -/

theorem flatMap_slash (parts : List Segment) :
    parts.flatMap ('/' :: ·) = ['/'].intercalate ([] :: parts) := by
  induction parts with
  | nil => rfl
  | cons p rest ih =>
      rw [List.flatMap_cons, ih]
      cases rest with
      | nil => simp [List.intercalate]
      | cons q rest => simp [List.intercalate]

/-- A path is cut where it was put together. -/
theorem segments_of_join {path : String} {parts : List Segment}
    (hpath : path.toList = parts.flatMap ('/' :: ·))
    (hparts : ∀ p ∈ parts, '/' ∉ p ∧ p ≠ []) : segments path = parts := by
  have hsplit : path.toList.splitOn '/' = [] :: parts := by
    rw [hpath, flatMap_slash]
    refine List.splitOn_intercalate '/' ?_ (List.cons_ne_nil _ _)
    intro p hp
    rcases List.mem_cons.mp hp with rfl | hp
    · exact List.not_mem_nil
    · exact (hparts p hp).1
  unfold segments
  rw [hsplit]
  show (if parts.getLast? = some [] then parts.dropLast else parts) = parts
  refine if_neg fun hlast => ?_
  exact (hparts [] (List.mem_of_getLast? hlast)).2 rfl

theorem segments_path (e : Endpoint) : segments e.path = e.parts := by
  refine segments_of_join e.path_toList ?_
  intro p hp
  rcases mem_fill hp with hp | hp
  · exact e.words_plain p hp
  · obtain ⟨a, -, rfl⟩ := List.mem_map.mp hp
    exact ⟨a.no_slash, a.nonempty⟩

section Table

variable {table : List ApiRow} (htable : ∀ row, row ∈ table ↔ row ∈ routes) (e : Endpoint)

include htable in
theorem ids_free : ∀ v ∈ tableWords table, ∀ a ∈ e.ids.map PathId.segment,
    express.same v a = false := by
  intro v hv a ha
  obtain ⟨row, hrow, hv⟩ := List.mem_flatMap.mp hv
  obtain ⟨id, -, rfl⟩ := List.mem_map.mp ha
  exact id.unreserved v (List.mem_flatMap.mpr ⟨row, (htable row).mp hrow, hv⟩)

include htable in
/-- A route of the shape of the url. -/
theorem routed_row {method : Method} {h : Handler}
    (hrow : (⟨method, word "api" :: word "v1" :: e.pattern, h⟩ : ApiRow) ∈ routes) :
    routed table method e.path = some (h, e.ids.map PathId.text) := by
  have hargs : ∀ a ∈ e.ids.map PathId.segment, express.admits a = true := by
    intro a ha
    obtain ⟨id, -, rfl⟩ := List.mem_map.mp ha
    have hne : id.segment.isEmpty = false := List.isEmpty_eq_false_iff.mpr id.nonempty
    show (!id.segment.isEmpty) = true
    rw [hne]
    rfl
  have hroute := route_fill (R := express) (fun w => decide_eq_true rfl)
    ((htable _).mpr hrow)
    (fun row' hrow' => routes_apart _ hrow row' ((htable row').mp hrow'))
    e.arity_pattern hargs (ids_free htable e)
  have hids : (e.ids.map PathId.segment).map String.ofList = e.ids.map PathId.text := by
    rw [List.map_map]
    exact List.map_congr_left fun id _ => String.ofList_toList
  unfold routed
  rw [segments_path, Endpoint.parts, hroute, Option.map_some, hids]

include htable in
theorem routed_none (hh : e.handler = none) : routed table e.method e.path = none := by
  unfold routed
  rw [segments_path, Endpoint.parts, route_fill_none
    (fun row hrow => e.no_row hh row ((htable row).mp hrow)) e.arity_pattern
    (ids_free htable e)]
  rfl

end Table

/-- **Requests are routed.**  In whatever order the routes of the controllers are registered:
    a request of the client gets to the handler that its endpoint is meant for, with the ids
    of its url.  Only the updates of workspaces and of projects, which are sent as a `PUT`,
    get nowhere. -/
theorem requests_are_routed (table : List ApiRow)
    (htable : ∀ row, row ∈ table ↔ row ∈ routes)
    (e : Endpoint) :
    routed table e.method e.path = (e.handler.map fun h => (h, e.ids.map PathId.text)) ∧
      (routed table e.method e.path = none ↔
        (∃ id, e = .updateWorkspace id) ∨ ∃ w id, e = .updateProject w id) := by
  have hroute : routed table e.method e.path
      = (e.handler.map fun h => (h, e.ids.map PathId.text)) := by
    cases hh : e.handler with
    | none => exact routed_none htable e hh
    | some h => exact routed_row htable e (e.row_mem hh)
  refine ⟨hroute, ?_⟩
  rw [hroute, Option.map_eq_none_iff]
  constructor
  · intro hh
    cases e with
    | updateWorkspace id => exact Or.inl ⟨id, rfl⟩
    | updateProject w id => exact Or.inr ⟨w, id, rfl⟩
    | _ => cases hh
  · rintro (⟨id, rfl⟩ | ⟨w, id, rfl⟩)
    · rfl
    · rfl

/-- A workspace id. -/
def office : PathId :=
  .ofUuid "8a6e0804-2bd0-4672-b79d-d97027f9071a" (by decide) (PathId.plain_of_all (by decide))

/-- An invitation to the office, with the routes the other way round. -/
theorem invitation_is_routed :
    routed routes.reverse .post
        "/api/v1/workspaces/8a6e0804-2bd0-4672-b79d-d97027f9071a/members/invite"
      = some (.inviteMember, ["8a6e0804-2bd0-4672-b79d-d97027f9071a"]) :=
  (requests_are_routed routes.reverse (fun _ => List.mem_reverse)
    (.inviteWorkspaceMember office)).1

end PlatformRoutes
