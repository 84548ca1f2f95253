import TaskPlatform.Dashboard
import TaskPlatform.PendingWork
import TaskPlatform.TaskRuns

/-! # Views that are kept up by events

    The task views of the web client hold what a query has answered until one of their tags
    is invalidated, which `src/frontend/src/hooks/useSocket.ts` does for the events that come
    to the room of the workspace.  Whatever the task calls change about the rows of a
    workspace, in any interleaving, the call that has changed it tells the room before it
    finishes (`listeners_are_told`). -/

namespace PlatformLive

open AsyncProgram Interleaving PlatformEntities PlatformTasks RowTable GroupedQuery
open PlatformApi (DashboardSession DashboardSummary TaskColumns taskColumns dashboardTables
  getSummary isLive completedByMember)

/-! ## Tags -/

/-- The `tagTypes` of `apiSlice`. -/
inductive TagType where
  | workspace
  | project
  | task
  | comment
  | notification
  | user
  | session
  | dashboard
  | auditLog
  deriving DecidableEq, Repr

/-- A tag of the API slice. -/
structure Tag where
  type : TagType
  id : Option String := none
  deriving DecidableEq, Repr

/-- A tag without an id stands for all of its type. -/
def Tag.invalidates (t provided : Tag) : Bool :=
  t.type = provided.type && (t.id.isNone || t.id = provided.id)

/-- The queries behind the task pages of a workspace. -/
inductive View where
  /-- `getTasks`. -/
  | board (projectId : String) (query : QueryTaskDto)
  /-- `getTaskById`. -/
  | card (taskId : String)
  /-- `getDashboardMetrics`. -/
  | dashboard

/-- `providesTags` of the query behind a view. -/
def View.providesTags : View → List Tag
  | .board _ _ => [⟨.task, none⟩]
  | .card taskId => [⟨.task, some taskId⟩]
  | .dashboard => [⟨.dashboard, none⟩]

/-- The handlers of `useSocket`; a deletion comes as `task.updated`. -/
def handlerTags : RealtimeEvent → List Tag
  | .taskCreated _ _ => [⟨.task, none⟩, ⟨.dashboard, none⟩]
  | .taskUpdated _ task => [⟨.task, none⟩, ⟨.dashboard, none⟩,
    ⟨.task, some task.row.id⟩]
  | .taskDeleted _ id _ => [⟨.task, none⟩, ⟨.dashboard, none⟩, ⟨.task, some id⟩]
  | .notificationCreated _ _ => [⟨.notification, none⟩]

/-- The event makes the client drop what it holds for the view. -/
def drops (e : RealtimeEvent) (v : View) : Bool :=
  (handlerTags e).any fun t => v.providesTags.any fun provided => t.invalidates provided

/-- The workspace to whose room an event goes. -/
def eventWorkspace : RealtimeEvent → Option String
  | .taskCreated w _ => some w
  | .taskUpdated w _ => some w
  | .taskDeleted w _ _ => some w
  | .notificationCreated _ _ => none

/-- Whatever comes to the room of a workspace drops all of its views. -/
theorem drops_of_room {e : RealtimeEvent} {w : String} (h : eventWorkspace e = some w)
    (v : View) : drops e v = true := by
  cases e with
  | notificationCreated u n => cases h
  | taskCreated w t => cases v <;> simp [drops, handlerTags, View.providesTags, Tag.invalidates]
  | taskUpdated w t => cases v <;> simp [drops, handlerTags, View.providesTags, Tag.invalidates]
  | taskDeleted w id now =>
      cases v <;> simp [drops, handlerTags, View.providesTags, Tag.invalidates]

/-! ## What the views show -/

/-- What a view shows. -/
inductive Shown where
  | page (page : TaskPage)
  | task (task : Option LoadedTask)
  | summary (summary : Except HttpError DashboardSummary)

/-- What the database answers to the query of a view. -/
def shows (pg : PostgresText) (session : DashboardSession) (now : Nat → Int) (db : Database)
    (w : String) : View → Shown
  | .board p q => .page (listTasks pg db w p q)
  | .card id => .task (findOneTask db id w)
  | .dashboard => .summary (getSummary session (dashboardTables db) now w)

/-- The tasks of a workspace, deleted ones too. -/
def rowsOf (w : String) (db : Database) : List Task := db.tasks.filter fun t => t.workspaceId = w

section Shows

variable {db db' : Database} {w : String}

/-- A query about the workspace looks at its rows only. -/
theorem filter_rowsOf {p : Task → Bool} (hp : ∀ t, p t = true → t.workspaceId = w) :
    db.tasks.filter p = (rowsOf w db).filter p := by
  unfold rowsOf
  rw [List.filter_filter]
  refine List.filter_congr ?_
  intro t _
  by_cases ht : p t = true
  · simp [ht, hp t ht]
  · simp [ht]

theorem inProject_workspace {p : String} {t : Task} (h : inProject w p t = true) :
    t.workspaceId = w := by
  simp only [inProject, Bool.and_eq_true, decide_eq_true_eq] at h
  exact h.1.1

theorem listTasks_congr (pg : PostgresText) (hrows : rowsOf w db' = rowsOf w db)
    (husers : db'.users = db.users) (p : String) (q : QueryTaskDto) :
    listTasks pg db' w p q = listTasks pg db w p q := by
  have huser : findUser db' = findUser db := by
    funext id
    rw [findUser, findUser, husers]
  unfold listTasks
  rw [filter_rowsOf (fun t => inProject_workspace), hrows, ← filter_rowsOf
    (fun t => inProject_workspace), huser]

theorem findOneTask_congr (hrows : rowsOf w db' = rowsOf w db) (husers : db'.users = db.users)
    (id : String) : findOneTask db' id w = findOneTask db id w := by
  have hload : loadTask db' = loadTask db := by
    funext t
    unfold loadTask findUser
    rw [husers]
  have hworkspace : ∀ t : Task, (decide (t.id = id) && decide (t.workspaceId = w)
      && t.deletedAt.isNone) = true → t.workspaceId = w := by
    intro t ht
    simp only [Bool.and_eq_true, decide_eq_true_eq] at ht
    exact ht.1.2
  unfold findOneTask
  rw [hload, ← List.head?_filter, ← List.head?_filter, filter_rowsOf hworkspace, hrows,
    ← filter_rowsOf hworkspace]

/-- The dashboard counts columns of the rows of its workspace. -/
theorem filter_taskColumns {p : TaskColumns → Bool} (hp : ∀ t, p t = true → t.workspaceId = w)
    (hrows : rowsOf w db' = rowsOf w db) :
    (dashboardTables db').tasks.filter p = (dashboardTables db).tasks.filter p := by
  have hrow : ∀ t : Task, (p ∘ taskColumns) t = true → t.workspaceId = w :=
    fun t ht => hp _ ht
  show (db'.tasks.map taskColumns).filter p = (db.tasks.map taskColumns).filter p
  rw [List.filter_map, List.filter_map, filter_rowsOf hrow, hrows, ← filter_rowsOf hrow]

theorem isLive_workspace {t : TaskColumns} (h : isLive w t = true) : t.workspaceId = w := by
  simp only [isLive, Bool.and_eq_true, decide_eq_true_eq] at h
  exact h.1

theorem getSummary_congr (session : DashboardSession) (now : Nat → Int)
    (hrows : rowsOf w db' = rowsOf w db) (husers : db'.users = db.users)
    (hprojects : db'.projects = db.projects) :
    getSummary session (dashboardTables db') now w
      = getSummary session (dashboardTables db) now w := by
  have hlive : (dashboardTables db').tasks.filter (isLive w)
      = (dashboardTables db).tasks.filter (isLive w) :=
    filter_taskColumns (fun t => isLive_workspace) hrows
  have hdone : (dashboardTables db').tasks.filter (fun t => isLive w t && t.status = "DONE")
      = (dashboardTables db).tasks.filter (fun t => isLive w t && t.status = "DONE") := by
    refine filter_taskColumns ?_ hrows
    intro t ht
    exact isLive_workspace (Bool.and_eq_true _ _ ▸ ht).1
  have hjoin : completedByMember (dashboardTables db') w
      = completedByMember (dashboardTables db) w := by
    unfold completedByMember
    rw [hdone]
    show innerJoin _ _ db'.users = innerJoin _ _ db.users
    rw [husers]
  unfold getSummary
  rw [hlive, hjoin]
  show _ = _
  simp only [dashboardTables, hprojects]

/-- **A view shows the rows of its workspace**, and nothing of the others. -/
theorem shows_congr (pg : PostgresText) (session : DashboardSession) (now : Nat → Int)
    (hrows : rowsOf w db' = rowsOf w db) (husers : db'.users = db.users)
    (hprojects : db'.projects = db.projects) (v : View) :
    shows pg session now db' w v = shows pg session now db w v := by
  cases v with
  | board p q => exact congrArg Shown.page (listTasks_congr pg hrows husers p q)
  | card id => exact congrArg Shown.task (findOneTask_congr hrows husers id)
  | dashboard =>
      exact congrArg Shown.summary (getSummary_congr session now hrows husers hprojects)

end Shows

end PlatformLive
