import TaskPlatform.AccessControl
import TaskPlatform.AccountInvariants
import TaskPlatform.AccountRaces
import TaskPlatform.AccountService
import TaskPlatform.Announcements
import TaskPlatform.AnswerHistory
import TaskPlatform.ApiRoutes
import TaskPlatform.ApiRuns
import TaskPlatform.AsyncProgram
import TaskPlatform.AuditTrail
import TaskPlatform.AuthExchange
import TaskPlatform.AuthService
import TaskPlatform.CacheAside
import TaskPlatform.CachePlacement
import TaskPlatform.CacheTransparency
import TaskPlatform.CachedReads
import TaskPlatform.Cascade
import TaskPlatform.ClientLogout
import TaskPlatform.ClientQueries
import TaskPlatform.Dashboard
import TaskPlatform.Entities
import TaskPlatform.EventRuns
import TaskPlatform.FailedRequests
import TaskPlatform.GlobPattern
import TaskPlatform.GroupedQuery
import TaskPlatform.Guards
import TaskPlatform.HttpExchange
import TaskPlatform.Interleaving
import TaskPlatform.Invitations
import TaskPlatform.KanbanBoard
import TaskPlatform.ListCacheKeys
import TaskPlatform.ListInvalidation
import TaskPlatform.LiveViews
import TaskPlatform.NotificationInbox
import TaskPlatform.OwnChanges
import TaskPlatform.Paging
import TaskPlatform.PasswordReset
import TaskPlatform.PatternScan
import TaskPlatform.PendingWork
import TaskPlatform.Protocol
import TaskPlatform.RealtimeGateway
import TaskPlatform.RecursiveQuery
import TaskPlatform.ReminderLoss
import TaskPlatform.ReminderMilestones
import TaskPlatform.ReminderNotifications
import TaskPlatform.ReminderOverlap
import TaskPlatform.ReminderProtocol
import TaskPlatform.ReminderScheduler
import TaskPlatform.ReminderWorker
import TaskPlatform.RoomEvents
import TaskPlatform.Routes
import TaskPlatform.RowTable
import TaskPlatform.SeparatedText
import TaskPlatform.SessionExpiry
import TaskPlatform.SessionHistory
import TaskPlatform.SessionRaces
import TaskPlatform.SessionRotation
import TaskPlatform.SetMap
import TaskPlatform.SharedEditing
import TaskPlatform.SignedIn
import TaskPlatform.Slugs
import TaskPlatform.SocketClient
import TaskPlatform.SocketConnections
import TaskPlatform.SoleSession
import TaskPlatform.SubtaskService
import TaskPlatform.TaskAncestors
import TaskPlatform.TaskCoherence
import TaskPlatform.TaskCompletion
import TaskPlatform.TaskDeletion
import TaskPlatform.TaskForest
import TaskPlatform.TaskHierarchy
import TaskPlatform.TaskIntegrity
import TaskPlatform.TaskNotifications
import TaskPlatform.TaskPages
import TaskPlatform.TaskRaces
import TaskPlatform.TaskRuns
import TaskPlatform.TaskService
import TaskPlatform.TaskTable
import TaskPlatform.TaskTenancy
import TaskPlatform.TaskTree
import TaskPlatform.TaskUpdates
import TaskPlatform.TenantData
import TaskPlatform.TenantHandlers
import TaskPlatform.TokenRefresh
import TaskPlatform.WebStore
import TaskPlatform.WorkspaceAdmins
import TaskPlatform.WorkspaceHandlers
import TaskPlatform.WorkspaceService
import TaskPlatform.WorkspaceTransaction
