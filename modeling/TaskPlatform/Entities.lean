import TaskPlatform.RowTable

/-! # The database entities

    The rows of `src/database/entities`, column by column as far as the modelled
    services read or write them, and the exceptions that the services throw.
    Ids are uuids in their canonical text form; times are counted from the
    epoch. -/

namespace PlatformEntities

/-- The exceptions a service call can end in: the HTTP exceptions with their
    messages, and the error TypeORM raises when Postgres rejects a statement. -/
inductive HttpError where
  | badRequest (message : String)
  | unauthorized (message : String)
  | forbidden (message : String)
  | notFound (message : String)
  | conflict (message : String)
  | queryFailed
  deriving DecidableEq, Repr

/-! ## Strings -/

/-- The length of a string, in UTF-16 code units. -/
def utf16Length (s : String) : Nat :=
  s.toList.length + (s.toList.filter fun c => 0x10000 ≤ c.toNat).length

/-- The first code units of a string.  Half a surrogate pair is no character: it is stored
    and sent as the replacement character. -/
def utf16Prefix : Nat → List Char → List Char
  | 0, _ => []
  | _ + 1, [] => []
  | 1, c :: _ => if 0x10000 ≤ c.toNat then ['\uFFFD'] else [c]
  | n + 2, c :: rest =>
      if 0x10000 ≤ c.toNat then c :: utf16Prefix n rest else c :: utf16Prefix (n + 1) rest

/-- `s.substring(0, n)`. -/
def substring (s : String) (n : Nat) : String := String.ofList (utf16Prefix n s.toList)

/-! ## Users and sessions -/

/-- A row of `users`; `password` is the bcrypt hash. -/
structure User where
  id : String
  email : String
  password : Option String
  name : String
  avatar : Option String
  isVerified : Bool
  deriving DecidableEq, Repr

/-- A user without the password: what `login` returns and what a query that does
    not ask for the password loads. -/
structure UserView where
  id : String
  email : String
  name : String
  avatar : Option String
  isVerified : Bool
  deriving DecidableEq, Repr

/-- The columns that are selected by default. -/
def User.view (u : User) : UserView := ⟨u.id, u.email, u.name, u.avatar, u.isVerified⟩

/-- A row of `user_sessions`; `Hash` is the type of SHA-256 digests, `expiresAt`
    counts seconds. -/
structure UserSession (Hash : Type) where
  id : String
  userId : String
  tokenHash : Hash
  deviceFingerprint : Option String
  ipAddress : Option String
  expiresAt : Nat
  isRevoked : Bool
  deriving DecidableEq, Repr

/-! ## Workspaces and projects -/

/-- `'ADMIN' | 'MEMBER'`. -/
inductive Role where
  | admin
  | member
  deriving DecidableEq, Repr

/-- The text in the column. -/
def Role.text : Role → String
  | .admin => "ADMIN"
  | .member => "MEMBER"

/-- A row of `workspaces`; `slug` is unique. -/
structure Workspace where
  id : String
  name : String
  slug : String
  ownerId : String
  deriving DecidableEq, Repr

/-- A row of `workspace_members`, keyed by workspace and user. -/
structure WorkspaceMember where
  workspaceId : String
  userId : String
  role : Role
  deriving DecidableEq, Repr

/-- A row of `projects`. -/
structure Project where
  id : String
  workspaceId : String
  name : String
  description : Option String
  status : String
  createdAt : Nat
  deriving DecidableEq, Repr

/-! ## Tasks -/

/-- `TaskStatus`. -/
inductive TaskStatus where
  | todo
  | inProgress
  | blocked
  | done
  deriving DecidableEq, Repr

/-- The text in the column. -/
def TaskStatus.text : TaskStatus → String
  | .todo => "TODO"
  | .inProgress => "IN_PROGRESS"
  | .blocked => "BLOCKED"
  | .done => "DONE"

/-- `TaskPriority`. -/
inductive TaskPriority where
  | low
  | medium
  | high
  | critical
  deriving DecidableEq, Repr

/-- The text in the column. -/
def TaskPriority.text : TaskPriority → String
  | .low => "LOW"
  | .medium => "MEDIUM"
  | .high => "HIGH"
  | .critical => "CRITICAL"

/-- An element of the `attachments` column. -/
structure Attachment where
  name : String
  url : String
  size : Nat
  mimeType : String
  deriving DecidableEq, Repr

/-- A row of `tasks`.  `version` is kept by TypeORM, `deletedAt` marks a soft
    deletion. -/
structure Task where
  id : String
  workspaceId : String
  projectId : String
  parentTaskId : Option String
  title : String
  description : Option String
  status : TaskStatus
  priority : TaskPriority
  assignedTo : Option String
  dueDate : Option Nat
  createdBy : String
  completedAt : Option Nat
  labels : Option (List String)
  attachments : Option (List Attachment)
  version : Nat
  deletedAt : Option Nat
  createdAt : Nat
  updatedAt : Nat
  deriving DecidableEq, Repr

/-- A row of `comments`. -/
structure Comment where
  id : String
  taskId : String
  userId : String
  message : String
  createdAt : Nat
  deriving DecidableEq, Repr

/-- A row of `notifications`. -/
structure Notification where
  id : String
  userId : String
  type : String
  title : String
  message : String
  isRead : Bool
  deriving DecidableEq, Repr

/-- The tables that the services share. -/
structure Database where
  users : List User
  workspaces : List Workspace
  members : List WorkspaceMember
  projects : List Project
  tasks : List Task
  comments : List Comment
  notifications : List Notification

end PlatformEntities
