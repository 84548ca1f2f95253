import TaskPlatform.AuthService
import TaskPlatform.EventRuns
import TaskPlatform.WorkspaceAdmins

/-! # `RealtimeGateway`: who hears the events of a workspace

    `src/modules/realtime/realtime.gateway.ts`: connections that are authenticated by a
    token, rooms that they join and leave on request, and events that are sent to rooms.
    Sockets come and go and ask for anything, while workspaces and members are added by
    `createWorkspace` and `inviteMember`.

    `handleJoinWorkspace` asks whether the socket is authenticated, not whether its user is
    a member.  Events stay inside their workspace exactly as long as nobody joins the room
    of a workspace of another, and nobody waits in the room of one that is created
    (`events_inside_iff`). -/

namespace PlatformRealtime

open AsyncProgram Interleaving EventRuns PlatformEntities PlatformTasks RowTable
open PlatformApi (ApiOp ApiProg Postgres apiExec IsMember memberKey)
open PlatformAuth (Payload)

/-! ## What a client sends -/

/-- A value as the socket protocol carries it: JSON, and binary attachments.  A number is
    given by its text, a binary attachment by what it is decoded to. -/
inductive JsonValue where
  | null
  | bool (b : Bool)
  | number (text : String)
  | string (s : String)
  | array (items : List JsonValue)
  | object (fields : List (String × JsonValue))
  | binary (text : String)

namespace JsonValue

/-- `!!value`. -/
def isTruthy : JsonValue → Bool
  | .null => false
  | .bool b => b
  | .number text => text ≠ "0"
  | .string s => s ≠ ""
  | .array _ => true
  | .object _ => true
  | .binary _ => true

mutual

/-- `${value}`; an object that has a `toString` of its own cannot be converted. -/
def toText : JsonValue → Option String
  | .null => some "null"
  | .bool true => some "true"
  | .bool false => some "false"
  | .number text => some text
  | .string s => some s
  | .array items => (itemTexts items).map ",".intercalate
  | .object fields =>
      if fields.any fun f => f.1 = "toString" then none else some "[object Object]"
  | .binary text => some text

/-- The items of an array; `null` leaves a gap. -/
def itemTexts : List JsonValue → Option (List String)
  | [] => some []
  | .null :: rest => (itemTexts rest).map ("" :: ·)
  | item :: rest =>
      match toText item, itemTexts rest with
      | some text, some texts => some (text :: texts)
      | _, _ => none

end

example : toText (.array [.string "a", .null, .array [.number "1", .bool true]])
    = some "a,,1,true" := by decide

/-- `data?.name`. -/
def field (name : String) : Option JsonValue → Option JsonValue
  | some (.object fields) => (fields.find? fun f => f.1 = name).map Prod.snd
  | _ => none

end JsonValue

/-- A query parameter; one that is given more than once is a list. -/
inductive QueryValue where
  | text (s : String)
  | texts (l : List String)
  deriving DecidableEq, Repr

/-- What the gateway can read of a handshake. -/
structure Handshake where
  authorization : Option String := none
  auth : List (String × String) := []
  query : List (String × QueryValue) := []
  deriving DecidableEq, Repr

/-- `handshake.query?.name`. -/
def Handshake.parameter (h : Handshake) (name : String) : Option QueryValue :=
  (h.query.find? fun p => p.1 = name).map Prod.snd

/-! ## Sockets -/

/-- A socket at the server: its handshake, the token whose verification it waits for, what
    `client.data` holds, and its rooms. -/
structure Client where
  handshake : Handshake
  connected : Bool := true
  pending : Option QueryValue := none
  userId : Option String := none
  email : Option String := none
  rooms : List String := []
  deriving DecidableEq, Repr

namespace Client

/-- `client.disconnect()`; a socket that goes leaves all its rooms. -/
def disconnect (c : Client) : Client := { c with connected := false, rooms := [] }

/-- `client.join(room)`. -/
def join (c : Client) (room : String) : Client := { c with rooms := c.rooms.insert room }

/-- `client.leave(room)`. -/
def leave (c : Client) (room : String) : Client :=
  { c with rooms := c.rooms.filter fun r => r ≠ room }

end Client

/-- The room of a user. -/
def userRoom (userId : String) : String := "user_" ++ userId

/-- The room of a workspace. -/
def workspaceRoom (workspaceId : String) : String := "workspace_" ++ workspaceId

/-- The prefixes keep the rooms of users and workspaces apart. -/
theorem userRoom_ne_workspaceRoom (u w : String) : userRoom u ≠ workspaceRoom w := by
  intro h
  have hchars := congrArg String.toList h
  simp only [userRoom, workspaceRoom, String.toList_append] at hchars
  exact absurd (List.cons.inj hchars).1 (by decide)

theorem userRoom_injective {u u' : String} (h : userRoom u = userRoom u') : u = u' :=
  String.append_right_inj _ |>.mp h

theorem workspaceRoom_injective {w w' : String} (h : workspaceRoom w = workspaceRoom w') :
    w = w' :=
  String.append_right_inj _ |>.mp h

/-! ## The handlers -/

section Handlers

variable (verifyAsync : String → Nat → Option Payload)

/-- A header counts as it is; an empty parameter counts as none. -/
def extractToken (h : Handshake) : Option QueryValue :=
  let fromQuery : Option QueryValue :=
    (h.parameter "token").filter fun token => token ≠ .text ""
  match h.authorization with
  | some authHeader =>
      if "Bearer ".toList.isPrefixOf authHeader.toList then
        some (.text (String.ofList (authHeader.toList.drop 7)))
      else
        fromQuery
  | none => fromQuery

/-- `jwtService.verifyAsync` with the access secret; only a string can be a token. -/
def verify (token : QueryValue) (now : Nat) : Option Payload :=
  match token with
  | .text token => verifyAsync token now
  | .texts _ => none

/-- `handleConnection` up to its `await`. -/
def handleConnection (handshake : Handshake) : Client :=
  let client : Client := { handshake := handshake }
  match (extractToken handshake).filter fun token => token ≠ .text "" with
  | none => client.disconnect
  | some token => { client with pending := some token }

/-- `handleConnection` from its `await` on. -/
def connectionVerified (c : Client) (token : QueryValue) (now : Nat) : Client :=
  match verify verifyAsync token now with
  | none => { c with pending := none }.disconnect
  | some payload =>
      { c with
        pending := none
        userId := some payload.userId
        email := some payload.email }.join (userRoom payload.userId)

/-- What a handler answers, if anything; a conversion that fails is thrown. -/
inductive Reply where
  | nothing
  | error (message : String)
  | joined (room : String)
  | left (room : String)
  | thrown
  deriving DecidableEq, Repr

/-- `data?.workspaceId`, if it is truthy. -/
def askedWorkspace (data : Option JsonValue) : Option JsonValue :=
  (JsonValue.field "workspaceId" data).filter JsonValue.isTruthy

/-- `handleJoinWorkspace`. -/
def handleJoinWorkspace (c : Client) (data : Option JsonValue) : Client × Reply :=
  match askedWorkspace data with
  | none => (c, .error "workspaceId required")
  | some workspaceId =>
      match truthy c.userId with
      | none => (c.disconnect, .nothing)
      | some _ =>
          match workspaceId.toText with
          | none => (c, .thrown)
          | some text => (c.join (workspaceRoom text), .joined (workspaceRoom text))

/-- `handleLeaveWorkspace`. -/
def handleLeaveWorkspace (c : Client) (data : Option JsonValue) : Client × Reply :=
  match askedWorkspace data with
  | none => (c, .error "workspaceId required")
  | some workspaceId =>
      match workspaceId.toText with
      | none => (c, .thrown)
      | some text => (c.leave (workspaceRoom text), .left (workspaceRoom text))

end Handlers

/-- The send helpers. -/
inductive Broadcast where
  | sendTaskCreated (workspaceId : String)
  | sendTaskUpdated (workspaceId : String)
  | sendTaskAssigned (workspaceId : String)
  | sendNotificationCreated (userId : String)
  | sendCommentCreated (workspaceId : String)
  | sendMemberJoined (workspaceId : String)
  deriving DecidableEq, Repr

/-- Whom an event is for. -/
inductive Audience where
  | workspace (id : String)
  | user (id : String)
  deriving DecidableEq, Repr

/-- The name of the room. -/
def Audience.room : Audience → String
  | .workspace id => workspaceRoom id
  | .user id => userRoom id

namespace Broadcast

/-- To whom each method of the gateway emits. -/
def audience : Broadcast → Audience
  | .sendTaskCreated w => .workspace w
  | .sendTaskUpdated w => .workspace w
  | .sendTaskAssigned w => .workspace w
  | .sendNotificationCreated u => .user u
  | .sendCommentCreated w => .workspace w
  | .sendMemberJoined w => .workspace w

/-- The name of the event. -/
def event : Broadcast → String
  | .sendTaskCreated _ => "task.created"
  | .sendTaskUpdated _ => "task.updated"
  | .sendTaskAssigned _ => "task.assigned"
  | .sendNotificationCreated _ => "notification.created"
  | .sendCommentCreated _ => "comment.created"
  | .sendMemberJoined _ => "workspace.member.joined"

end Broadcast

/-- An event that is sent to a room reaches the sockets that are in it. -/
def Client.Receives (c : Client) (b : Broadcast) : Prop :=
  c.connected = true ∧ b.audience.room ∈ c.rooms

/-! ## Sockets and tenants -/

/-- The calls that add workspaces and members. -/
inductive TenantCall where
  | createWorkspace (ownerId name : String) (slug : Option String)
  | inviteMember (workspaceId performerId email : String) (role : Role)

/-- The method behind each call. -/
def TenantCall.prog : TenantCall → ApiProg Unit
  | .createWorkspace ownerId name slug => do
      let _ ← PlatformApi.createWorkspace ownerId name slug
      .done ()
  | .inviteMember workspaceId performerId email role => do
      let _ ← PlatformApi.inviteMember workspaceId performerId email role
      .done ()

/-- The sockets by their ids, and the calls in flight on their database. -/
structure World where
  sockets : String → Option Client
  api : Pool ApiOp ApiOp.Res HttpError Unit TaskState

/-- The tables. -/
def World.db (s : World) : Database := s.api.shared.db

/-- The socket has become `c`. -/
def World.put (s : World) (id : String) (c : Client) : World :=
  { s with sockets := fun i => if i = id then some c else s.sockets i }

/-- Nobody is connected, and the calls have not begun. -/
def World.start (s : TaskState) (calls : List TenantCall) : World :=
  ⟨fun _ => none, ⟨s, calls.map TenantCall.prog⟩⟩

/-- What can happen: a socket connects, its verification comes to an end, it asks to join
    or to leave a workspace, it goes; or a call gets its next answer. -/
inductive Happening where
  | connect (id : String) (handshake : Handshake)
  | verified (id : String) (now : Nat)
  | joinWorkspace (id : String) (data : Option JsonValue)
  | leaveWorkspace (id : String) (data : Option JsonValue)
  | disconnect (id : String)
  | turn (call : Nat) (ω : Choice)

section Steps

variable (verifyAsync : String → Nat → Option Payload) (pg : Postgres)

/-- A message of a socket; those of a socket that is gone are dropped. -/
def World.deliver (s : World) (id : String) (handle : Client → Client) : World :=
  match s.sockets id with
  | some c => if c.connected then s.put id (handle c) else s
  | none => s

/-- One step.  Socket ids are new. -/
def happen (s : World) : Happening → World
  | .connect id handshake =>
      match s.sockets id with
      | some _ => s
      | none => s.put id (handleConnection handshake)
  | .verified id now =>
      match s.sockets id with
      | some c =>
          match c.pending with
          | some token => s.put id (connectionVerified verifyAsync c token now)
          | none => s
      | none => s
  | .joinWorkspace id data => s.deliver id fun c => (handleJoinWorkspace c data).1
  | .leaveWorkspace id data => s.deliver id fun c => (handleLeaveWorkspace c data).1
  | .disconnect id => s.deliver id Client.disconnect
  | .turn call ω => { s with api := step (apiExec pg) s.api call ω }

end Steps

/-! ## Who may hear what -/

section Property

variable (verifyAsync : String → Nat → Option Payload)

/-- The token of the socket was verified as one of this user. -/
structure AuthenticatedAs (c : Client) (userId : String) : Prop where
  stored : c.userId = some userId
  verified : ∃ token now payload, extractToken c.handshake = some token ∧
    verify verifyAsync token now = some payload ∧ payload.userId = userId

/-- The events of a workspace are for its members, those of a user for this user. -/
def MayHear (db : Database) (c : Client) : Audience → Prop
  | .workspace w => (∃ row ∈ db.workspaces, row.id = w) →
      ∃ u, AuthenticatedAs verifyAsync c u ∧ IsMember db u w
  | .user u => AuthenticatedAs verifyAsync c u

/-- Everybody who would receive an event may hear it. -/
def EventsInside (s : World) : Prop :=
  ∀ id c, s.sockets id = some c → ∀ b : Broadcast, c.Receives b →
    MayHear verifyAsync s.db c b.audience

end Property

/-- The step keeps strangers out: a socket that joins the room of a workspace belongs to
    one of its members, and so does a socket that already is in the room of a workspace
    which is being created. -/
def KeepsOut (s : World) : Happening → Prop
  | .joinWorkspace id data => ∀ c, s.sockets id = some c → c.connected = true →
      ∀ u, truthy c.userId = some u → ∀ value, askedWorkspace data = some value →
        ∀ w, value.toText = some w → (∃ row ∈ s.db.workspaces, row.id = w) →
          IsMember s.db u w
  | .turn call ω => ∀ name slug ownerId k,
      s.api.calls[call]? = some (.await (.insertWorkspace name slug ownerId) k) →
        (PlatformApi.insertWorkspace s.db ω.newId name slug ownerId).isOk = true →
          ∀ id c, s.sockets id = some c → c.connected = true →
            workspaceRoom ω.newId ∈ c.rooms →
              c.userId = some ownerId ∨ ∃ u, c.userId = some u ∧ IsMember s.db u ω.newId
  | _ => True

/-! ## What the calls do to workspaces and members -/

/-- A program that neither renames nor removes workspaces. -/
def Adds : ApiOp → Prop
  | .saveWorkspace _ => False
  | .removeWorkspace _ => False
  | _ => True

theorem member_upsert {l : List WorkspaceMember} {x m : WorkspaceMember} (hx : x ∈ l) :
    ∃ y ∈ upsert memberKey m l, y.workspaceId = x.workspaceId ∧ y.userId = x.userId := by
  by_cases hkey : memberKey x = memberKey m
  · have hparts := Prod.mk.inj hkey
    exact ⟨m, mem_upsert_self m l, hparts.1.symm, hparts.2.symm⟩
  · exact ⟨x, mem_upsert_of_ne hx hkey, rfl, rfl⟩

/-- Members stay, and a workspace that is new has its owner as a member. -/
structure Grows (ω : Choice) (op : ApiOp) (db db' : Database) : Prop where
  members : ∀ u w, IsMember db u w → IsMember db' u w
  workspaces : ∀ row ∈ db'.workspaces, (∃ old ∈ db.workspaces, old.id = row.id) ∨
    ∃ name slug ownerId, op = .insertWorkspace name slug ownerId ∧
      (PlatformApi.insertWorkspace db ω.newId name slug ownerId).isOk = true ∧
      row.id = ω.newId ∧ IsMember db' ownerId ω.newId

theorem apiExec_grows (pg : Postgres) (ω : Choice) {op : ApiOp} (h : Adds op)
    (s : TaskState) : Grows ω op s.db (apiExec pg ω op s).1.db := by
  have hstep := PlatformApi.apiExec_workspaces pg ω op s
  generalize hmembers : (apiExec pg ω op s).1.db.members = members at hstep
  generalize hworkspaces : (apiExec pg ω op s).1.db.workspaces = workspaces at hstep
  have hold : workspaces = s.db.workspaces → ∀ row ∈ (apiExec pg ω op s).1.db.workspaces,
      ∃ old ∈ s.db.workspaces, old.id = row.id := by
    intro hsame row hrow
    rw [hworkspaces, hsame] at hrow
    exact ⟨row, hrow, rfl⟩
  have hadded : ∀ m : WorkspaceMember, members = upsert memberKey m s.db.members →
      ∀ u w, IsMember s.db u w → IsMember (apiExec pg ω op s).1.db u w := by
    rintro m hm u w ⟨x, hx, hw, hu⟩
    obtain ⟨y, hy, hyw, hyu⟩ := member_upsert (m := m) hx
    refine ⟨y, ?_, hyw.trans hw, hyu.trans hu⟩
    rw [hmembers, hm]
    exact hy
  cases hstep with
  | same =>
      refine ⟨?_, fun row hrow => Or.inl (hold rfl row hrow)⟩
      rintro u w ⟨x, hx, hxw⟩
      refine ⟨x, ?_, hxw⟩
      rw [hmembers]
      exact hx
  | @insert name slug ownerId named =>
      refine ⟨hadded _ rfl, ?_⟩
      intro row hrow
      rw [hworkspaces] at hrow
      rcases List.mem_append.mp hrow with hrow | hrow
      · exact Or.inl ⟨row, hrow, rfl⟩
      · refine Or.inr ⟨name, slug, ownerId, rfl, ?_, ?_, ?_⟩
        · -- a rejected insert would have left the table as it was
          cases hins : PlatformApi.insertWorkspace s.db ω.newId name slug ownerId with
          | ok out => rfl
          | error e =>
              have hsame : (apiExec pg ω (.insertWorkspace name slug ownerId) s).1.db
                  = s.db := by
                show (PlatformApi.commit (s.wait ω)
                  (PlatformApi.insertWorkspace s.db ω.newId name slug ownerId)).1.db = s.db
                rw [hins]
                rfl
              rw [hsame] at hworkspaces
              exact absurd hworkspaces.symm append_singleton_ne
        · rw [List.mem_singleton.mp hrow]
        · refine ⟨⟨ω.newId, ownerId, .admin⟩, ?_, rfl, rfl⟩
          rw [hmembers]
          exact mem_upsert_self _ _
  | save accepted => exact absurd h not_false
  | saveMember placed => exact ⟨hadded _ rfl, fun row hrow => Or.inl (hold rfl row hrow)⟩
  | remove id => exact absurd h not_false

theorem adds_liftTask {α : Type} (p : TaskProg α) : OnlyIssues Adds (PlatformApi.liftTask p) := by
  induction p with
  | done a => trivial
  | fail e => trivial
  | await op k ih => exact ⟨trivial, ih⟩

/-- Both calls add only. -/
theorem tenantCall_adds (call : TenantCall) : OnlyIssues Adds call.prog := by
  cases call with
  | createWorkspace ownerId name slug =>
      refine OnlyIssues.bind ?_ fun _ => trivial
      refine ⟨trivial, ?_⟩
      intro existing
      cases existing with
      | some w => trivial
      | none =>
          refine ⟨trivial, ?_⟩
          intro answer
          cases answer with
          | error e => trivial
          | ok saved => exact ⟨trivial, fun _ => trivial⟩
  | inviteMember w performerId email role =>
      refine OnlyIssues.bind (OnlyIssues.bind ?_ ?_) fun _ => trivial
      · exact PlatformApi.onlyIssues_findById (fun _ => trivial) (fun _ _ _ => trivial)
          (fun _ => trivial) w
      · intro workspace
        refine ⟨trivial, ?_⟩
        intro found
        show OnlyIssues Adds (PlatformApi.orNotFound _ found >>= _)
        refine OnlyIssues.bind (PlatformApi.onlyIssues_orNotFound _ _) ?_
        intro user
        refine ⟨trivial, ?_⟩
        intro existing
        cases existing with
        | some member => trivial
        | none =>
            refine ⟨trivial, ?_⟩
            intro answer
            show OnlyIssues Adds (PlatformApi.orThrow answer >>= _)
            refine OnlyIssues.bind (PlatformApi.onlyIssues_orThrow _) ?_
            intro saved
            refine ⟨trivial, ?_⟩
            intro invited
            show OnlyIssues Adds (PlatformApi.orNotFound _ invited >>= _)
            refine OnlyIssues.bind (PlatformApi.onlyIssues_orNotFound _ _) ?_
            intro invitedUser
            refine ⟨trivial, ?_⟩
            intro _
            show OnlyIssues Adds (PlatformApi.liftTask _ >>= _)
            refine OnlyIssues.bind (adds_liftTask _) ?_
            intro _
            exact ⟨trivial, fun _ => trivial⟩

/-! ## The sockets -/

section Sockets

variable (verifyAsync : String → Nat → Option Payload)

/-- What holds of every socket: it waits for its own token, and nobody is known yet; who is
    known was verified; and it is in the room of its user and in rooms of workspaces, of
    which it may hear. -/
structure ClientOk (db : Database) (c : Client) : Prop where
  pending : ∀ token, c.pending = some token →
    extractToken c.handshake = some token ∧ c.userId = none
  known : ∀ u, c.userId = some u → AuthenticatedAs verifyAsync c u
  rooms : ∀ room ∈ c.rooms, (∃ u, room = userRoom u ∧ c.userId = some u) ∨
    ∃ w u, room = workspaceRoom w ∧ c.userId = some u ∧
      (c.connected = true → (∃ row ∈ db.workspaces, row.id = w) → IsMember db u w)

variable {verifyAsync} {db : Database} {c : Client}

theorem ClientOk.disconnect (h : ClientOk verifyAsync db c) :
    ClientOk verifyAsync db c.disconnect where
  pending := h.pending
  known u hu := ⟨hu, (h.known u hu).verified⟩
  rooms room hroom := by cases hroom

/-- A socket of nobody, in no room. -/
theorem ClientOk.unknown (hpending : ∀ token, c.pending = some token →
    extractToken c.handshake = some token) (hnobody : c.userId = none) (hrooms : c.rooms = []) :
    ClientOk verifyAsync db c where
  pending token h := ⟨hpending token h, hnobody⟩
  known u hu := by
    rw [hnobody] at hu
    cases hu
  rooms room hroom := by
    rw [hrooms] at hroom
    cases hroom

theorem handleConnection_ok (handshake : Handshake) :
    ClientOk verifyAsync db (handleConnection handshake) := by
  unfold handleConnection
  cases htoken : (extractToken handshake).filter fun token => token ≠ .text "" with
  | none =>
      refine .unknown ?_ rfl rfl
      intro token h
      cases h
  | some token =>
      refine .unknown ?_ rfl rfl
      intro token' h
      obtain rfl : token = token' := Option.some.inj h
      exact (Option.filter_eq_some_iff.mp htoken).1

theorem connectionVerified_ok (h : ClientOk verifyAsync db c) {token : QueryValue}
    (hpending : c.pending = some token) (now : Nat) :
    ClientOk verifyAsync db (connectionVerified verifyAsync c token now) := by
  obtain ⟨hextract, hnobody⟩ := h.pending token hpending
  unfold connectionVerified
  cases hverify : verify verifyAsync token now with
  | none =>
      refine .unknown ?_ hnobody rfl
      intro token h
      cases h
  | some payload =>
      refine ⟨?_, ?_, ?_⟩
      · intro token h
        cases h
      · intro u hu
        exact ⟨hu, token, now, payload, hextract, hverify, Option.some.inj hu⟩
      · intro room hroom
        rcases List.mem_insert_iff.mp hroom with rfl | hroom
        · exact Or.inl ⟨payload.userId, rfl, rfl⟩
        · -- nobody was known, so the socket was in no room
          rcases h.rooms room hroom with ⟨u, -, hu⟩ | ⟨w, u, -, hu, -⟩
          · rw [hnobody] at hu
            cases hu
          · rw [hnobody] at hu
            cases hu

theorem handleJoinWorkspace_ok (h : ClientOk verifyAsync db c) {data : Option JsonValue}
    (hjoin : ∀ u, truthy c.userId = some u → ∀ value, askedWorkspace data = some value →
      ∀ w, value.toText = some w → (∃ row ∈ db.workspaces, row.id = w) →
        IsMember db u w) :
    ClientOk verifyAsync db (handleJoinWorkspace c data).1 := by
  unfold handleJoinWorkspace
  cases hasked : askedWorkspace data with
  | none => exact h
  | some value =>
      cases huser : truthy c.userId with
      | none => exact h.disconnect
      | some u =>
          dsimp only
          cases htext : value.toText with
          | none => exact h
          | some w =>
              refine ⟨h.pending, fun u hu => ⟨hu, (h.known u hu).verified⟩, ?_⟩
              intro room hroom
              rcases List.mem_insert_iff.mp hroom with rfl | hroom
              · exact Or.inr ⟨w, u, rfl, (truthy_eq_some.mp huser).1,
                  fun _ => hjoin u huser value hasked w htext⟩
              · exact h.rooms room hroom

theorem handleLeaveWorkspace_ok (h : ClientOk verifyAsync db c) (data : Option JsonValue) :
    ClientOk verifyAsync db (handleLeaveWorkspace c data).1 := by
  unfold handleLeaveWorkspace
  cases askedWorkspace data with
  | none => exact h
  | some value =>
      dsimp only
      cases value.toText with
      | none => exact h
      | some w =>
          refine ⟨h.pending, fun u hu => ⟨hu, (h.known u hu).verified⟩, ?_⟩
          exact fun room hroom => h.rooms room (List.mem_filter.mp hroom).1

/-- What the socket may hear. -/
theorem ClientOk.mayHear (h : ClientOk verifyAsync db c) {b : Broadcast}
    (hb : c.Receives b) : MayHear verifyAsync db c b.audience := by
  obtain ⟨hconnected, hroom⟩ := hb
  generalize b.audience = audience at hroom ⊢
  cases audience with
  | workspace w =>
      intro hw
      rcases h.rooms _ hroom with ⟨u, heq, -⟩ | ⟨w', u, heq, hu, hmember⟩
      · exact absurd heq.symm (userRoom_ne_workspaceRoom u w)
      · obtain rfl := workspaceRoom_injective heq
        exact ⟨u, h.known u hu, hmember hconnected hw⟩
  | user u =>
      rcases h.rooms _ hroom with ⟨u', heq, hu⟩ | ⟨w, u', heq, -, -⟩
      · obtain rfl := userRoom_injective heq
        exact h.known u hu
      · exact absurd heq (userRoom_ne_workspaceRoom u w)

/-- More members, and workspaces whose rooms hold no strangers. -/
theorem ClientOk.grow {db' : Database} (h : ClientOk verifyAsync db c)
    (hmembers : ∀ u w, IsMember db u w → IsMember db' u w)
    (hnew : c.connected = true → ∀ w u, workspaceRoom w ∈ c.rooms → c.userId = some u →
      (∃ row ∈ db'.workspaces, row.id = w) →
        (∃ row ∈ db.workspaces, row.id = w) ∨ IsMember db' u w) :
    ClientOk verifyAsync db' c := by
  refine ⟨h.pending, h.known, ?_⟩
  intro room hroom
  rcases h.rooms room hroom with huser | ⟨w, u, rfl, hu, hmember⟩
  · exact Or.inl huser
  · refine Or.inr ⟨w, u, rfl, hu, ?_⟩
    intro hconnected hexists
    rcases hnew hconnected w u hroom hu hexists with hold | hmember'
    · exact hmembers u w (hmember hconnected hold)
    · exact hmember'

end Sockets

/-! ## Runs -/

section Runs

variable (verifyAsync : String → Nat → Option Payload) (pg : Postgres)

/-- Every socket is as it should be, and the calls add only. -/
structure Sound (s : World) : Prop where
  clients : ∀ id c, s.sockets id = some c → ClientOk verifyAsync s.db c
  calls : ∀ p ∈ s.api.calls, OnlyIssues Adds p

variable {verifyAsync} {s : World}

theorem start_sound (s : TaskState) (calls : List TenantCall) :
    Sound verifyAsync (World.start s calls) := by
  refine ⟨fun id c h => (by cases h), ?_⟩
  intro p hp
  obtain ⟨call, -, rfl⟩ := List.mem_map.mp hp
  exact tenantCall_adds call

theorem Sound.put (h : Sound verifyAsync s) {id : String} {c : Client}
    (hc : ClientOk verifyAsync s.db c) : Sound verifyAsync (s.put id c) := by
  refine ⟨?_, h.calls⟩
  intro i d hd
  have hd' : (if i = id then some c else s.sockets i) = some d := hd
  by_cases hi : i = id
  · rw [if_pos hi] at hd'
    obtain rfl := Option.some.inj hd'
    exact hc
  · rw [if_neg hi] at hd'
    exact h.clients i d hd'

theorem Sound.deliver (h : Sound verifyAsync s) {id : String} {handle : Client → Client}
    (hc : ∀ c, s.sockets id = some c → c.connected = true →
      ClientOk verifyAsync s.db (handle c)) :
    Sound verifyAsync (s.deliver id handle) := by
  unfold World.deliver
  cases hsocket : s.sockets id with
  | none => exact h
  | some c =>
      dsimp only
      by_cases hconnected : c.connected = true
      · rw [if_pos hconnected]
        exact h.put (hc c hsocket hconnected)
      · rw [if_neg hconnected]
        exact h

/-- A call goes on: what it adds leaves no stranger in a room. -/
theorem Sound.turn (h : Sound verifyAsync s) {call : Nat} {ω : Choice}
    (hk : KeepsOut s (.turn call ω)) :
    Sound verifyAsync (happen verifyAsync pg s (.turn call ω)) := by
  show Sound verifyAsync { s with api := step (apiExec pg) s.api call ω }
  rcases step_cases (apiExec pg) s.api call ω with hsame | ⟨op, k, hcall, hstep⟩
  · rw [hsame]
    exact h
  · have hprog := h.calls _ (List.mem_of_getElem? hcall)
    have hgrows := apiExec_grows pg ω hprog.1 s.api.shared
    rw [hstep]
    refine ⟨?_, ?_⟩
    · intro id c hc
      refine (h.clients id c hc).grow hgrows.members ?_
      rintro hconnected w u hroom hu ⟨row, hrow, rfl⟩
      rcases hgrows.workspaces row hrow with hold | ⟨name, slug, ownerId, rfl, hok, hid, howner⟩
      · exact Or.inl hold
      · -- the workspace is new, and whoever waits for it is let in
        refine Or.inr ?_
        rw [hid] at hroom ⊢
        rcases hk name slug ownerId k hcall hok id c hc hconnected hroom with hu'
          | ⟨u', hu', hm⟩
        · rw [hu] at hu'
          rw [Option.some.inj hu']
          exact howner
        · rw [hu] at hu'
          rw [Option.some.inj hu']
          exact hgrows.members u' _ hm
    · intro p hp
      rcases List.mem_or_eq_of_mem_set hp with hp | rfl
      · exact h.calls p hp
      · exact hprog.2 _

/-- A step that keeps strangers out. -/
theorem happen_sound (s : World) (e : Happening) (h : Sound verifyAsync s) (hk : KeepsOut s e) :
    Sound verifyAsync (happen verifyAsync pg s e) := by
  cases e with
  | connect id handshake =>
      simp only [happen]
      cases s.sockets id with
      | some c => exact h
      | none => exact h.put (handleConnection_ok handshake)
  | verified id now =>
      simp only [happen]
      cases hsocket : s.sockets id with
      | none => exact h
      | some c =>
          dsimp only
          cases hpending : c.pending with
          | none => exact h
          | some token => exact h.put (connectionVerified_ok (h.clients id c hsocket) hpending now)
  | joinWorkspace id data =>
      refine h.deliver ?_
      intro c hsocket hconnected
      exact handleJoinWorkspace_ok (h.clients id c hsocket) (hk c hsocket hconnected)
  | leaveWorkspace id data =>
      refine h.deliver ?_
      exact fun c hsocket _ => handleLeaveWorkspace_ok (h.clients id c hsocket) data
  | disconnect id =>
      refine h.deliver ?_
      exact fun c hsocket _ => (h.clients id c hsocket).disconnect
  | turn call ω => exact h.turn pg hk

/-- Sound sockets hear what is for them. -/
theorem Sound.inside (h : Sound verifyAsync s) : EventsInside verifyAsync s :=
  fun id c hsocket _ hb => (h.clients id c hsocket).mayHear hb

/-- A step that lets a stranger in is seen at once. -/
theorem inside_keepsOut (s : World) (e : Happening)
    (h : EventsInside verifyAsync (happen verifyAsync pg s e)) : KeepsOut s e := by
  cases e with
  | joinWorkspace id data =>
      intro c hsocket hconnected u hu value hasked w htext hexists
      have hnext : happen verifyAsync pg s (.joinWorkspace id data)
          = s.put id (c.join (workspaceRoom w)) := by
        simp only [happen, World.deliver, hsocket, if_pos hconnected, handleJoinWorkspace,
          hasked, hu, htext]
      rw [hnext] at h
      -- the socket is in the room now, so it would hear of the next task
      obtain ⟨u', hauth, hmember⟩ := h id (c.join (workspaceRoom w)) (if_pos rfl)
        (.sendTaskCreated w) ⟨hconnected, List.mem_insert_self⟩ hexists
      have huser : c.userId = some u' := hauth.stored
      rw [(truthy_eq_some.mp hu).1] at huser
      rw [Option.some.inj huser]
      exact hmember
  | turn call ω =>
      intro name slug ownerId k hcall hok id c hsocket hconnected hroom
      cases hins : PlatformApi.insertWorkspace s.db ω.newId name slug ownerId with
      | error e =>
          rw [hins] at hok
          cases hok
      | ok out =>
          obtain ⟨db, row⟩ := out
          obtain ⟨-, -, hrow, hdb⟩ := PlatformApi.insertWorkspace_ok hins
          have hnext : (happen verifyAsync pg s (.turn call ω)).db = db := by
            show (step (apiExec pg) s.api call ω).shared.db = db
            rw [step_await (apiExec pg) hcall ω]
            show (PlatformApi.commit (s.api.shared.wait ω)
              (PlatformApi.insertWorkspace s.db ω.newId name slug ownerId)).1.db = db
            rw [hins]
            rfl
          have hexists : ∃ r ∈ (happen verifyAsync pg s (.turn call ω)).db.workspaces,
              r.id = ω.newId := by
            rw [hnext, hdb]
            exact ⟨row, List.mem_append_right _ (List.mem_singleton.mpr rfl), by rw [hrow]⟩
          -- whoever sits in the room of the new id hears of the new workspace
          obtain ⟨u, hauth, m, hm, hmw, hmu⟩ := h id c hsocket (.sendTaskCreated ω.newId)
            ⟨hconnected, hroom⟩ hexists
          rw [hnext, hdb] at hm
          -- the membership is that of the owner, or it was there before the workspace
          by_cases hkey : memberKey m = memberKey ⟨ω.newId, ownerId, .admin⟩
          · have howner : m.userId = ownerId := congrArg Prod.snd hkey
            exact Or.inl (hauth.stored.trans (congrArg some (hmu.symm.trans howner)))
          · exact Or.inr ⟨u, hauth.stored, m, mem_of_mem_upsert_ne hm hkey, hmw, hmu⟩
  | connect id handshake => trivial
  | verified id now => trivial
  | leaveWorkspace id data => trivial
  | disconnect id => trivial

/-- **When realtime events stay inside.**  For every order of connections, verifications,
    requests to join and leave, disconnections and steps of calls that add workspaces and
    members: in every state each event is received only by sockets that may hear it,
    exactly when no step lets a stranger into the room of a workspace. -/
theorem events_inside_iff (s : TaskState) (calls : List TenantCall) (l : List Happening) :
    Always (happen verifyAsync pg) (EventsInside verifyAsync) (World.start s calls) l ↔
      Throughout (happen verifyAsync pg) KeepsOut (World.start s calls) l :=
  always_iff_throughout (happen_sound pg) (fun _ h => h.inside)
    (fun s e _ => inside_keepsOut pg s e) (start_sound s calls) l

end Runs

/-- The tokens of a test: that of Carol. -/
def carolsToken (token : String) (_ : Nat) : Option Payload :=
  if token = "t" then some ⟨"c", "carol@x"⟩ else none

/-- The office, and Carol, who has an account. -/
def officeAndCarol : TaskState :=
  { office with
    db := { office.db with
      users := office.db.users ++ [⟨"c", "carol@x", none, "Carol", none, true⟩] } }

/-- Carol connects and asks for the workspace of Alice and Bob. -/
def carolListens : List Happening :=
  [.connect "1" { authorization := some "Bearer t" }, .verified "1" 0,
    .joinWorkspace "1" (some (.object [("workspaceId", .string "w")]))]

/-- She hears of every task in it. -/
theorem stranger_hears :
    let s := play (happen carolsToken PlatformApi.plainPostgres) (World.start officeAndCarol [])
      carolListens
    (∃ c, s.sockets "1" = some c ∧ c.userId = some "c" ∧
      c.rooms = ["workspace_w", "user_c"] ∧
        c.Receives (.sendTaskCreated "w")) ∧
      ¬ IsMember s.db "c" "w" ∧ ¬ EventsInside carolsToken s := by
  intro s
  have hsocket : s.sockets "1" = some
      { handshake := { authorization := some "Bearer t" }, userId := some "c",
        email := some "carol@x", rooms := ["workspace_w", "user_c"] } := by decide
  have hstranger : ¬ IsMember s.db "c" "w" := by decide
  have hreceives : Client.Receives
      { handshake := { authorization := some "Bearer t" }, userId := some "c",
        email := some "carol@x", rooms := ["workspace_w", "user_c"] }
      (.sendTaskCreated "w") := ⟨rfl, List.mem_cons_self⟩
  refine ⟨⟨_, hsocket, rfl, rfl, hreceives⟩, hstranger, ?_⟩
  intro hinside
  obtain ⟨u, hauth, hmember⟩ := hinside "1" _ hsocket _ hreceives
    ⟨⟨"w", "Work", "work", "a"⟩, List.mem_cons_self, rfl⟩
  rw [← Option.some.inj hauth.stored] at hmember
  exact hstranger hmember

end PlatformRealtime
