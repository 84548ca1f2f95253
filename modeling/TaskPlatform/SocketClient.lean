import TaskPlatform.RealtimeGateway

/-! # The socket of the web client

    `src/frontend/src/services/socket/socketService.ts` and the hook that uses it,
    `src/frontend/src/hooks/useSocket.ts`, against the gateway.

    The client puts its token into `auth` and the workspace into `query`; the gateway reads
    the token from the `Authorization` header or from `query`, and lets a socket into the
    room of a workspace when it asks with `join-workspace`, which the client never sends.
    So no connection of the client is accepted (`never_agreed`). -/

namespace PlatformRealtime

open EventRuns PlatformEntities PlatformTasks
open PlatformApi (Postgres IsMember)
open PlatformAuth (Payload)

/-! ## `SocketService` -/

/-- The callbacks of `useSocket`. -/
inductive Listener where
  | handleTaskCreated
  | handleTaskUpdated
  | handleTaskDeleted
  | handleCommentCreated
  | handleNotificationCreated
  | handleWorkspaceUpdated
  | handleProjectUpdated
  deriving DecidableEq, Repr

/-- The options of `io(..)` that the server gets to see. -/
structure SocketOptions where
  auth : List (String × String)
  query : List (String × String)
  deriving DecidableEq, Repr

/-- `this.socket`: the callbacks bound to it, and what was sent through it. -/
structure ClientSocket where
  opts : SocketOptions
  connected : Bool := false
  bound : List (String × Listener) := []
  sent : List (String × JsonValue) := []

/-- `auth` arrives as `handshake.auth` and `query` as `handshake.query`; a browser adds no
    `Authorization` header. -/
def ClientSocket.handshake (socket : ClientSocket) : Handshake where
  authorization := none
  auth := socket.opts.auth
  query := socket.opts.query.map fun p => (p.1, .text p.2)

/-- `SocketService`: the socket at hand, and the callbacks that were asked for. -/
structure SocketService where
  socket : Option ClientSocket := none
  listeners : List (String × Listener) := []

namespace SocketService

/-- `disconnect`. -/
def disconnect (service : SocketService) : SocketService := { service with socket := none }

/-- `io(..)`, and the listeners bound again. -/
def openSocket (service : SocketService) (token : String) (workspaceId : Option String) :
    SocketService :=
  { service with
    socket := some
      { opts :=
          { auth := [("token", token)]
            query :=
              match truthy workspaceId with
              | some workspaceId => [("workspaceId", workspaceId)]
              | none => [] }
        bound := service.listeners } }

/-- `this.socket.io.opts.query.workspaceId`. -/
def queryWorkspace (socket : ClientSocket) : Option String :=
  (socket.opts.query.find? fun p => p.1 = "workspaceId").map Prod.snd

/-- A connected socket is kept while its workspace is the one asked for.  (Without a
    workspace `undefined` meets `null`, and the socket is opened anew.) -/
def connect (service : SocketService) (token : String) (workspaceId : Option String) :
    SocketService :=
  match service.socket with
  | none => service.openSocket token workspaceId
  | some socket =>
      if socket.connected then
        if workspaceId.isNone || queryWorkspace socket ≠ workspaceId then
          service.disconnect.openSocket token workspaceId
        else
          service
      else
        service.openSocket token workspaceId

/-- `on`: the callback is kept, and bound where there is a socket. -/
def on (service : SocketService) (event : String) (callback : Listener) : SocketService where
  listeners := service.listeners.insert (event, callback)
  socket := service.socket.map fun socket =>
    { socket with bound := socket.bound ++ [(event, callback)] }

/-- `off` of a socket takes one binding away. -/
def off (service : SocketService) (event : String) (callback : Listener) : SocketService where
  listeners := service.listeners.filter fun l => l ≠ (event, callback)
  socket := service.socket.map fun socket =>
    { socket with bound := socket.bound.erase (event, callback) }

/-- A message goes out through a connected socket only. -/
def emit (service : SocketService) (event : String) (data : JsonValue) : SocketService :=
  { service with
    socket := service.socket.map fun socket =>
      if socket.connected then { socket with sent := socket.sent ++ [(event, data)] }
      else socket }

end SocketService

/-! ## `useSocket` -/

/-- The listeners that the hook registers. -/
def hookListeners : List (String × Listener) :=
  [("task.created", .handleTaskCreated), ("task.updated", .handleTaskUpdated),
    ("task.deleted", .handleTaskDeleted), ("comment.created", .handleCommentCreated),
    ("notification.created", .handleNotificationCreated),
    ("workspace.updated", .handleWorkspaceUpdated),
    ("project.updated", .handleProjectUpdated)]

/-- Both effects of the hook. -/
def useSocket (service : SocketService) (token activeWorkspaceId : Option String) :
    SocketService :=
  match truthy token with
  | none => service.disconnect
  | some token =>
      hookListeners.foldl (fun service l => service.on l.1 l.2)
        (service.connect token activeWorkspaceId)

/-- The cleanup of its second effect. -/
def cleanup (service : SocketService) : SocketService :=
  hookListeners.foldl (fun service l => service.off l.1 l.2) service

/-- What happens to the service: the hook runs its effects or cleans up after them, the
    server acknowledges the socket, or drops it. -/
inductive ClientEvent where
  | render (token activeWorkspaceId : Option String)
  | unmount
  | acknowledged
  | dropped

/-- One step; the handlers of `connect` and `disconnect` only write to the console. -/
def clientStep (service : SocketService) : ClientEvent → SocketService
  | .render token activeWorkspaceId => useSocket service token activeWorkspaceId
  | .unmount => cleanup service
  | .acknowledged =>
      { service with socket := service.socket.map fun socket => { socket with connected := true } }
  | .dropped =>
      { service with socket := service.socket.map fun socket => { socket with connected := false } }

/-- A message as the gateway gets it. -/
def received (id : String) : String × JsonValue → Option Happening
  | (event, data) =>
      if event = "join-workspace" then some (.joinWorkspace id (some data))
      else if event = "leave-workspace" then some (.leaveWorkspace id (some data))
      else none

/-! ## What the client sends -/

/-- The client never sends a message, and its handshake holds no token where the gateway
    looks for one. -/
structure Silent (socket : ClientSocket) : Prop where
  sent : socket.sent = []
  query : ∀ p ∈ socket.opts.query, p.1 = "workspaceId"

theorem Silent.extractToken {socket : ClientSocket} (h : Silent socket) :
    extractToken socket.handshake = none := by
  have hnone : socket.handshake.parameter "token" = none := by
    refine Option.map_eq_none_iff.mpr (List.find?_eq_none.mpr ?_)
    intro p hp htoken
    obtain ⟨q, hq, rfl⟩ := List.mem_map.mp hp
    have hname : q.1 = "token" := of_decide_eq_true htoken
    rw [h.query q hq] at hname
    exact absurd hname (by decide)
  show (socket.handshake.parameter "token").filter _ = none
  rw [hnone]
  rfl

/-- The socket at hand, if any, has no token where the gateway looks for one. -/
def AllSilent (service : SocketService) : Prop :=
  ∀ socket, service.socket = some socket → Silent socket

theorem openSocket_silent (service : SocketService) (token : String) (w : Option String) :
    AllSilent (service.openSocket token w) := by
  intro socket h
  obtain rfl := Option.some.inj h
  refine ⟨rfl, ?_⟩
  intro p hp
  cases htruthy : truthy w with
  | none =>
      rw [htruthy] at hp
      cases hp
  | some id =>
      rw [htruthy] at hp
      rw [List.mem_singleton.mp hp]

theorem connect_silent {service : SocketService} (h : AllSilent service) (token : String)
    (w : Option String) : AllSilent (service.connect token w) := by
  unfold SocketService.connect
  cases hsocket : service.socket with
  | none => exact openSocket_silent service token w
  | some socket =>
      dsimp only
      split
      · split
        · exact openSocket_silent _ token w
        · exact h
      · exact openSocket_silent service token w

/-- Changes to the bound callbacks and the connection only. -/
theorem AllSilent.map {service service' : SocketService} (h : AllSilent service)
    {f : ClientSocket → ClientSocket} (hs : service'.socket = service.socket.map f)
    (hsent : ∀ socket, (f socket).sent = socket.sent)
    (hopts : ∀ socket, (f socket).opts = socket.opts) : AllSilent service' := by
  intro socket' h'
  rw [hs] at h'
  obtain ⟨socket, hsocket, rfl⟩ := Option.map_eq_some_iff.mp h'
  have hsilent := h socket hsocket
  refine ⟨(hsent socket).trans hsilent.sent, ?_⟩
  rw [hopts]
  exact hsilent.query

theorem listen_silent (l : List (String × Listener)) {service : SocketService}
    (h : AllSilent service) :
    AllSilent (l.foldl (fun service l => service.on l.1 l.2) service) := by
  induction l generalizing service with
  | nil => exact h
  | cons hd rest ih => exact ih (h.map rfl (fun _ => rfl) fun _ => rfl)

theorem ignore_silent (l : List (String × Listener)) {service : SocketService}
    (h : AllSilent service) :
    AllSilent (l.foldl (fun service l => service.off l.1 l.2) service) := by
  induction l generalizing service with
  | nil => exact h
  | cons hd rest ih => exact ih (h.map rfl (fun _ => rfl) fun _ => rfl)

theorem clientStep_silent (service : SocketService) (e : ClientEvent) (h : AllSilent service) :
    AllSilent (clientStep service e) := by
  cases e with
  | render token w =>
      simp only [clientStep, useSocket]
      cases truthy token with
      | none =>
          intro socket hsocket
          cases hsocket
      | some token => exact listen_silent _ (connect_silent h token w)
  | unmount => exact ignore_silent _ h
  | acknowledged => exact h.map rfl (fun _ => rfl) fun _ => rfl
  | dropped => exact h.map rfl (fun _ => rfl) fun _ => rfl

/-! ## The two together -/

/-- A socket that was turned away. -/
structure Gone (c : Client) : Prop where
  connected : c.connected = false
  pending : c.pending = none
  rooms : c.rooms = []

section Together

variable (verifyAsync : String → Nat → Option Payload) (pg : Postgres)

/-- It stays away whatever happens. -/
theorem happen_gone {s : World} {id : String} {c : Client} (hc : s.sockets id = some c)
    (hgone : Gone c) (e : Happening) : (happen verifyAsync pg s e).sockets id = some c := by
  have hput : ∀ (i : String) (d : Client), i ≠ id → (s.put i d).sockets id = some c := by
    intro i d hi
    exact (if_neg (Ne.symm hi)).trans hc
  have hdeliver : ∀ i handle, (s.deliver i handle).sockets id = some c := by
    intro i handle
    unfold World.deliver
    -- no handler runs for a socket that is not connected
    by_cases hi : i = id
    · subst hi
      rw [hc]
      dsimp only
      rw [hgone.connected]
      exact hc
    · cases s.sockets i with
      | none => exact hc
      | some d =>
          dsimp only
          split
          · exact hput i _ hi
          · exact hc
  cases e with
  | connect i handshake =>
      simp only [happen]
      by_cases hi : i = id
      · subst hi
        rw [hc]
        exact hc
      · cases s.sockets i with
        | some d => exact hc
        | none => exact hput i _ hi
  | verified i now =>
      simp only [happen]
      by_cases hi : i = id
      · subst hi
        rw [hc]
        dsimp only
        -- and no verification is outstanding
        rw [hgone.pending]
        exact hc
      · cases s.sockets i with
        | none => exact hc
        | some d =>
            dsimp only
            cases d.pending with
            | none => exact hc
            | some token => exact hput i _ hi
  | joinWorkspace i data => exact hdeliver i _
  | leaveWorkspace i data => exact hdeliver i _
  | disconnect i => exact hdeliver i _
  | turn call ω => exact hc

/-- A connection whose handshake holds no token is turned away for good. -/
theorem rejected_forever {s : World} {id : String} (hid : s.sockets id = none)
    {handshake : Handshake} (h : extractToken handshake = none) (l : List Happening) :
    ∃ c, (play (happen verifyAsync pg) s (.connect id handshake :: l)).sockets id = some c ∧
      Gone c := by
  have hrejected : (happen verifyAsync pg s (.connect id handshake)).sockets id
      = some (handleConnection handshake) := by
    simp only [happen, hid]
    exact if_pos rfl
  have hgone : Gone (handleConnection handshake) := by
    unfold handleConnection
    rw [h]
    exact ⟨rfl, rfl, rfl⟩
  have hstays : ∀ (t : World) (e : Happening),
      t.sockets id = some (handleConnection handshake) →
        (happen verifyAsync pg t e).sockets id = some (handleConnection handshake) :=
    fun t e ht => happen_gone verifyAsync pg ht hgone e
  exact ⟨handleConnection handshake, play_invariant hstays hrejected l, hgone⟩

/-- The hook runs with this token and workspace, whatever the service was used for before:
    its connection is accepted, after what it sends by itself it is in the room of the
    workspace, and so the two events of a task come to the callbacks of the hook. -/
def Agreed (history : List ClientEvent) (s : World) (id : String) (now : Nat)
    (token workspaceId : String) : Prop :=
  ∃ socket, (useSocket (play clientStep {} history) (some token) (some workspaceId)).socket
      = some socket ∧
    ∃ c, (play (happen verifyAsync pg) s
        (.connect id socket.handshake :: .verified id now ::
          socket.sent.filterMap (received id))).sockets id = some c ∧
      c.connected = true ∧
      (c.Receives (.sendTaskCreated workspaceId) ∧
        ((Broadcast.sendTaskCreated workspaceId).event, .handleTaskCreated) ∈ socket.bound) ∧
      c.Receives (.sendTaskUpdated workspaceId) ∧
        ((Broadcast.sendTaskUpdated workspaceId).event, .handleTaskUpdated) ∈ socket.bound

/-- Whatever the hook was used for before, whatever the state of the server, the token and
    the workspace: the connection that the hook opens
    is turned away, and stays so whatever happens. -/
theorem client_turned_away (history : List ClientEvent) (token workspaceId : Option String)
    {socket : ClientSocket}
    (hopened : (useSocket (play clientStep {} history) token workspaceId).socket = some socket)
    {s : World} {id : String} (hid : s.sockets id = none) (l : List Happening) :
    ∃ c, (play (happen verifyAsync pg) s (.connect id socket.handshake :: l)).sockets id
      = some c ∧ Gone c := by
  have hsilent : AllSilent (play clientStep {} (history ++ [.render token workspaceId])) :=
    play_invariant clientStep_silent (fun _ h => by cases h) _
  rw [play_append] at hsilent
  exact rejected_forever verifyAsync pg hid (hsilent socket hopened).extractToken l

/-- **Client and gateway never agree.** -/
theorem never_agreed (history : List ClientEvent) (s : World) (id : String)
    (hid : s.sockets id = none) (now : Nat) (token workspaceId : String) :
    ¬ Agreed verifyAsync pg history s id now token workspaceId := by
  rintro ⟨socket, hopened, c, hc, hconnected, -⟩
  obtain ⟨d, hd, hgone⟩ := client_turned_away verifyAsync pg history (some token)
    (some workspaceId) hopened hid (.verified id now :: socket.sent.filterMap (received id))
  rw [hc] at hd
  rw [Option.some.inj hd, hgone.connected] at hconnected
  cases hconnected

end Together

/-- The tokens of a test: that of Alice. -/
def alicesToken (token : String) (_ : Nat) : Option Payload :=
  if token = "t" then some ⟨"a", "alice@x"⟩ else none

theorem never_agreed_alice :
    ¬ Agreed alicesToken PlatformApi.plainPostgres [] (World.start office []) "1" 0 "t" "w" :=
  never_agreed alicesToken PlatformApi.plainPostgres [] (World.start office []) "1" rfl 0 "t" "w"

/-- Alice's token is good and she is a member; her browser connects, and is turned away. -/
theorem member_turned_away :
    (∃ payload, alicesToken "t" 0 = some payload ∧ IsMember office.db payload.userId "w") ∧
      (∃ socket, (useSocket {} (some "t") (some "w")).socket = some socket ∧
        socket.handshake = ⟨none, [("token", "t")], [("workspaceId", .text "w")]⟩ ∧
        socket.sent.filterMap (received "1") = [] ∧
        (play (happen alicesToken PlatformApi.plainPostgres) (World.start office [])
            [.connect "1" socket.handshake, .verified "1" 0]).sockets "1"
          = some { handshake := socket.handshake, connected := false }) ∧
      ¬ Agreed alicesToken PlatformApi.plainPostgres [] (World.start office []) "1" 0 "t" "w" := by
  refine ⟨⟨⟨"a", "alice@x"⟩, rfl, by decide⟩, ⟨_, rfl, rfl, rfl, rfl⟩, ?_⟩
  rintro ⟨socket, hopened, c, hc, hconnected, -⟩
  obtain rfl := Option.some.inj hopened
  obtain rfl := Option.some.inj hc
  cases hconnected

end PlatformRealtime
