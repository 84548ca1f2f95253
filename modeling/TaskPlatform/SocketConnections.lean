import TaskPlatform.SetMap
import TaskPlatform.SocketClient

/-! # The connections that `SocketService` opens

    `connect`, `disconnect`, `on` and `off` of
    `src/frontend/src/services/socket/socketService.ts` with every socket that they open
    and the life of its connection, which goes on when the service has let go of the
    socket.

    `connect` asks `this.socket?.connected`.  A socket that is still connecting, for the
    first time or again, is replaced without being closed; one that is connected is kept
    while the workspace is the same, whatever the token.  In the runs without these two
    the service keeps one connection (`one_connection_iff`). -/

namespace PlatformRealtime

open EventRuns PlatformTasks

/-! ## Sockets -/

/-- `workspaceId?: string | null`. -/
abbrev WorkspaceArgument := PlatformTasks.Field String

/-- The connection of a socket.  A lost one is tried again without end, and so is
    `connecting`. -/
inductive Link where
  | connecting
  | connected
  | closed
  deriving DecidableEq, Repr

/-- The server answers. -/
def Link.establish : Link → Link
  | .connecting => .connected
  | link => link

/-- The transport breaks. -/
def Link.lose : Link → Link
  | .connected => .connecting
  | link => link

/-- A socket that `io(..)` returned, with the callbacks bound to it; the three that only
    write to the console are left out. -/
structure OpenedSocket (Callback : Type) where
  token : String
  workspaceId : Option String
  link : Link := .connecting
  bound : List (String × Callback)
  deriving DecidableEq, Repr

/-- Connected, or still connecting. -/
def OpenedSocket.live {Callback : Type} (x : OpenedSocket Callback) : Bool := x.link ≠ .closed

/-- The socket with another link. -/
def OpenedSocket.setLink {Callback : Type} (x : OpenedSocket Callback) (link : Link) :
    OpenedSocket Callback := { x with link := link }

/-! ## The service -/

/-- `this.socket`, the sockets that it was before, and `this.listeners`. -/
structure Connections (Callback : Type) where
  socket : Option (OpenedSocket Callback) := none
  abandoned : List (OpenedSocket Callback) := []
  listeners : SetMap String Callback := .empty

/-- `workspaceId ? { workspaceId } : {}`. -/
def queryOf : WorkspaceArgument → Option String
  | .val workspaceId => truthy (some workspaceId)
  | _ => none

namespace Connections

variable {Callback : Type}

/-- `io(..)` with the listeners bound to the new socket. -/
def openSocket (s : Connections Callback) (token : String) (workspaceId : WorkspaceArgument) :
    Connections Callback :=
  { s with
    socket := some
      { token := token
        workspaceId := queryOf workspaceId
        bound := s.listeners.pairs }
    abandoned := s.socket.toList ++ s.abandoned }

/-- `disconnect`. -/
def disconnect (s : Connections Callback) : Connections Callback :=
  match s.socket with
  | none => s
  | some x => { s with socket := none, abandoned := x.setLink .closed :: s.abandoned }

/-- `this.socket.io.opts.query.workspaceId !== workspaceId`. -/
def workspaceChanged (x : OpenedSocket Callback) : WorkspaceArgument → Bool
  | .undefined => x.workspaceId.isSome
  | .null => true
  | .val workspaceId => x.workspaceId ≠ some workspaceId

/-- `connect`. -/
def connect (s : Connections Callback) (token : String) (workspaceId : WorkspaceArgument) :
    Connections Callback :=
  match s.socket with
  | none => s.openSocket token workspaceId
  | some x =>
      if x.link = .connected then
        if workspaceChanged x workspaceId then s.disconnect.openSocket token workspaceId
        else s
      else s.openSocket token workspaceId

variable [DecidableEq Callback]

/-- `on`: the callback is kept, and bound where there is a socket. -/
def on (s : Connections Callback) (event : String) (callback : Callback) :
    Connections Callback :=
  { s with
    listeners := s.listeners.add event callback
    socket := s.socket.map fun x => { x with bound := x.bound ++ [(event, callback)] } }

/-- `off` of a socket takes one binding away. -/
def off (s : Connections Callback) (event : String) (callback : Callback) :
    Connections Callback :=
  { s with
    listeners := s.listeners.remove event callback
    socket := s.socket.map fun x => { x with bound := x.bound.erase (event, callback) } }

/-- What becomes of the connection of the socket that is held, or of another. -/
def changeLink (s : Connections Callback) (f : Link → Link) : Option Nat → Connections Callback
  | none => { s with socket := s.socket.map fun x => x.setLink (f x.link) }
  | some i =>
      { s with abandoned := s.abandoned.mapIdx fun j x =>
          if j = i then x.setLink (f x.link) else x }

/-- All the sockets that the service has opened and that are live. -/
def live (s : Connections Callback) : List (OpenedSocket Callback) :=
  (s.socket.toList ++ s.abandoned).filter OpenedSocket.live

end Connections

/-- The calls of the service, and what happens to the connection of the socket that it
    holds (`none`) or of one that it has let go. -/
inductive ConnectionEvent (Callback : Type) where
  | connect (token : String) (workspaceId : WorkspaceArgument)
  | disconnect
  | on (event : String) (callback : Callback)
  | off (event : String) (callback : Callback)
  | established (socket : Option Nat)
  | lost (socket : Option Nat)
  | closedByServer (socket : Option Nat)
  deriving DecidableEq, Repr

/-- One event. -/
def connectionStep {Callback : Type} [DecidableEq Callback] (s : Connections Callback) :
    ConnectionEvent Callback → Connections Callback
  | .connect token workspaceId => s.connect token workspaceId
  | .disconnect => s.disconnect
  | .on event callback => s.on event callback
  | .off event callback => s.off event callback
  | .established socket => s.changeLink Link.establish socket
  | .lost socket => s.changeLink Link.lose socket
  | .closedByServer socket => s.changeLink (fun _ => .closed) socket

/-! ## The same calls in the model of the client -/

/-- The client as the gateway gets to know it. -/
def Connections.client (s : Connections Listener) : SocketService where
  socket := s.socket.map fun x =>
    { opts :=
        { auth := [("token", x.token)]
          query := x.workspaceId.toList.map fun workspaceId => ("workspaceId", workspaceId) }
      connected := x.link = .connected
      bound := x.bound }
  listeners := s.listeners.pairs

/-- The workspace as the hook passes it. -/
def ofStore : Option String → WorkspaceArgument
  | some workspaceId => .val workspaceId
  | none => .null

theorem openSocket_client (s : Connections Listener) (token : String)
    (workspaceId : Option String) :
    (s.openSocket token (ofStore workspaceId)).client
      = s.client.openSocket token workspaceId := by
  cases workspaceId with
  | none => rfl
  | some w =>
      unfold Connections.openSocket Connections.client SocketService.openSocket ofStore queryOf
      dsimp only
      cases truthy (some w) with
      | none => rfl
      | some w => rfl

theorem disconnect_client (s : Connections Listener) :
    s.disconnect.client = s.client.disconnect := by
  unfold Connections.disconnect
  cases h : s.socket with
  | none =>
      dsimp only
      unfold Connections.client SocketService.disconnect
      rw [h]
      rfl
  | some x => rfl

theorem queryWorkspace_client (x : OpenedSocket Listener) (connected : Bool) :
    SocketService.queryWorkspace
        { opts :=
            { auth := [("token", x.token)]
              query := x.workspaceId.toList.map fun workspaceId => ("workspaceId", workspaceId) }
          connected := connected
          bound := x.bound } = x.workspaceId := by
  unfold SocketService.queryWorkspace
  cases x.workspaceId with
  | none => rfl
  | some w => rfl

/-- `connect` opens a socket in the one model when it does in the other. -/
theorem connect_client (s : Connections Listener) (token : String)
    (workspaceId : Option String) :
    (s.connect token (ofStore workspaceId)).client = s.client.connect token workspaceId := by
  unfold Connections.connect SocketService.connect
  cases hsocket : s.socket with
  | none =>
      have hclient : s.client.socket = none := by
        unfold Connections.client
        rw [hsocket]
        rfl
      rw [hclient]
      exact openSocket_client s token workspaceId
  | some x =>
      have hclient : s.client.socket = _ := congrArg (Option.map _) hsocket
      rw [hclient]
      dsimp only [Option.map_some]
      rw [queryWorkspace_client]
      by_cases hlink : x.link = .connected
      · rw [if_pos hlink, if_pos (decide_eq_true hlink)]
        have hchanged : Connections.workspaceChanged x (ofStore workspaceId)
            = (workspaceId.isNone || decide (x.workspaceId ≠ workspaceId)) := by
          cases workspaceId with
          | none => rfl
          | some w => rfl
        rw [hchanged]
        by_cases hother : (workspaceId.isNone || decide (x.workspaceId ≠ workspaceId)) = true
        · rw [if_pos hother, if_pos hother, openSocket_client, disconnect_client]
        · rw [if_neg hother, if_neg hother]
      · rw [if_neg hlink, if_neg fun h => hlink (of_decide_eq_true h)]
        exact openSocket_client s token workspaceId

/-! ## One connection -/

section Keeping

variable {Callback : Type}

/-- The service, what the last of the calls of `connect` and `disconnect` asked for, and
    the callbacks that were registered and not removed. -/
structure Watched (Callback : Type) where
  service : Connections Callback := {}
  asked : Option (String × WorkspaceArgument) := none
  registered : List (String × Callback) := []

/-- One event, and what has been asked for so far. -/
def watch [DecidableEq Callback] (s : Watched Callback) (e : ConnectionEvent Callback) :
    Watched Callback where
  service := connectionStep s.service e
  asked :=
    match e with
    | .connect token workspaceId => some (token, workspaceId)
    | .disconnect => none
    | _ => s.asked
  registered :=
    match e with
    | .on event callback => s.registered ++ [(event, callback)]
    | .off event callback => s.registered.filter fun l => l ≠ (event, callback)
    | _ => s.registered

/-- The socket was opened as it is asked for now. -/
def OpenedAs (asked : Option (String × WorkspaceArgument)) (x : OpenedSocket Callback) : Prop :=
  ∃ token workspaceId, asked = some (token, workspaceId) ∧ x.token = token ∧
    x.workspaceId = queryOf workspaceId

/-- The callbacks are bound to the socket, each once, and no others. -/
def Attached (registered : List (String × Callback)) (x : OpenedSocket Callback) : Prop :=
  x.bound.Nodup ∧ ∀ l, l ∈ x.bound ↔ l ∈ registered

/-- At most one socket is live, and it is the one that is asked for; after `disconnect`
    none is. -/
structure OneConnection (s : Watched Callback) : Prop where
  one : s.service.live.length ≤ 1
  opened : ∀ x ∈ s.service.live, OpenedAs s.asked x
  attached : ∀ x ∈ s.service.live, Attached s.registered x

/-- `on` is not repeated for a callback that is still registered. -/
def NotRepeated (s : Watched Callback) : ConnectionEvent Callback → Prop
  | .on event callback => (event, callback) ∉ s.registered
  | _ => True

/-- `connect` finds no socket that is still connecting, and no connected one of the same
    workspace and another token. -/
def Timely (s : Watched Callback) : ConnectionEvent Callback → Prop
  | .connect token workspaceId => ∀ x, s.service.socket = some x →
      x.link ≠ .connecting ∧
        (x.link = .connected → Connections.workspaceChanged x workspaceId = false →
          x.token = token)
  | _ => True

/-- The sockets that were let go are closed, and the one that is held is what is asked
    for. -/
structure Orderly (s : Watched Callback) : Prop where
  abandoned : ∀ x ∈ s.service.abandoned, x.link = .closed
  opened : ∀ x, s.service.socket = some x → OpenedAs s.asked x
  attached : ∀ x, s.service.socket = some x → Attached s.registered x
  listeners : ∀ l, l ∈ s.service.listeners.pairs ↔ l ∈ s.registered

theorem live_iff {x : OpenedSocket Callback} : x.live = true ↔ x.link ≠ .closed :=
  decide_eq_true_iff

theorem Orderly.live_eq {s : Watched Callback} (h : Orderly s) :
    s.service.live = s.service.socket.toList.filter OpenedSocket.live := by
  unfold Connections.live
  rw [List.filter_append]
  have hnone : s.service.abandoned.filter OpenedSocket.live = [] := by
    refine List.filter_eq_nil_iff.mpr ?_
    intro x hx hlive
    exact live_iff.mp hlive (h.abandoned x hx)
  rw [hnone, List.append_nil]

theorem Orderly.oneConnection {s : Watched Callback} (h : Orderly s) : OneConnection s := by
  have hheld : ∀ x ∈ s.service.live, s.service.socket = some x := by
    intro x hx
    rw [h.live_eq] at hx
    exact Option.mem_toList.mp (List.mem_filter.mp hx).1
  refine ⟨?_, fun x hx => h.opened x (hheld x hx), fun x hx => h.attached x (hheld x hx)⟩
  rw [h.live_eq]
  refine (List.length_filter_le ..).trans ?_
  cases s.service.socket with
  | none => exact Nat.zero_le 1
  | some x => exact le_refl 1

/-! ### Steps -/

/-- A new socket, once the one before is closed. -/
theorem Orderly.openSocket {s : Watched Callback} (h : Orderly s) (token : String)
    (workspaceId : WorkspaceArgument)
    (hclosed : ∀ x, s.service.socket = some x → x.link = .closed) :
    Orderly { s with
      service := s.service.openSocket token workspaceId
      asked := some (token, workspaceId) } where
  abandoned := by
    intro x hx
    rcases List.mem_append.mp hx with hx | hx
    · exact hclosed x (Option.mem_toList.mp hx)
    · exact h.abandoned x hx
  opened := by
    intro x hx
    cases hx
    exact ⟨token, workspaceId, rfl, rfl, rfl⟩
  attached := by
    intro x hx
    cases hx
    exact ⟨s.service.listeners.pairs_nodup, h.listeners⟩
  listeners := h.listeners

theorem Orderly.disconnect {s : Watched Callback} (h : Orderly s)
    (asked : Option (String × WorkspaceArgument)) :
    Orderly { s with service := s.service.disconnect, asked := asked } := by
  unfold Connections.disconnect
  cases hsocket : s.service.socket with
  | none =>
      refine ⟨h.abandoned, ?_, ?_, h.listeners⟩
      · intro x hx
        exact nomatch hsocket.symm.trans hx
      · intro x hx
        exact nomatch hsocket.symm.trans hx
  | some y =>
      refine ⟨?_, fun x hx => (nomatch hx), fun x hx => (nomatch hx), h.listeners⟩
      intro x hx
      rcases List.mem_cons.mp hx with rfl | hx
      · rfl
      · exact h.abandoned x hx

/-- A connected socket that `connect` keeps has the workspace that is asked for. -/
theorem queryOf_of_unchanged {x : OpenedSocket Callback} {workspaceId : WorkspaceArgument}
    {asked : Option (String × WorkspaceArgument)} (hx : OpenedAs asked x)
    (h : Connections.workspaceChanged x workspaceId = false) :
    x.workspaceId = queryOf workspaceId := by
  cases workspaceId with
  | undefined => exact Option.not_isSome_iff_eq_none.mp (Bool.eq_false_iff.mp h)
  | null => cases h
  | val w =>
      have hw : x.workspaceId = some w := by
        by_contra hne
        exact absurd (decide_eq_true hne) (Bool.eq_false_iff.mp h)
      obtain ⟨token, workspaceId, -, -, hquery⟩ := hx
      rw [hw] at hquery ⊢
      cases workspaceId with
      | undefined => cases hquery
      | null => cases hquery
      | val v =>
          have htruthy : truthy (some v) = some w := hquery.symm
          obtain ⟨hsame, hne⟩ := truthy_eq_some.mp htruthy
          exact (truthy_eq_some.mpr ⟨rfl, hne⟩).symm

theorem Orderly.connect {s : Watched Callback} (h : Orderly s) {token : String}
    {workspaceId : WorkspaceArgument}
    (htimely : ∀ x, s.service.socket = some x → x.link ≠ .connecting ∧
      (x.link = .connected → Connections.workspaceChanged x workspaceId = false →
        x.token = token)) :
    Orderly { s with
      service := s.service.connect token workspaceId
      asked := some (token, workspaceId) } := by
  unfold Connections.connect
  cases hsocket : s.service.socket with
  | none => exact h.openSocket token workspaceId fun x hx => (nomatch hsocket.symm.trans hx)
  | some y =>
      dsimp only
      obtain ⟨hconnecting, htoken⟩ := htimely y hsocket
      by_cases hlink : y.link = .connected
      · rw [if_pos hlink]
        by_cases hchanged : Connections.workspaceChanged y workspaceId = true
        · rw [if_pos hchanged]
          refine (h.disconnect none).openSocket token workspaceId ?_
          intro x hx
          unfold Connections.disconnect at hx
          rw [hsocket] at hx
          cases hx
        · -- the socket is kept
          rw [if_neg hchanged]
          have hsame := Bool.eq_false_iff.mpr hchanged
          refine ⟨h.abandoned, ?_, h.attached, h.listeners⟩
          intro x hx
          cases hsocket.symm.trans hx
          exact ⟨token, workspaceId, rfl, htoken hlink hsame,
            queryOf_of_unchanged (h.opened y hsocket) hsame⟩
      · rw [if_neg hlink]
        refine h.openSocket token workspaceId ?_
        intro x hx
        cases hsocket.symm.trans hx
        cases hy : y.link with
        | connecting => exact absurd hy hconnecting
        | connected => exact absurd hy hlink
        | closed => rfl

theorem Orderly.changeLink {s : Watched Callback} (h : Orderly s) {f : Link → Link}
    (hf : f .closed = .closed) (socket : Option Nat) :
    Orderly { s with service := s.service.changeLink f socket } := by
  cases socket with
  | none =>
      refine ⟨h.abandoned, ?_, ?_, h.listeners⟩
      · intro x hx
        obtain ⟨y, hy, rfl⟩ := Option.map_eq_some_iff.mp hx
        exact h.opened y hy
      · intro x hx
        obtain ⟨y, hy, rfl⟩ := Option.map_eq_some_iff.mp hx
        exact h.attached y hy
  | some i =>
      refine ⟨?_, h.opened, h.attached, h.listeners⟩
      intro x hx
      obtain ⟨j, hj, rfl⟩ := List.mem_mapIdx.mp hx
      have hclosed := h.abandoned _ (List.getElem_mem hj)
      by_cases hi : j = i
      · rw [if_pos hi]
        show f _ = Link.closed
        rw [hclosed, hf]
      · rw [if_neg hi]
        exact hclosed

variable [DecidableEq Callback]

theorem Orderly.on {s : Watched Callback} (h : Orderly s) {event : String}
    {callback : Callback} (hnew : (event, callback) ∉ s.registered) :
    Orderly { s with
      service := s.service.on event callback
      registered := s.registered ++ [(event, callback)] } where
  abandoned := h.abandoned
  opened := by
    intro x hx
    obtain ⟨y, hy, rfl⟩ := Option.map_eq_some_iff.mp hx
    exact h.opened y hy
  attached := by
    intro x hx
    obtain ⟨y, hy, rfl⟩ := Option.map_eq_some_iff.mp hx
    obtain ⟨hnodup, hmem⟩ := h.attached y hy
    refine ⟨?_, ?_⟩
    · refine List.nodup_append.mpr ⟨hnodup, List.nodup_singleton _, ?_⟩
      intro a ha b hb hab
      rw [List.mem_singleton] at hb
      exact hnew ((hmem _).mp (hb ▸ hab ▸ ha))
    · intro l
      rw [List.mem_append, List.mem_append, hmem]
  listeners := by
    intro l
    show l ∈ (s.service.listeners.add event callback).pairs ↔ _
    rw [SetMap.mem_pairs_add, List.mem_append, List.mem_singleton, h.listeners, or_comm]

theorem Orderly.off {s : Watched Callback} (h : Orderly s) (event : String)
    (callback : Callback) :
    Orderly { s with
      service := s.service.off event callback
      registered := s.registered.filter fun l => l ≠ (event, callback) } where
  abandoned := h.abandoned
  opened := by
    intro x hx
    obtain ⟨y, hy, rfl⟩ := Option.map_eq_some_iff.mp hx
    exact h.opened y hy
  attached := by
    intro x hx
    obtain ⟨y, hy, rfl⟩ := Option.map_eq_some_iff.mp hx
    obtain ⟨hnodup, hmem⟩ := h.attached y hy
    refine ⟨hnodup.erase _, ?_⟩
    intro l
    rw [hnodup.mem_erase_iff, hmem, List.mem_filter, decide_eq_true_iff, and_comm]
  listeners := by
    intro l
    show l ∈ (s.service.listeners.remove event callback).pairs ↔ _
    rw [SetMap.mem_pairs_remove, h.listeners, List.mem_filter, decide_eq_true_iff, and_comm]

theorem watch_orderly (s : Watched Callback) (e : ConnectionEvent Callback) (h : Orderly s)
    (hnew : NotRepeated s e) (htimely : Timely s e) : Orderly (watch s e) := by
  cases e with
  | connect token workspaceId => exact h.connect htimely
  | disconnect => exact h.disconnect none
  | on event callback => exact h.on hnew
  | off event callback => exact h.off event callback
  | established socket => exact h.changeLink (f := Link.establish) rfl socket
  | lost socket => exact h.changeLink (f := Link.lose) rfl socket
  | closedByServer socket => exact h.changeLink (f := fun _ => .closed) rfl socket

/-- A call of `connect` at the wrong time shows at once. -/
theorem timely_of_one (s : Watched Callback) (e : ConnectionEvent Callback)
    (hone : OneConnection (watch s e)) : Timely s e := by
  cases e with
  | connect token workspaceId =>
      intro x hx
      have hstep : (watch s (.connect token workspaceId)).service
          = s.service.connect token workspaceId := rfl
      have hcount := hone.one
      have hopened := hone.opened
      rw [hstep] at hcount hopened
      unfold Connections.connect at hcount hopened
      rw [hx] at hcount hopened
      dsimp only at hcount hopened
      constructor
      · intro hconnecting
        have hlink : ¬ x.link = .connected := by
          rw [hconnecting]
          exact fun hsame => nomatch hsame
        rw [if_neg hlink] at hcount
        -- the new socket and the one before
        have hlive : (s.service.openSocket token workspaceId).live
            = ⟨token, queryOf workspaceId, .connecting, s.service.listeners.pairs⟩
              :: x :: s.service.abandoned.filter OpenedSocket.live := by
          unfold Connections.live Connections.openSocket
          rw [hx]
          show List.filter _ (_ :: x :: s.service.abandoned) = _
          rw [List.filter_cons_of_pos, List.filter_cons_of_pos]
          · rw [live_iff, hconnecting]
            exact fun hsame => nomatch hsame
          · exact live_iff.mpr fun hsame => nomatch hsame
        rw [hlive] at hcount
        exact absurd hcount (by simp)
      · intro hlink hsame
        rw [if_pos hlink, if_neg (Bool.eq_false_iff.mp hsame)] at hopened
        have hmem : x ∈ s.service.live := by
          unfold Connections.live
          refine List.mem_filter.mpr ⟨List.mem_append_left _ (Option.mem_toList.mpr hx), ?_⟩
          rw [live_iff, hlink]
          exact fun h => nomatch h
        obtain ⟨token', workspaceId', hasked, htoken, -⟩ := hopened x hmem
        cases hasked
        exact htoken
  | disconnect => trivial
  | on event callback => trivial
  | off event callback => trivial
  | established socket => trivial
  | lost socket => trivial
  | closedByServer socket => trivial

/-- **When the service keeps one connection.**  In every run in which `on` is not repeated
    for a registered callback, in every order of calls and of connections established,
    lost and closed: at most one socket is live, opened with the last token and workspace
    and with the registered callbacks bound to it once, and none after `disconnect`,
    exactly when every `connect` comes at a time when the socket that is held is not
    connecting, and is not a connected one of the same workspace and another token. -/
theorem one_connection_iff (l : List (ConnectionEvent Callback))
    (hl : Throughout watch NotRepeated {} l) :
    Always watch OneConnection {} l ↔ Throughout watch Timely {} l := by
  have hstart : Orderly ({} : Watched Callback) :=
    ⟨fun x hx => absurd hx List.not_mem_nil, fun x hx => (nomatch hx), fun x hx => (nomatch hx),
      fun l => Iff.rfl⟩
  exact always_iff_throughout_given watch_orderly (fun s h => h.oneConnection)
    (fun s e _ _ hone => timely_of_one s e hone) hstart hl

end Keeping

/-- The user opens a workspace once the socket is connected. -/
def patientUser : List (ConnectionEvent Listener) :=
  [.connect "t" .null, .on "task.created" .handleTaskCreated, .established none,
    .connect "t" (.val "w")]

theorem one_connection_patient : Always watch OneConnection {} patientUser := by
  have htimely : Throughout watch Timely {} patientUser := by
    refine ⟨fun x hx => (by cases hx), trivial, trivial, ?_, trivial⟩
    -- the socket is connected by now, and to no workspace
    rintro x ⟨⟩
    exact ⟨fun h => (by cases h), fun _ h => absurd h (by decide)⟩
  exact (one_connection_iff patientUser
    ⟨trivial, List.not_mem_nil, trivial, trivial, trivial⟩).mpr htimely

/-- The workspace is known before the socket is connected, and then the user logs out. -/
def hastyUser : List (ConnectionEvent Listener) :=
  [.connect "t" .null, .connect "t" (.val "w"), .established (some 0), .disconnect]

/-- The token is refreshed while the socket is connected. -/
def refreshedUser : List (ConnectionEvent Listener) :=
  [.connect "t" (.val "w"), .established none, .connect "t'" (.val "w")]

/-- The first socket of the one is never closed, and the socket of the other keeps the
    old token. -/
theorem connection_leaks :
    Throughout watch NotRepeated {} hastyUser ∧
      (play connectionStep {} hastyUser).socket = none ∧
      (play connectionStep {} hastyUser).live = [⟨"t", none, .connected, []⟩] ∧
      ¬ Always watch OneConnection {} hastyUser ∧
      Throughout watch NotRepeated {} refreshedUser ∧
      (play connectionStep {} refreshedUser).live = [⟨"t", some "w", .connected, []⟩] ∧
      ¬ Always watch OneConnection {} refreshedUser := by
  refine ⟨⟨trivial, trivial, trivial, trivial, trivial⟩, rfl, rfl, ?_,
    ⟨trivial, trivial, trivial, trivial⟩, rfl, ?_⟩
  · rintro ⟨-, -, hone, -⟩
    exact absurd hone.one (by decide)
  · rintro ⟨-, -, -, hone⟩
    obtain ⟨token, workspaceId, hasked, htoken, -⟩ :=
      hone.opened ⟨"t", some "w", .connected, []⟩ (List.mem_singleton.mpr rfl)
    cases hasked
    exact absurd htoken (by decide)

end PlatformRealtime
