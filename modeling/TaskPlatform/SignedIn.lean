import TaskPlatform.AuthExchange
import TaskPlatform.SoleSession
import TaskPlatform.TokenRefresh
import Mathlib.Logic.Encodable.Basic
import Mathlib.Logic.Equiv.List

/-! # A user who stays signed in

    The web client and the auth service together: requests that pass `JwtAuthGuard` or do not,
    refreshes that `baseQueryWithReauth` sends when they do not, the calls of other users and
    the time that passes, in any order.  The user stays signed in exactly as long as every
    refresh comes to the service before its token expires (`signed_in_iff`). -/

namespace PlatformSystem

open AsyncProgram EventRuns PlatformAuth PlatformEntities PlatformHttp
open PlatformTasks (truthy truthy_eq_some)
open PlatformWeb (Client Thread Refresh Response Credentials LocalStorage Kind)
open TokenRotation (getElem?_set_cases getElem?_append_cases)

/-! ## The two parties -/

/-- One client and the service. -/
structure World (Hash : Type) where
  client : Client
  server : PlatformAuth.AuthState Hash

/-- The access token of the request that a thread has sent. -/
def bearer : Thread → Option (Option String)
  | .requested _ token => some token
  | .retried _ token => some token
  | _ => none

/-- What may happen next. -/
inductive WorldEvent where
  /-- An endpoint is called. -/
  | request
  /-- A request comes to its route; the handler answers if the guard lets it through. -/
  | serve (thread : Nat) (answer : Response)
  /-- A refresh comes to the service. -/
  | serveRefresh (refresh : Nat) (ω : Nat → Choice)
  | continueRefresh (refresh : Nat)
  | resume (thread : Nat)
  | updateUser (name : String)
  /-- A call of another client. -/
  | elsewhere (call : AuthCall String) (ω : Nat → Choice)
  | pass (seconds : Nat)

section World

variable {Hash : Type} [DecidableEq Hash] (lib : AuthLibrary String Hash)

/-- A request comes to its route. -/
def World.serve (w : World Hash) (i : Nat) (answer : Response) : World Hash :=
  match (w.client.threads[i]?).bind bearer with
  | none => w
  | some token =>
      match jwtAuthGuard lib w.server.now (authorizationHeader token) with
      | .error e => { w with client := w.client.respond i (arrived (.error e)) }
      | .ok _ => { w with client := w.client.respond i answer }

/-- The refresh that a thread asked for is served, and its answer comes back. -/
def World.serveRefresh (w : World Hash) (j : Nat) (ω : Nat → Choice) : World Hash :=
  match w.client.refreshes[j]? with
  | some ⟨refreshToken, _, none, none⟩ =>
      let out := solo (exec lib) ω (refresh lib refreshToken) w.server
      ⟨w.client.answerRefresh j (arrived out.2), out.1⟩
  | _ => w

/-- One event. -/
def worldStep (w : World Hash) : WorldEvent → World Hash
  | .request => { w with client := w.client.request .api }
  | .serve i answer => w.serve lib i answer
  | .serveRefresh j ω => w.serveRefresh lib j ω
  | .continueRefresh j => { w with client := w.client.continueRefresh j }
  | .resume i => { w with client := w.client.resume i }
  | .updateUser name => { w with client := w.client.updateUser name }
  | .elsewhere call ω => { w with server := (solo (exec lib) ω (call.prog lib) w.server).1 }
  | .pass seconds => { w with server := w.server.wait seconds }

/-- An access token that the service has signed for the user. -/
def AccessFor (u token : String) : Prop :=
  ∃ p iat, p.userId = u ∧ token = lib.signAsync .access lib.accessExpiration p iat

/-- What the user notices of it: the client is signed in, the session is live, no refresh has
    been refused, and every request carries an access token of the user. -/
structure SignedIn (u : String) (w : World Hash) : Prop where
  authenticated : w.client.auth.isAuthenticated = true
  live : ∃ r ∈ w.server.sessions, r.userId = u ∧ r.isRevoked = false
  granted : ∀ f ∈ w.client.refreshes, f.answer ≠ none → f.Succeeded
  bearers : ∀ thread ∈ w.client.threads, ∀ token, bearer thread = some token →
    ∃ a, token = some a ∧ AccessFor lib u a

/-- A refresh comes to the service before its token expires. -/
def Timely (w : World Hash) : WorldEvent → Prop
  | .serveRefresh j ω => ∀ f, w.client.refreshes[j]? = some f → f.answer = none →
      w.server.now + (ω 0).elapsed < lib.exp f.refreshToken
  | _ => True

/-- The other calls are made for other users. -/
def Others (u : String) (w : World Hash) : WorldEvent → Prop
  | .elsewhere call _ => Foreign lib u w.server call
  | _ => True

end World

/-! ## The client between its refreshes -/

/-- The client holds access tokens of the kind `A`, and `t` is the refresh token that it
    stores, sends or is about to store. -/
structure Renewing (A : String → Prop) (t : String) (c : Client) : Prop where
  token : ∃ a, c.auth.token = some a ∧ A a
  authenticated : c.auth.isAuthenticated = true
  bearers : ∀ thread ∈ c.threads, ∀ token, bearer thread = some token →
    ∃ a, token = some a ∧ A a
  stored : ∃ x, truthy c.localStorage.refresh_token = some x
  idle : c.refreshPromise = none → c.localStorage.refresh_token = some t
  ended : ∀ j f, c.refreshes[j]? = some f → c.refreshPromise ≠ some j →
    f.Succeeded ∧ ∃ a, f.value = some (some a) ∧ A a
  underway : ∀ j, c.refreshPromise = some j →
    ∃ f, c.refreshes[j]? = some f ∧ f.value = none ∧
      (f.answer = none ∧ f.refreshToken = t ∨
        ∃ data, f.answer = some (.success (some data)) ∧ data.refreshToken = t ∧
          A data.accessToken)

section Client

variable {A : String → Prop} {t : String} {c : Client}

theorem Renewing.setThread (h : Renewing A t c) (i : Nat) {thread : Thread}
    (hthread : ∀ token, bearer thread = some token → ∃ a, token = some a ∧ A a) :
    Renewing A t (c.setThread i thread) := by
  refine ⟨h.token, h.authenticated, ?_, h.stored, h.idle, h.ended, h.underway⟩
  intro x hx
  rcases List.mem_or_eq_of_mem_set hx with hx | rfl
  · exact h.bearers x hx
  · exact hthread

/-- A thread that sends nothing. -/
theorem Renewing.setSilent (h : Renewing A t c) (i : Nat) {thread : Thread}
    (hthread : bearer thread = none) : Renewing A t (c.setThread i thread) := by
  refine h.setThread i ?_
  intro token htoken
  rw [hthread] at htoken
  cases htoken

theorem Renewing.request (h : Renewing A t c) : Renewing A t (c.request .api) := by
  refine ⟨h.token, h.authenticated, ?_, h.stored, h.idle, h.ended, h.underway⟩
  intro x hx token htoken
  rcases List.mem_append.mp hx with hx | hx
  · exact h.bearers x hx token htoken
  · rw [List.mem_singleton.mp hx] at htoken
    obtain rfl : c.auth.token = token := Option.some.inj htoken
    exact h.token

theorem Renewing.returned (h : Renewing A t c) (i : Nat) (kind : Kind) (response : Response) :
    Renewing A t (c.returned i kind response) := by
  unfold Client.returned
  split
  · exact h.setSilent i rfl
  · exact h.setSilent i rfl

/-- The stored token is sent, if no refresh is under way. -/
theorem Renewing.refreshQuery (h : Renewing A t c) (hidle : c.refreshPromise = none) :
    Renewing A t (c.refreshQuery t) := by
  refine ⟨h.token, h.authenticated, h.bearers, h.stored, (fun hno => nomatch hno), ?_, ?_⟩
  · intro j f hf hne
    rcases getElem?_append_cases hf with ⟨rfl, -⟩ | hf
    · exact absurd rfl hne
    · exact h.ended j f hf (hidle ▸ (Option.some_ne_none j).symm)
  · intro j hj
    obtain rfl := Option.some.inj hj
    exact ⟨⟨t, c.auth.token, none, none⟩, List.getElem?_concat_length, rfl,
      Or.inl ⟨rfl, rfl⟩⟩

theorem Renewing.unauthorized (h : Renewing A t c) (i : Nat) (kind : Kind) :
    Renewing A t (c.unauthorized i kind) := by
  obtain ⟨x, hx⟩ := h.stored
  unfold Client.unauthorized
  rw [hx]
  dsimp only
  cases hpromise : c.refreshPromise with
  | some promise => exact h.setSilent i rfl
  | none =>
      have hstored : c.localStorage.refresh_token = some x := (truthy_eq_some.mp hx).1
      obtain rfl : t = x := Option.some.inj ((h.idle hpromise).symm.trans hstored)
      exact (h.refreshQuery hpromise).setSilent i rfl

theorem Renewing.respond (h : Renewing A t c) (i : Nat) (response : Response) :
    Renewing A t (c.respond i response) := by
  unfold Client.respond
  split
  · split
    · exact h.unauthorized i _
    · exact h.returned i _ _
  · exact h.returned i _ _
  · exact h

theorem Renewing.updateUser (h : Renewing A t c) (name : String) :
    Renewing A t (c.updateUser name) := by
  unfold Client.updateUser
  split
  · exact h
  · exact ⟨h.token, h.authenticated, h.bearers, h.stored, h.idle, h.ended, h.underway⟩

/-- A refresh that is settled has brought a token. -/
theorem Renewing.settled (h : Renewing A t c) {j : Nat} {f : Refresh} {value : Option String}
    (hf : c.refreshes[j]? = some f) (hvalue : f.value = some value) :
    ∃ a, value = some a ∧ A a := by
  have hne : c.refreshPromise ≠ some j := by
    intro hj
    obtain ⟨f', hf', hnone, -⟩ := h.underway j hj
    rw [hf] at hf'
    rw [Option.some.inj hf', hnone] at hvalue
    cases hvalue
  obtain ⟨-, a, ha, hA⟩ := h.ended j f hf hne
  exact ⟨a, Option.some.inj (hvalue.symm.trans ha), hA⟩

/-- A refresh that is not settled holds the lock. -/
theorem Renewing.locked (h : Renewing A t c) {j : Nat} {f : Refresh}
    (hf : c.refreshes[j]? = some f) (hvalue : f.value = none) : c.refreshPromise = some j := by
  by_contra hne
  obtain ⟨-, a, ha, -⟩ := h.ended j f hf hne
  rw [hvalue] at ha
  cases ha

theorem Renewing.resume (h : Renewing A t c) (hA : ∀ a, A a → a ≠ "") (i : Nat) :
    Renewing A t (c.resume i) := by
  unfold Client.resume
  split
  · rename_i kind promise hi
    cases hvalue : (c.refreshes[promise]?).bind Refresh.value with
    | none => exact h
    | some newToken =>
        obtain ⟨f, hf, hfvalue⟩ := Option.bind_eq_some_iff.mp hvalue
        obtain ⟨a, rfl, ha⟩ := h.settled hf hfvalue
        have htruthy : truthy (some a) = some a := truthy_eq_some.mpr ⟨rfl, hA a ha⟩
        dsimp only
        rw [htruthy]
        refine h.setThread i ?_
        intro token htoken
        obtain rfl : c.auth.token = token := Option.some.inj htoken
        exact h.token
  · exact h

/-- The refresh is answered with new tokens. -/
theorem Renewing.answerRefresh (h : Renewing A t c) {j : Nat} {rt : String}
    {sent : Option String} (hf : c.refreshes[j]? = some ⟨rt, sent, none, none⟩)
    (data : Credentials) (hdata : A data.accessToken) :
    Renewing A data.refreshToken (c.answerRefresh j (.success (some data))) := by
  have hlock : c.refreshPromise = some j := h.locked hf rfl
  have hj : j < c.refreshes.length := (List.getElem?_eq_some_iff.mp hf).1
  unfold Client.answerRefresh
  rw [hf]
  refine ⟨h.token, h.authenticated, h.bearers, h.stored, ?_, ?_, ?_⟩
  · intro hnone
    exact absurd (hlock.symm.trans hnone) (Option.some_ne_none j)
  · intro k f hk hne
    rcases getElem?_set_cases hk with ⟨rfl, -⟩ | ⟨-, hk⟩
    · exact absurd hlock hne
    · exact h.ended k f hk hne
  · intro k hk
    obtain rfl : j = k := Option.some.inj (hlock.symm.trans hk)
    exact ⟨_, List.getElem?_set_self hj, rfl, Or.inr ⟨data, rfl, rfl, hdata⟩⟩

theorem Renewing.continueRefresh (h : Renewing A t c) (ht : t ≠ "") (j : Nat) :
    Renewing A t (c.continueRefresh j) := by
  unfold Client.continueRefresh
  split
  · rename_i rt sent response hf
    have hlock : c.refreshPromise = some j := h.locked hf rfl
    have hj : j < c.refreshes.length := (List.getElem?_eq_some_iff.mp hf).1
    obtain ⟨f, hf', -, hanswer⟩ := h.underway j hlock
    rw [hf] at hf'
    obtain rfl := Option.some.inj hf'
    rcases hanswer with ⟨hno, -⟩ | ⟨data, hdata, rfl, hA⟩
    · cases hno
    · obtain rfl := Option.some.inj hdata
      refine ⟨⟨data.accessToken, rfl, hA⟩, rfl, h.bearers,
        ⟨data.refreshToken, truthy_eq_some.mpr ⟨rfl, ht⟩⟩, fun _ => rfl, ?_,
        (fun k hk => nomatch hk)⟩
      intro k f hk _
      rcases getElem?_set_cases hk with ⟨rfl, rfl⟩ | ⟨hne, hk⟩
      · exact ⟨⟨data, rfl⟩, data.accessToken, rfl, hA⟩
      · exact h.ended k f hk (fun hkj => hne (Option.some.inj (hkj.symm.trans hlock)))
  · exact h

end Client

/-! ## Both together -/

/-- The submit handler of the login page has stored what the login has brought. -/
def afterLogin (localStorage : LocalStorage) (accessToken refreshToken : String)
    (user : UserView) : Client :=
  EventRuns.play PlatformWeb.webStep (Client.load localStorage)
    [.submitLogin, .respond 0 (arrived (.ok (.loggedIn accessToken refreshToken user))),
      .submitted 0]

section Runs

variable {Hash : Type} [DecidableEq Hash] {lib : AuthLibrary String Hash} {u : String}

/-- The client and the service agree on the refresh token. -/
def InStep (lib : AuthLibrary String Hash) (u : String) (w : World Hash) : Prop :=
  ∃ t, t ≠ "" ∧ SoleSession lib u t w.server ∧ Renewing (AccessFor lib u) t w.client

/-- Tokens of the library are in compact form. -/
def Compact (lib : AuthLibrary String Hash) : Prop :=
  ∀ secret d p iat, IsCompact (lib.signAsync secret d p iat)

omit [DecidableEq Hash] in
theorem AccessFor.ne_empty (hcompact : Compact lib) {a : String} (h : AccessFor lib u a) :
    a ≠ "" := by
  obtain ⟨p, iat, -, rfl⟩ := h
  exact (hcompact _ _ _ _).1

omit [DecidableEq Hash] in
theorem InStep.signedIn {w : World Hash} (h : InStep lib u w) : SignedIn lib u w := by
  obtain ⟨t, -, hserver, hclient⟩ := h
  obtain ⟨r, hcurrent, huser, -⟩ := hserver.current
  refine ⟨hclient.authenticated, ⟨r, hcurrent.mem, huser, hcurrent.live⟩, ?_,
    hclient.bearers⟩
  intro f hf hanswer
  obtain ⟨j, hj⟩ := List.mem_iff_getElem?.mp hf
  by_cases hlock : w.client.refreshPromise = some j
  · obtain ⟨f', hf', -, hf''⟩ := hclient.underway j hlock
    obtain rfl : f = f' := Option.some.inj (hj.symm.trans hf')
    rcases hf'' with ⟨hnone, -⟩ | ⟨data, hdata, -⟩
    · exact absurd hnone hanswer
    · exact ⟨data, hdata⟩
  · exact (hclient.ended j f hj hlock).1

omit [DecidableEq Hash] in
/-- What a refresh that comes to the service carries. -/
theorem InStep.asked {w : World Hash} {t : String}
    (hclient : Renewing (AccessFor lib u) t w.client) {j : Nat} {rt : String}
    {sent : Option String} (hf : w.client.refreshes[j]? = some ⟨rt, sent, none, none⟩) :
    rt = t := by
  obtain ⟨f, hf', -, hanswer⟩ := hclient.underway j (hclient.locked hf rfl)
  rw [hf] at hf'
  obtain rfl := Option.some.inj hf'
  rcases hanswer with ⟨-, hrt⟩ | ⟨data, hdata, -⟩
  · exact hrt
  · cases hdata

/-- **One step keeps them together**, if a refresh comes in time. -/
theorem InStep.step (hcompact : Compact lib) {w : World Hash} {e : WorldEvent}
    (h : InStep lib u w) (hothers : Others lib u w e) (htimely : Timely lib w e) :
    InStep lib u (worldStep lib w e) := by
  obtain ⟨t, ht, hserver, hclient⟩ := h
  cases e with
  | request => exact ⟨t, ht, hserver, hclient.request⟩
  | serve i answer =>
      show InStep lib u (w.serve lib i answer)
      unfold World.serve
      split
      · exact ⟨t, ht, hserver, hclient⟩
      · split
        · exact ⟨t, ht, hserver, hclient.respond i _⟩
        · exact ⟨t, ht, hserver, hclient.respond i answer⟩
  | serveRefresh j ω =>
      show InStep lib u (w.serveRefresh lib j ω)
      unfold World.serveRefresh
      split
      · rename_i rt sent hf
        obtain rfl : rt = t := InStep.asked hclient hf
        have htime : w.server.now + (ω 0).elapsed < lib.exp rt := htimely _ hf rfl
        obtain ⟨p, iat, i, hp, hreply, hserver'⟩ := refresh_hands_on hserver htime
        refine ⟨Issue.token lib i, (hcompact _ _ _ _).1, hserver', ?_⟩
        dsimp only
        rw [hreply]
        have haccess : AccessFor lib u (lib.signAsync .access lib.accessExpiration p iat) :=
          ⟨p, iat, hp, rfl⟩
        exact hclient.answerRefresh hf
          ⟨lib.signAsync .access lib.accessExpiration p iat, Issue.token lib i, none⟩ haccess
      · exact ⟨t, ht, hserver, hclient⟩
  | continueRefresh j => exact ⟨t, ht, hserver, hclient.continueRefresh ht j⟩
  | resume i =>
      exact ⟨t, ht, hserver, hclient.resume (fun a ha => ha.ne_empty hcompact) i⟩
  | updateUser name => exact ⟨t, ht, hserver, hclient.updateUser name⟩
  | elsewhere call ω => exact ⟨t, ht, hserver.elsewhere hothers ω, hclient⟩
  | pass seconds => exact ⟨t, ht, hserver.wait seconds, hclient⟩

/-- A refresh that comes too late is refused. -/
theorem InStep.late {w : World Hash} {e : WorldEvent} (h : InStep lib u w)
    (hgood : SignedIn lib u (worldStep lib w e)) : Timely lib w e := by
  obtain ⟨t, -, hserver, hclient⟩ := h
  cases e with
  | serveRefresh j ω =>
      intro f hf hanswer
      have hvalue : f.value = none := by
        cases hvalue : f.value with
        | none => rfl
        | some value =>
            have hne : w.client.refreshPromise ≠ some j := by
              intro hlock
              obtain ⟨f', hf', hnone, -⟩ := hclient.underway j hlock
              rw [hf] at hf'
              rw [Option.some.inj hf', hnone] at hvalue
              cases hvalue
            obtain ⟨⟨data, hdata⟩, -⟩ := hclient.ended j f hf hne
            rw [hanswer] at hdata
            cases hdata
      obtain ⟨rt, sent, answer, value⟩ := f
      obtain rfl : answer = none := hanswer
      obtain rfl : value = none := hvalue
      obtain rfl : rt = t := InStep.asked hclient hf
      by_contra hlate
      obtain ⟨m, hrefused⟩ := refresh_expired hserver hlate
      have hj : j < w.client.refreshes.length := (List.getElem?_eq_some_iff.mp hf).1
      have hafter : (worldStep lib w (.serveRefresh j ω)).client.refreshes[j]?
          = some ⟨rt, sent, some .unauthorized, none⟩ := by
        show (w.serveRefresh lib j ω).client.refreshes[j]? = _
        unfold World.serveRefresh
        rw [hf]
        dsimp only
        rw [hrefused]
        unfold Client.answerRefresh
        rw [hf]
        exact List.getElem?_set_self hj
      obtain ⟨data, hdata⟩ :=
        hgood.granted _ (List.mem_of_getElem? hafter) (Option.some_ne_none _)
      cases hdata
  | _ => trivial

/-- The page after a login. -/
theorem setCredentials_stores (c : Client) {a t : String} {refreshToken : Option String}
    {user : Option PlatformWeb.UserInfo} (h : truthy refreshToken = some t) :
    (c.setCredentials a refreshToken user).localStorage.refresh_token = some t := by
  unfold Client.setCredentials
  dsimp only
  rw [h]

theorem afterLogin_renewing {A : String → Prop} {a t : String} (ha : A a) (ht : t ≠ "")
    (localStorage : LocalStorage) (user : UserView) :
    Renewing A t (afterLogin localStorage a t user) := by
  have htruthy : truthy (some t) = some t := truthy_eq_some.mpr ⟨rfl, ht⟩
  have hstored : (afterLogin localStorage a t user).localStorage.refresh_token = some t :=
    setCredentials_stores _ htruthy
  refine ⟨⟨a, rfl, ha⟩, rfl, ?_, ⟨t, hstored ▸ htruthy⟩, fun _ => hstored, ?_,
    (fun j hj => nomatch hj)⟩
  · intro thread hthread token htoken
    rw [List.mem_singleton.mp hthread] at htoken
    cases htoken
  · intro j f hf
    cases hf

/-- **The user stays signed in exactly as long as the refreshes come in time.**  From a login
    that finds no live session of the user, in any order of requests, refreshes and calls of
    other users. -/
theorem signed_in_iff (hcompact : Compact lib) (users : List User) (now : Nat)
    (hist : List (AuthCall String × (Nat → Choice))) {email passwordPlain : String}
    {deviceFingerprint ipAddress : Option String} {ω : Nat → Choice}
    {s' : PlatformAuth.AuthState Hash} {accessToken refreshToken : String} {user : UserView}
    (hnone : ∀ r ∈ (PlatformAuth.play lib hist (.start users now)).sessions,
      r.userId = user.id → r.isRevoked = true)
    (hlogin : solo (exec lib) ω (login lib email passwordPlain deviceFingerprint ipAddress)
        (PlatformAuth.play lib hist (.start users now))
      = (s', .ok (.loggedIn accessToken refreshToken user)))
    (localStorage : LocalStorage) (l : List WorldEvent)
    (hl : Throughout (worldStep lib) (Others lib user.id)
      ⟨afterLogin localStorage accessToken refreshToken user, s'⟩ l) :
    Always (worldStep lib) (SignedIn lib user.id)
        ⟨afterLogin localStorage accessToken refreshToken user, s'⟩ l ↔
      Throughout (worldStep lib) (Timely lib)
        ⟨afterLogin localStorage accessToken refreshToken user, s'⟩ l := by
  have hsound : Sound lib (PlatformAuth.play lib hist (.start users now)) :=
    play_sound lib hist (Sound.start lib users now)
  obtain ⟨iat, i, -, hi, haccess, htoken, -⟩ := login_success hlogin
  have hne : refreshToken ≠ "" := htoken ▸ (hcompact _ _ _ _).1
  have hstart : InStep lib user.id
      ⟨afterLogin localStorage accessToken refreshToken user, s'⟩ :=
    ⟨refreshToken, hne, login_opens hsound hnone hlogin,
      afterLogin_renewing ⟨i.payload, iat, hi, haccess⟩ hne localStorage user⟩
  exact always_iff_throughout_given (fun _ _ h ho ht => h.step hcompact ho ht)
    (fun _ h => h.signedIn) (fun _ _ h _ hgood => h.late hgood) hstart hl

end Runs

/-! ## Alice in two parts -/

instance charEncodable : Encodable Char :=
  Encodable.ofLeftInverse Char.toNat Char.ofNat Char.ofNat_toNat

instance stringEncodable : Encodable String :=
  Encodable.ofLeftInverse String.toList String.ofList (fun _ => String.ofList_toList)

instance secretEncodable : Encodable Secret :=
  Encodable.ofLeftInverse (fun s => decide (s = .access))
    (fun b => if b then .access else .refresh) (fun s => by cases s <;> rfl)

instance tokenEncodable : Encodable PlainToken :=
  Encodable.ofLeftInverse
    (fun t => (t.secret, t.expiresIn, t.payload.userId, t.payload.email, t.iat))
    (fun (s, d, u, e, i) => ⟨s, d, ⟨u, e⟩, i⟩) (fun _ => rfl)

/-- A plain token as a text without blanks. -/
def tokenText (t : PlainToken) : String :=
  String.ofList (List.replicate (Encodable.encode t + 1) 'x')

/-- A token out of its text. -/
def readText (s : String) : Option PlainToken := Encodable.decode (s.toList.length - 1)

theorem readText_tokenText (t : PlainToken) : readText (tokenText t) = some t := by
  unfold readText tokenText
  rw [String.toList_ofList, List.length_replicate, Nat.add_sub_cancel]
  exact Encodable.encodek t

theorem tokenText_injective {t t' : PlainToken} (h : tokenText t = tokenText t') : t = t' := by
  have hread := congrArg readText h
  rw [readText_tokenText, readText_tokenText] at hread
  exact Option.some.inj hread

theorem tokenText_compact (t : PlainToken) : IsCompact (tokenText t) := by
  constructor
  · intro h
    have hlist := congrArg String.toList h
    rw [tokenText, String.toList_ofList] at hlist
    cases hlist
  · rw [tokenText, String.toList_ofList]
    intro h
    exact absurd (List.eq_of_mem_replicate h) (by decide)

/-- The plain library, with texts for tokens. -/
def plainText : AuthLibrary String String where
  signAsync secret expiresIn payload iat := tokenText ⟨secret, expiresIn, payload, iat⟩
  verifyAsync secret s now := (readText s).bind fun t => plain.verifyAsync secret t now
  exp s := ((readText s).map plain.exp).getD 0
  sha256 s := s
  compare := plain.compare
  accessExpiration := plain.accessExpiration
  refreshExpiration := plain.refreshExpiration
  verify_sign := by
    intro secret d p iat now
    rw [readText_tokenText]
    exact plain.verify_sign secret d p iat now
  exp_sign := by
    intro secret d p iat
    rw [readText_tokenText]
    rfl
  sign_injective := by
    intro secret d p iat p' iat' h
    exact plain.sign_injective secret d p iat p' iat' (tokenText_injective h)

/-- Alice has logged in at second 0. -/
def aliceOnline : World String where
  client := afterLogin {} (tokenText ⟨.access, 900, ⟨"a", "alice@x"⟩, 0⟩)
    (tokenText ⟨.refresh, 604800, ⟨"a", "alice@x"⟩, 0⟩) alice.view
  server := (solo (exec plainText) (pace 0 0 "1") (login plainText "alice@x" "pw" none none)
    (.start [alice] 0)).1

/-- Half an hour passes, a request is turned away, somebody else logs out. -/
def quietHour : List WorldEvent :=
  [.request, .pass 1800, .serve 0 .otherError, .elsewhere (.logout "x" "b") (pace 0 0 ""),
    .resume 0]

theorem signed_in_iff_alice :
    Always (worldStep plainText) (SignedIn plainText "a") aliceOnline quietHour := by
  have hcompact : Compact plainText :=
    fun secret d p iat => tokenText_compact ⟨secret, d, p, iat⟩
  have hlogin : solo (exec plainText) (pace 0 0 "1")
      (login plainText "alice@x" "pw" none none)
        (PlatformAuth.play plainText [] (.start [alice] 0))
      = (aliceOnline.server, .ok (.loggedIn
          (tokenText ⟨.access, 900, ⟨"a", "alice@x"⟩, 0⟩)
          (tokenText ⟨.refresh, 604800, ⟨"a", "alice@x"⟩, 0⟩) alice.view)) := rfl
  have hothers : Throughout (worldStep plainText) (Others plainText "a") aliceOnline
      quietHour := by
    have hbob : ("b" : String) ≠ "a" := by decide
    exact ⟨trivial, trivial, trivial, hbob, trivial, trivial⟩
  exact (signed_in_iff hcompact [alice] 0 [] (fun r hr => nomatch hr) hlogin {} quietHour
    hothers).mpr ⟨trivial, trivial, trivial, trivial, trivial, trivial⟩

end PlatformSystem
