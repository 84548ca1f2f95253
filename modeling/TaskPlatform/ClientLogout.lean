import TaskPlatform.WebClient

/-! # Logout in the web client

    `logout` clears the store and the storage and leaves what is in flight alone.  A
    refresh that was sent before and succeeds afterwards stores its tokens, and the user is
    logged in again; so does the response of a login that was still on its way.  A logout
    is final exactly in the runs without such a late answer (`logout_final_iff`). -/

namespace PlatformWeb

open EventRuns
open PlatformTasks (truthy)

/-- No credentials in the store, and no tokens in the storage. -/
structure LoggedOut (c : Client) : Prop where
  token : c.auth.token = none
  isAuthenticated : c.auth.isAuthenticated = false
  access_token : c.localStorage.access_token = none
  refresh_token : c.localStorage.refresh_token = none

/-- The client, and whether the user has logged out and not submitted a login since. -/
structure Session where
  client : Client
  loggedOut : Bool := false
  deriving DecidableEq, Repr

/-- A step of the client, and whether a logout has been asked for since the last login. -/
def sessionStep (s : Session) (e : WebEvent) : Session where
  client := webStep s.client e
  loggedOut :=
    match e with
    | .logout => true
    | .submitLogin => false
    | _ => s.loggedOut

/-- Who has logged out is logged out. -/
def Final (s : Session) : Prop := s.loggedOut = true → LoggedOut s.client

/-- The user has not logged out, or this is not the success of a refresh or of a login
    that was sent before. -/
def NotLate (s : Session) : WebEvent → Prop
  | .continueRefresh j => s.loggedOut = true → ∀ refreshToken bearer data,
      s.client.refreshes[j]? ≠ some ⟨refreshToken, bearer, some (.success (some data)), none⟩
  | .submitted i => s.loggedOut = true → ∀ data,
      s.client.threads[i]? ≠ some (.answered data)
  | _ => True

/-! ## Steps -/

section Steps

variable {c : Client}

theorem logout_loggedOut (c : Client) : LoggedOut c.logout := ⟨rfl, rfl, rfl, rfl⟩

theorem LoggedOut.setThread (h : LoggedOut c) (i : Nat) (t : Thread) :
    LoggedOut (c.setThread i t) := ⟨h.token, h.isAuthenticated, h.access_token, h.refresh_token⟩

theorem LoggedOut.returned (h : LoggedOut c) (i : Nat) (kind : Kind) (response : Response) :
    LoggedOut (c.returned i kind response) := by
  unfold Client.returned
  split
  · exact h.setThread i _
  · exact h.setThread i _

/-- Without a refresh token a 401 only logs out. -/
theorem LoggedOut.respond (h : LoggedOut c) (i : Nat) (response : Response) :
    LoggedOut (c.respond i response) := by
  unfold Client.respond
  split
  · split
    · unfold Client.unauthorized
      rw [h.refresh_token]
      exact (logout_loggedOut c).setThread i _
    · exact h.returned i _ _
  · exact h.returned i _ _
  · exact h

theorem LoggedOut.answerRefresh (h : LoggedOut c) (j : Nat) (response : Response) :
    LoggedOut (c.answerRefresh j response) := by
  unfold Client.answerRefresh
  split
  · exact ⟨h.token, h.isAuthenticated, h.access_token, h.refresh_token⟩
  · exact h

theorem LoggedOut.continueRefresh (h : LoggedOut c) {j : Nat}
    (hlate : ∀ refreshToken bearer data,
      c.refreshes[j]? ≠ some ⟨refreshToken, bearer, some (.success (some data)), none⟩) :
    LoggedOut (c.continueRefresh j) := by
  unfold Client.continueRefresh
  split
  · rename_i refreshToken bearer response hj
    unfold Client.refreshed
    split
    · exact absurd hj (hlate _ _ _)
    · exact ⟨h.token, h.isAuthenticated, h.access_token, h.refresh_token⟩
  · exact h

theorem LoggedOut.resume (h : LoggedOut c) (i : Nat) : LoggedOut (c.resume i) := by
  unfold Client.resume
  split
  · split
    · exact h
    · split
      · exact h.setThread i _
      · exact (logout_loggedOut c).setThread i _
  · exact h

theorem LoggedOut.submitted (h : LoggedOut c) {i : Nat}
    (hlate : ∀ data, c.threads[i]? ≠ some (.answered data)) : LoggedOut (c.submitted i) := by
  unfold Client.submitted
  split
  · rename_i data hi
    exact absurd hi (hlate data)
  · exact h

theorem LoggedOut.updateUser (h : LoggedOut c) (name : String) :
    LoggedOut (c.updateUser name) := by
  unfold Client.updateUser
  split
  · exact h
  · exact ⟨h.token, h.isAuthenticated, h.access_token, h.refresh_token⟩

end Steps

/-- A step that brings no late credentials. -/
theorem final_step (s : Session) (e : WebEvent) (h : Final s) (hlate : NotLate s e) :
    Final (sessionStep s e) := by
  cases e with
  | request => exact fun hout => ⟨(h hout).1, (h hout).2, (h hout).3, (h hout).4⟩
  | submitLogin => exact fun hout => absurd hout Bool.false_ne_true
  | respond i response => exact fun hout => (h hout).respond i response
  | answerRefresh j response => exact fun hout => (h hout).answerRefresh j response
  | continueRefresh j => exact fun hout => (h hout).continueRefresh (hlate hout)
  | resume i => exact fun hout => (h hout).resume i
  | submitted i => exact fun hout => (h hout).submitted (hlate hout)
  | logout => exact fun _ => logout_loggedOut s.client
  | updateUser name => exact fun hout => (h hout).updateUser name

/-- Late credentials log the user in again. -/
theorem late_not_final (s : Session) (e : WebEvent) (h : Final (sessionStep s e)) :
    NotLate s e := by
  cases e with
  | continueRefresh j =>
      intro hout refreshToken bearer data hj
      have htoken : (s.client.continueRefresh j).auth.token = none := (h hout).token
      simp only [Client.continueRefresh, hj] at htoken
      cases htoken
  | submitted i =>
      intro hout data hi
      have htoken : (s.client.submitted i).auth.token = none := (h hout).token
      simp only [Client.submitted, hi] at htoken
      cases htoken
  | request => trivial
  | submitLogin => trivial
  | respond i response => trivial
  | answerRefresh j response => trivial
  | resume i => trivial
  | logout => trivial
  | updateUser name => trivial

/-- **When logout is final.**  For every page load and every order of requests, responses,
    refreshes, logins and logouts: whoever has logged out stays logged out until the next
    login is submitted, exactly when in the meantime no refresh and no login that was sent
    before comes back with success. -/
theorem logout_final_iff (localStorage : LocalStorage) (l : List WebEvent) :
    Always sessionStep Final ⟨.load localStorage, false⟩ l ↔
      Throughout sessionStep NotLate ⟨.load localStorage, false⟩ l :=
  always_iff_throughout final_step (fun _ h => h) (fun s e _ => late_not_final s e)
    (fun hout => absurd hout Bool.false_ne_true) l

/-- A user who is logged in. -/
def signedIn : LocalStorage := { access_token := some "access", refresh_token := some "refresh" }

/-- The access token has run out; the user logs out while it is being refreshed. -/
def logoutDuringRefresh : List WebEvent :=
  [.request, .respond 0 .unauthorized, .logout,
    .answerRefresh 0 (.success (some ⟨"access'", "refresh'", none⟩)), .continueRefresh 0]

/-- And is logged in again, with tokens in the storage. -/
theorem logout_undone :
    let s := play sessionStep ⟨.load signedIn, false⟩ logoutDuringRefresh
    s.loggedOut = true ∧ s.client.auth.token = some "access'" ∧
      s.client.auth.isAuthenticated = true ∧
      s.client.localStorage.access_token = some "access'" ∧
      s.client.localStorage.refresh_token = some "refresh'" ∧
      ¬ Always sessionStep Final ⟨.load signedIn, false⟩ logoutDuringRefresh := by
  refine ⟨rfl, rfl, rfl, rfl, rfl, ?_⟩
  intro hall
  have hfinal := always_iff.mp hall logoutDuringRefresh [] (List.append_nil _).symm
  cases (hfinal rfl).token

end PlatformWeb
