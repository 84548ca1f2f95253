import TaskPlatform.TokenRotation
import TaskPlatform.WebClient
import Mathlib.Data.Multiset.AddSub

/-! # Token refresh in the web client

    The client as the holder of a one-time token: `refresh_token` is the stored token,
    `refreshPromise` the lock, a run of `refreshQuery` an exchange, and the responses of
    logins that have not come to `onSubmit` are the tokens that wait.  Every step of the
    client is a step of the holder (`webStep_refines`), so that refreshing is single-flight
    and no refresh token is used again (`refresh_single_flight`). -/

namespace PlatformWeb

open EventRuns TokenRotation
open PlatformTasks (truthy truthy_eq_some)

/-! ## The client as a holder -/

/-- The token that a login brings to its submit handler. -/
def Thread.carried : Thread → Option String
  | .answered data => some data.refreshToken
  | _ => none

/-- A response without tokens is no success. -/
def statusOf : Option Response → Status String
  | none => .sent
  | some (.success (some data)) => .succeeded data.refreshToken
  | some _ => .failed

/-- A refresh as an exchange of its token. -/
def Refresh.exchange (refresh : Refresh) : Exchange String :=
  ⟨refresh.refreshToken, statusOf refresh.answer, refresh.value.isSome⟩

/-- The client as a holder of refresh tokens. -/
def holder (c : Client) : Holder String where
  stored := c.localStorage.refresh_token
  waiting := c.threads.filterMap Thread.carried
  exchanges := c.refreshes.map Refresh.exchange
  lock := c.refreshPromise

/-- The thread waits for the response of a login. -/
def Client.awaitsLogin (c : Client) (i : Nat) : Bool :=
  match c.threads[i]? with
  | some (.requested .login _) => true
  | some (.retried .login _) => true
  | _ => false

/-- A refresh token that the server returns is new. -/
def NewToken (c : Client) : WebEvent → Prop
  | .answerRefresh _ (.success (some data)) => ¬ (holder c).Known data.refreshToken
  | .respond i (.success (some data)) =>
      c.awaitsLogin i = true → ¬ (holder c).Known data.refreshToken
  | _ => True

instance (c : Client) (e : WebEvent) : Decidable (NewToken c e) :=
  match e with
  | .answerRefresh _ (.success (some data)) =>
      inferInstanceAs (Decidable (¬ (holder c).Known data.refreshToken))
  | .respond i (.success (some data)) =>
      inferInstanceAs (Decidable (c.awaitsLogin i = true → ¬ (holder c).Known data.refreshToken))
  | .answerRefresh _ (.success none) => isTrue trivial
  | .answerRefresh _ .unauthorized => isTrue trivial
  | .answerRefresh _ .otherError => isTrue trivial
  | .respond _ (.success none) => isTrue trivial
  | .respond _ .unauthorized => isTrue trivial
  | .respond _ .otherError => isTrue trivial
  | .request => isTrue trivial
  | .submitLogin => isTrue trivial
  | .continueRefresh _ => isTrue trivial
  | .resume _ => isTrue trivial
  | .submitted _ => isTrue trivial
  | .logout => isTrue trivial
  | .updateUser _ => isTrue trivial

/-! ## Threads and the tokens that they carry -/

section Lists

variable {α β : Type}

/-- What an entry contributes. -/
def share (f : α → Option β) (a : α) : Multiset β := (f a).toList

theorem filterMap_cons_share (f : α → Option β) (a : α) (l : List α) :
    ((a :: l).filterMap f : Multiset β) = share f a + (l.filterMap f : List β) := by
  unfold share
  cases ha : f a with
  | none =>
      rw [List.filterMap_cons_none ha]
      exact (Multiset.zero_add _).symm
  | some b =>
      rw [List.filterMap_cons_some ha]
      rfl

/-- An overwritten entry, next to the others. -/
theorem filterMap_set (f : α → Option β) {l : List α} {i : Nat} {x : α} (y : α)
    (h : l[i]? = some x) :
    ∃ rest : Multiset β, (l.filterMap f : Multiset β) = share f x + rest ∧
      ((l.set i y).filterMap f : Multiset β) = share f y + rest := by
  induction l generalizing i with
  | nil => cases h
  | cons a l ih =>
      cases i with
      | zero =>
          obtain rfl := Option.some.inj h
          exact ⟨l.filterMap f, filterMap_cons_share f a l, filterMap_cons_share f y l⟩
      | succ i =>
          obtain ⟨rest, hl, hset⟩ := ih h
          refine ⟨share f a + rest, ?_, ?_⟩
          · rw [filterMap_cons_share, hl, ← Multiset.add_assoc,
              Multiset.add_comm (share f a), Multiset.add_assoc]
          · rw [List.set_cons_succ, filterMap_cons_share, hset, ← Multiset.add_assoc,
              Multiset.add_comm (share f a), Multiset.add_assoc]

end Lists

section Holder

variable {c : Client} {i : Nat} {t t' : Thread}

/-- A thread that goes on, and what it carries before and after. -/
theorem waiting_set (hi : c.threads[i]? = some t) (t' : Thread) :
    ∃ rest, (holder c).waiting = share Thread.carried t + rest ∧
      (holder (c.setThread i t')).waiting = share Thread.carried t' + rest :=
  filterMap_set Thread.carried t' hi

theorem share_none (ht : t.carried = none) (rest : Multiset String) :
    share Thread.carried t + rest = rest := by
  unfold share
  rw [ht]
  exact Multiset.zero_add rest

theorem share_some {x : String} (ht : t.carried = some x) (rest : Multiset String) :
    share Thread.carried t + rest = x ::ₘ rest := by
  unfold share
  rw [ht]
  exact Multiset.singleton_add x rest

theorem waiting_same (hi : c.threads[i]? = some t) (ht : t.carried = none)
    (ht' : t'.carried = none) : (holder (c.setThread i t')).waiting = (holder c).waiting := by
  obtain ⟨rest, hold, hnew⟩ := waiting_set hi t'
  rw [hold, hnew, share_none ht, share_none ht']

theorem waiting_receive (hi : c.threads[i]? = some t) (ht : t.carried = none) {x : String}
    (ht' : t'.carried = some x) :
    (holder (c.setThread i t')).waiting = x ::ₘ (holder c).waiting := by
  obtain ⟨rest, hold, hnew⟩ := waiting_set hi t'
  rw [hold, hnew, share_none ht, share_some ht']

theorem waiting_store (hi : c.threads[i]? = some t) {x : String} (ht : t.carried = some x)
    (ht' : t'.carried = none) :
    (holder c).waiting = x ::ₘ (holder (c.setThread i t')).waiting := by
  obtain ⟨rest, hold, hnew⟩ := waiting_set hi t'
  rw [hold, hnew, share_some ht, share_none ht']

theorem setThread_stays (hi : c.threads[i]? = some t) (ht : t.carried = none)
    (ht' : t'.carried = none) : holder (c.setThread i t') = holder c :=
  congrArg (fun w => { holder c with waiting := w }) (waiting_same hi ht ht')

end Holder

/-! ## Every step is one of the holder -/

section Steps

variable {c : Client} {i : Nat} {t : Thread}

theorem request_refines (c : Client) (kind : Kind) :
    Step (holder c) (holder (c.request kind)) := by
  have hsame : holder (c.request kind) = holder c := by
    refine congrArg (fun w => { holder c with waiting := w }) ?_
    show ((c.threads ++ [Thread.requested kind c.auth.token]).filterMap Thread.carried
      : Multiset String) = _
    rw [List.filterMap_append]
    exact congrArg _ (List.append_nil _)
  rw [hsame]
  exact .stay

theorem logout_refines (c : Client) : Step (holder c) (holder c.logout) := .drop

/-- The thread ends with a logout. -/
theorem logout_finish_refines (hi : c.threads[i]? = some t) (ht : t.carried = none) :
    Step (holder c) (holder (c.logout.setThread i .finished)) := by
  have hi' : c.logout.threads[i]? = some t := hi
  rw [setThread_stays hi' ht rfl]
  exact logout_refines c

theorem returned_refines (hi : c.threads[i]? = some t) (ht : t.carried = none) {kind : Kind}
    {response : Response} (hnew : ∀ data, kind = .login → response = .success (some data) →
      ¬ (holder c).Known data.refreshToken) :
    Step (holder c) (holder (c.returned i kind response)) := by
  unfold Client.returned
  split
  · rename_i data
    have hw : (holder (c.setThread i (.answered data))).waiting
        = data.refreshToken ::ₘ (holder c).waiting := waiting_receive hi ht rfl
    have hholder : holder (c.setThread i (.answered data))
        = { holder c with waiting := data.refreshToken ::ₘ (holder c).waiting } :=
      congrArg (fun w => { holder c with waiting := w }) hw
    rw [hholder]
    exact .receive (hnew data rfl rfl)
  · rw [setThread_stays hi ht rfl]
    exact .stay

/-- After a 401: a logout, or a refresh of the stored token if none is under way. -/
theorem unauthorized_refines (hi : c.threads[i]? = some t) (ht : t.carried = none)
    (kind : Kind) : Step (holder c) (holder (c.unauthorized i kind)) := by
  unfold Client.unauthorized
  cases hstored : truthy c.localStorage.refresh_token with
  | none => exact logout_finish_refines hi ht
  | some refreshToken =>
      dsimp only
      cases hlock : c.refreshPromise with
      | some promise =>
          dsimp only
          rw [setThread_stays hi ht rfl]
          exact .stay
      | none =>
          have hi' : (c.refreshQuery refreshToken).threads[i]? = some t := hi
          dsimp only
          rw [setThread_stays hi' ht rfl]
          -- one exchange more, and it holds the lock
          have hholder : holder (c.refreshQuery refreshToken)
              = { holder c with
                exchanges := (holder c).exchanges ++ [⟨refreshToken, .sent, false⟩]
                lock := some (holder c).exchanges.length } := by
            show Holder.mk _ _ ((c.refreshes ++ [_]).map Refresh.exchange) _ = _
            rw [List.map_append]
            show _ = Holder.mk _ _ _ (some (c.refreshes.map Refresh.exchange).length)
            rw [List.length_map]
            rfl
          rw [hholder]
          exact .send (truthy_eq_some.mp hstored).1 hlock

theorem respond_refines (c : Client) (i : Nat) (response : Response)
    (hnew : NewToken c (.respond i response)) :
    Step (holder c) (holder (c.respond i response)) := by
  have hlogin : ∀ {kind : Kind}, (kind = .login → c.awaitsLogin i = true) →
      ∀ data, kind = .login → response = .success (some data) →
        ¬ (holder c).Known data.refreshToken := by
    intro kind hkind data hk hresponse
    rw [hresponse] at hnew
    exact hnew (hkind hk)
  unfold Client.respond
  split
  · rename_i kind bearer hi
    split
    · exact unauthorized_refines hi rfl kind
    · refine returned_refines hi rfl (hlogin ?_)
      rintro rfl
      simp only [Client.awaitsLogin, hi]
  · rename_i kind bearer hi
    refine returned_refines hi rfl (hlogin ?_)
    rintro rfl
    simp only [Client.awaitsLogin, hi]
  · exact .stay

/-- A refresh is overwritten. -/
theorem exchanges_set (c : Client) (j : Nat) (refresh : Refresh) :
    (c.refreshes.set j refresh).map Refresh.exchange
      = (holder c).exchanges.set j refresh.exchange := List.map_set

theorem exchange_at {j : Nat} {refresh : Refresh} (hj : c.refreshes[j]? = some refresh) :
    (holder c).exchanges[j]? = some refresh.exchange := by
  show (c.refreshes.map Refresh.exchange)[j]? = _
  rw [List.getElem?_map, hj]
  rfl

theorem answerRefresh_refines (c : Client) (j : Nat) (response : Response)
    (hnew : NewToken c (.answerRefresh j response)) :
    Step (holder c) (holder (c.answerRefresh j response)) := by
  unfold Client.answerRefresh
  split
  · rename_i refreshToken bearer hj
    have hholder : holder
        { c with refreshes := c.refreshes.set j ⟨refreshToken, bearer, some response, none⟩ }
        = { holder c with
          exchanges := (holder c).exchanges.set j
            (Exchange.mk refreshToken (statusOf (some response)) false) } :=
      congrArg (fun l => { holder c with exchanges := l }) (exchanges_set c j _)
    rw [hholder]
    refine .answer (exchange_at hj) ?_
    intro n hn
    match response, hn, hnew with
    | .success (some data), hn, hnew =>
        rw [← Status.succeeded.inj hn]
        exact hnew
  · exact .stay

theorem continueRefresh_refines (c : Client) (j : Nat) :
    Step (holder c) (holder (c.continueRefresh j)) := by
  unfold Client.continueRefresh
  split
  · rename_i refreshToken bearer response hj
    have hdecided := exchange_at hj
    -- the store and the promise change together with the storage
    have hholder : holder (c.refreshed j ⟨refreshToken, bearer, some response, none⟩ response)
        = { holder c with
          stored := (statusOf (some response)).store (holder c).stored
          exchanges := (holder c).exchanges.set j
            (Exchange.mk refreshToken (statusOf (some response)) true)
          lock := none } := by
      match response with
      | .success (some data) =>
          exact congrArg (fun l => { holder c with
            stored := some data.refreshToken, exchanges := l, lock := none })
            (exchanges_set c j _)
      | .success none =>
          exact congrArg (fun l => { holder c with exchanges := l, lock := none })
            (exchanges_set c j _)
      | .unauthorized =>
          exact congrArg (fun l => { holder c with exchanges := l, lock := none })
            (exchanges_set c j _)
      | .otherError =>
          exact congrArg (fun l => { holder c with exchanges := l, lock := none })
            (exchanges_set c j _)
    rw [hholder]
    exact .finish hdecided
  · exact .stay

theorem resume_refines (c : Client) (i : Nat) : Step (holder c) (holder (c.resume i)) := by
  unfold Client.resume
  split
  · rename_i kind promise hi
    split
    · exact .stay
    · split
      · rw [setThread_stays hi rfl rfl]
        exact .stay
      · exact logout_finish_refines hi rfl
  · exact .stay

/-- `onSubmit` stores the token of its response, unless that is empty. -/
theorem submitted_refines (c : Client) (i : Nat) :
    Step (holder c) (holder (c.submitted i)) := by
  unfold Client.submitted
  split
  · rename_i data hi
    have hwaiting : (holder c).waiting
        = data.refreshToken ::ₘ (holder (c.setThread i .finished)).waiting :=
      waiting_store hi rfl rfl
    by_cases hempty : data.refreshToken = ""
    · have hholder : holder ((c.setCredentials data.accessToken (some data.refreshToken)
          data.user).setThread i .finished)
          = { holder c with waiting := (holder (c.setThread i .finished)).waiting } := by
        simp only [holder, Client.setThread, Client.setCredentials, truthy, if_pos hempty]
      rw [hholder]
      exact .discard hwaiting
    · have hholder : holder ((c.setCredentials data.accessToken (some data.refreshToken)
          data.user).setThread i .finished)
          = { holder c with
            stored := some data.refreshToken
            waiting := (holder (c.setThread i .finished)).waiting } := by
        simp only [holder, Client.setThread, Client.setCredentials, truthy, if_neg hempty]
      rw [hholder]
      exact .store hwaiting
  · exact .stay

theorem updateUser_refines (c : Client) (name : String) :
    Step (holder c) (holder (c.updateUser name)) := by
  unfold Client.updateUser
  split
  · exact .stay
  · exact .stay

end Steps

/-- **The client is a holder.** -/
theorem webStep_refines (c : Client) (e : WebEvent) (hnew : NewToken c e) :
    Step (holder c) (holder (webStep c e)) := by
  cases e with
  | request => exact request_refines c .api
  | submitLogin => exact request_refines c .login
  | respond i response => exact respond_refines c i response hnew
  | answerRefresh j response => exact answerRefresh_refines c j response hnew
  | continueRefresh j => exact continueRefresh_refines c j
  | resume i => exact resume_refines c i
  | submitted i => exact submitted_refines c i
  | logout => exact logout_refines c
  | updateUser name => exact updateUser_refines c name

theorem run_refines {c : Client} {l : List WebEvent} (hnew : Throughout webStep NewToken c l) :
    Relation.ReflTransGen Step (holder c) (holder (play webStep c l)) := by
  induction l generalizing c with
  | nil => exact .refl
  | cons e rest ih => exact .head (webStep_refines c e hnew.1) (ih hnew.2)

/-! ## Single flight -/

/-- The requests to `/auth/refresh` that are outstanding. -/
def Client.outstanding (c : Client) : Nat :=
  (c.refreshes.filter fun refresh => refresh.value.isNone).length

theorem holder_outstanding (c : Client) : (holder c).outstanding = c.outstanding := by
  show ((c.refreshes.map Refresh.exchange).filter _).length = _
  rw [List.filter_map, List.length_map]
  refine congrArg (fun p => (c.refreshes.filter p).length) (funext ?_)
  intro refresh
  exact Option.not_isSome refresh.value

/-- The server has answered with new tokens. -/
def Refresh.Succeeded (refresh : Refresh) : Prop :=
  ∃ data, refresh.answer = some (.success (some data))

theorem load_sound (localStorage : LocalStorage) : Sound (holder (.load localStorage)) :=
  sound_start localStorage.refresh_token

/-- **Refreshing is single-flight.**  If the refresh tokens that the server returns are new:
    in every state of every run at most one refresh is outstanding, and no refresh that is
    sent after another has succeeded carries its token. -/
theorem refresh_single_flight (localStorage : LocalStorage) (l : List WebEvent)
    (hnew : Throughout webStep NewToken (.load localStorage) l) :
    Always webStep (fun c => c.outstanding ≤ 1) (.load localStorage) l ∧
      ∀ earlier rest, l = earlier ++ rest →
        ∀ refresh ∈ (play webStep (.load localStorage) earlier).refreshes, refresh.Succeeded →
          ∀ later ∈ (play webStep (.load localStorage) l).refreshes.drop
              (play webStep (.load localStorage) earlier).refreshes.length,
            later.refreshToken ≠ refresh.refreshToken := by
  have hstep : ∀ c e, Sound (holder c) → NewToken c e → Sound (holder (webStep c e)) :=
    fun c e hs he => hs.step (webStep_refines c e he)
  constructor
  · refine hnew.always hstep ?_ (load_sound localStorage)
    intro c hs
    rw [← holder_outstanding]
    exact hs.outstanding_le
  · rintro earlier rest rfl refresh hrefresh ⟨data, hdata⟩ later hlater
    -- the run is cut where `refresh` has succeeded
    obtain ⟨hearlier, hrest⟩ := throughout_append.mp hnew
    have hsound := hearlier.play hstep (load_sound localStorage)
    rw [play_append] at hlater
    have hstatus : refresh.exchange.status = .succeeded data.refreshToken :=
      congrArg statusOf hdata
    obtain ⟨-, -, -, hother⟩ := hsound.no_reuse (run_refines hrest)
      (List.mem_map_of_mem hrefresh) hstatus
    refine hother later.exchange ?_
    show later.exchange ∈ (List.map _ _).drop (List.map _ _).length
    rw [List.length_map, ← List.map_drop]
    exact List.mem_map_of_mem hlater

/-- Two requests meet a 401, one refresh serves them both, and the next refresh is sent
    with the new token. -/
def twoRequests : List WebEvent :=
  [.request, .request, .respond 0 .unauthorized, .respond 1 .unauthorized,
    .answerRefresh 0 (.success (some ⟨"access'", "refresh'", none⟩)), .continueRefresh 0,
    .resume 0, .resume 1, .request, .respond 2 .unauthorized]

/-- Somebody who is logged in. -/
def loggedIn : LocalStorage := { access_token := some "access", refresh_token := some "refresh" }

example : (play webStep (.load loggedIn) twoRequests).refreshes.map Refresh.refreshToken
    = ["refresh", "refresh'"] := by decide

theorem twoRequests_single_flight :
    Always webStep (fun c => c.outstanding ≤ 1) (.load loggedIn) twoRequests ∧
      ∀ earlier rest, twoRequests = earlier ++ rest →
        ∀ refresh ∈ (play webStep (.load loggedIn) earlier).refreshes, refresh.Succeeded →
          ∀ later ∈ (play webStep (.load loggedIn) twoRequests).refreshes.drop
              (play webStep (.load loggedIn) earlier).refreshes.length,
            later.refreshToken ≠ refresh.refreshToken :=
  refresh_single_flight loggedIn twoRequests (by decide)

end PlatformWeb
