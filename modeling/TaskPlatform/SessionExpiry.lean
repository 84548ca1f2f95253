import TaskPlatform.SessionRaces

/-! # Sessions and the lifetime of their tokens

    `refresh` verifies the token, and compares its hash with that of the session, but
    never reads `expiresAt`.  The two columns are always written together, so in every
    interleaving they stay those of one refresh token that was issued, and a token that
    verifies belongs to a session that has not expired (`session_outlived_by_token`). -/

namespace PlatformAuth

open AsyncProgram Interleaving PlatformEntities RowTable

variable {Token Hash : Type} [DecidableEq Hash] (lib : AuthLibrary Token Hash)

/-! ## Hash and expiry -/

/-- Hash and expiry of one refresh token that was issued. -/
def OfOneToken (s : AuthState Hash) (tokenHash : Hash) (expiresAt : Nat) : Prop :=
  ∃ i ∈ s.issued, tokenHash = hashToken lib (i.token lib) ∧ expiresAt = lib.exp (i.token lib)

/-- Every row has hash and expiry of one token. -/
def Coupled (s : AuthState Hash) : Prop :=
  ∀ r ∈ s.sessions, OfOneToken lib s r.tokenHash r.expiresAt

omit [DecidableEq Hash] in
theorem OfOneToken.later {s s' : AuthState Hash} {h : Hash} {e : Nat}
    (ht : OfOneToken lib s h e) (hs : ∃ l, s'.issued = s.issued ++ l) :
    OfOneToken lib s' h e := by
  obtain ⟨i, hi, hhash, hexp⟩ := ht
  obtain ⟨l, hl⟩ := hs
  exact ⟨i, hl ▸ List.mem_append_left l hi, hhash, hexp⟩

omit [DecidableEq Hash] in
theorem Coupled.of_rows {s s' : AuthState Hash} (h : Coupled lib s)
    (hrows : ∀ r ∈ s'.sessions, ∃ r₀ ∈ s.sessions, r.tokenHash = r₀.tokenHash ∧
      r.expiresAt = r₀.expiresAt) (hs : ∃ l, s'.issued = s.issued ++ l) :
    Coupled lib s' := by
  intro r hr
  obtain ⟨r₀, hr₀, hhash, hexp⟩ := hrows r hr
  rw [hhash, hexp]
  exact (h r₀ hr₀).later lib hs

/-- A call writes hash and expiry of one token. -/
def CouplingDuty (s : AuthState Hash) : AuthProg Token Hash (AuthReply Token) → Prop
  | .await (.save o) _ => OfOneToken lib s o.tokenHash o.expiresAt
  | .await (.insert n) _ => OfOneToken lib s n.tokenHash n.expiresAt
  | _ => True

/-- An operation that was owed keeps the columns together, and only adds tokens. -/
theorem coupled_step (ω : Choice) (op : AuthOp Token Hash)
    (k : op.Res → AuthProg Token Hash (AuthReply Token)) (s : AuthState Hash)
    (hinv : Coupled lib s) (howes : CouplingDuty lib s (.await op k)) :
    Coupled lib (exec lib ω op s).1 ∧ ∃ l, (exec lib ω op s).1.issued = s.issued ++ l := by
  have hsame := issued_refl s
  cases op with
  | insert n =>
      cases hid : lookup UserSession.id ω.newId s.sessions with
      | some r =>
          simp only [exec, hid]
          exact ⟨hinv, hsame⟩
      | none =>
          simp only [exec, hid]
          refine ⟨?_, hsame⟩
          intro r hr
          rcases List.mem_append.mp hr with hr | hr
          · exact hinv r hr
          · rw [List.mem_singleton.mp hr]
            exact howes
  | save o =>
      refine ⟨?_, hsame⟩
      intro r hr
      have hr' : r ∈ upsert UserSession.id o s.sessions := hr
      rcases eq_or_mem_of_mem_upsert hr' with rfl | hr'
      · exact howes
      · exact hinv r hr'
  | revokeAll u =>
      refine ⟨hinv.of_rows lib ?_ hsame, hsame⟩
      intro r hr
      obtain ⟨r₀, hr₀, rfl⟩ := List.mem_map.mp hr
      exact ⟨r₀, hr₀, revokeRow_tokenHash u r₀, revokeRow_expiresAt u r₀⟩
  | signAsync secret d p =>
      cases secret with
      | access => exact ⟨hinv, hsame⟩
      | refresh =>
          refine ⟨?_, [_], rfl⟩
          intro r hr
          exact (hinv r hr).later lib ⟨[_], rfl⟩
  | findByEmailWithPassword e => exact ⟨hinv, hsame⟩
  | bcryptCompare p q => exact ⟨hinv, hsame⟩
  | verifyAsync secret t => exact ⟨hinv, hsame⟩
  | findOne w => exact ⟨hinv, hsame⟩
  | auditLog a u p => exact ⟨hinv, hsame⟩

/-- The bargain of the calls on sessions. -/
def coupling : Discipline (exec lib) HttpError (AuthReply Token) where
  inv := Coupled lib
  rely s s' := ∃ l, s'.issued = s.issued ++ l
  refl := issued_refl
  trans _ _ _ := issued_trans
  granted _ _ := True
  owes := CouplingDuty lib
  keep ω op k s hinv howes _ := coupled_step lib ω op k s hinv howes

/-! ## The calls -/

theorem login_couples (email passwordPlain : String)
    (deviceFingerprint ipAddress : Option String) (s : AuthState Hash) :
    Follows (coupling lib) (login lib email passwordPlain deviceFingerprint ipAddress) s := by
  simp only [login, Prog.perform_bind]
  intro s₁ _ _
  refine ⟨trivial, fun _ ω₁ => ?_⟩
  cases (exec lib ω₁ (.findByEmailWithPassword email) s₁).2 with
  | none => exact fun _ _ _ => trivial
  | some user =>
      intro s₂ _ _
      refine ⟨trivial, fun _ ω₂ => ?_⟩
      cases (exec lib ω₂ (.bcryptCompare passwordPlain (user.password.getD "")) s₂).2 with
      | false => exact fun _ _ _ => trivial
      | true =>
          intro s₃ _ _
          refine ⟨trivial, fun _ ω₃ => ?_⟩
          intro s₄ _ _
          refine ⟨trivial, fun _ ω₄ => ?_⟩
          -- hash and expiry of the session are those of the token signed at `s₄`
          intro s₅ _ hlater
          refine ⟨?_, fun _ ω₅ => ?_⟩
          · have hsigned : OfOneToken lib
                (exec lib ω₄ (.signAsync .refresh lib.refreshExpiration
                  ⟨user.id, user.email⟩) s₄).1 _ _ :=
              ⟨⟨⟨user.id, user.email⟩, s₄.now + ω₄.elapsed⟩,
                List.mem_append_right _ (List.mem_singleton_self _), rfl, rfl⟩
            exact hsigned.later lib hlater
          · cases (exec lib ω₅ _ s₅).2 with
            | error e => exact fun _ _ _ => trivial
            | ok row => exact fun _ _ _ => ⟨trivial, fun _ _ _ _ _ => trivial⟩

/-- What a lookup returns has hash and expiry of one token, and keeps them in a save. -/
theorem found_couples {w : SessionWhere Hash} {ω : Choice} {s s' : AuthState Hash}
    (hinv : Coupled lib s) {r : UserSession Hash}
    (hr : (exec lib ω (.findOne w : AuthOp Token Hash) s).2 = some r)
    (hs : ∃ l, s'.issued = s.issued ++ l) : OfOneToken lib s' r.tokenHash r.expiresAt := by
  have hpick : pick ω.pick (s.sessions.filter w.matches) = some r := hr
  exact (hinv r (List.mem_filter.mp (pick_mem hpick)).1).later lib hs

theorem logout_couples (t : Token) (userId : String) (s : AuthState Hash) :
    Follows (coupling lib) (logout lib t userId) s := by
  simp only [logout, Prog.perform_bind]
  intro s₁ hinv₁ _
  refine ⟨trivial, fun _ ω₁ => ?_⟩
  cases hr : (exec lib ω₁ (.findOne { tokenHash := some (hashToken lib t)
                                      userId := some userId }) s₁).2 with
  | none => exact fun _ _ _ => ⟨trivial, fun _ _ _ _ _ => trivial⟩
  | some session =>
      intro s₂ _ hlater
      have hkept : OfOneToken lib s₂ session.tokenHash session.expiresAt :=
        found_couples lib hinv₁ hr hlater
      exact ⟨hkept, fun _ _ _ _ _ => ⟨trivial, fun _ _ _ _ _ => trivial⟩⟩

theorem revokeSession_couples (sessionId userId : String) (s : AuthState Hash) :
    Follows (coupling lib) (revokeSession sessionId userId) s := by
  simp only [revokeSession, Prog.perform_bind]
  intro s₁ hinv₁ _
  refine ⟨trivial, fun _ ω₁ => ?_⟩
  cases hr : (exec lib ω₁ (.findOne { id := some sessionId, userId := some userId }) s₁).2 with
  | none => exact fun _ _ _ => trivial
  | some session =>
      intro s₂ _ hlater
      have hkept : OfOneToken lib s₂ session.tokenHash session.expiresAt :=
        found_couples lib hinv₁ hr hlater
      exact ⟨hkept, fun _ _ _ _ _ => ⟨trivial, fun _ _ _ _ _ => trivial⟩⟩

theorem refresh_couples (t : Token) (s : AuthState Hash) :
    Follows (coupling lib) (refresh lib t) s := by
  simp only [refresh, Prog.perform_bind]
  intro s₁ _ _
  refine ⟨trivial, fun _ ω₁ => ?_⟩
  cases (exec lib ω₁ (.verifyAsync .refresh t) s₁).2 with
  | none => exact fun _ _ _ => trivial
  | some payload =>
      intro s₂ _ _
      refine ⟨trivial, fun _ ω₂ => ?_⟩
      cases (exec lib ω₂ (.findOne (liveSessionsOf payload.userId)) s₂).2 with
      | none => exact fun _ _ _ => trivial
      | some session =>
          dsimp only
          by_cases hh : session.tokenHash ≠ hashToken lib t
          · rw [if_pos hh]
            exact fun _ _ _ => ⟨trivial, fun _ _ _ _ _ =>
              ⟨trivial, fun _ _ _ _ _ => trivial⟩⟩
          · rw [if_neg hh]
            intro s₃ _ _
            refine ⟨trivial, fun _ ω₃ => ?_⟩
            intro s₄ _ _
            refine ⟨trivial, fun _ ω₄ => ?_⟩
            -- the object that is saved carries the token signed at `s₄`
            intro s₅ _ hlater
            refine ⟨?_, fun _ _ _ _ _ => trivial⟩
            have hsigned : OfOneToken lib
                (exec lib ω₄ (.signAsync .refresh lib.refreshExpiration
                  ⟨payload.userId, payload.email⟩) s₄).1 _ _ :=
              ⟨⟨⟨payload.userId, payload.email⟩, s₄.now + ω₄.elapsed⟩,
                List.mem_append_right _ (List.mem_singleton_self _), rfl, rfl⟩
            exact hsigned.later lib hlater

theorem call_couples (call : AuthCall Token) (s : AuthState Hash) :
    Follows (coupling lib) (call.prog lib) s := by
  cases call with
  | login e p d i => exact login_couples lib e p d i s
  | refresh t => exact refresh_couples lib t s
  | logout t u => exact logout_couples lib t u s
  | revokeSession i u => exact revokeSession_couples lib i u s

theorem race_coupled {s : AuthState Hash} (hs : Coupled lib s) (calls : List (AuthCall Token))
    (l : List (Nat × Choice)) : Coupled lib (run (exec lib) (race lib s calls) l).shared := by
  have hord : Orderly (coupling lib) (race lib s calls) := by
    refine ⟨hs, ?_⟩
    intro p hp
    obtain ⟨call, -, rfl⟩ := List.mem_map.mp hp
    exact call_couples lib call s
  exact (follows_run hord (meets_of_forall (exec lib) (fun _ _ _ _ _ => trivial) _ l)).1.inv

/-! ## The session of a token that verifies -/

/-- In the run the call `j` is a refresh of `t` that verifies it at the time `now`, in its
    first step, and in its second finds the session `r` with the hash of `t`. -/
def Passes (c : Pool (AuthOp Token Hash) AuthOp.Res HttpError (AuthReply Token)
    (AuthState Hash)) (l : List (Nat × Choice)) (j : Nat) (t : Token) (now : Nat)
    (r : UserSession Hash) : Prop :=
  c.calls[j]? = some (refresh lib t) ∧
    ∃ l₁ ω₁ l₂ ω₂ l₃ payload,
      l = l₁ ++ (j, ω₁) :: (l₂ ++ (j, ω₂) :: l₃) ∧
      (∀ e ∈ l₁, e.1 ≠ j) ∧ (∀ e ∈ l₂, e.1 ≠ j) ∧
      now = (run (exec lib) c l₁).shared.now + ω₁.elapsed ∧
      lib.verifyAsync .refresh t now = some payload ∧
      (exec lib ω₂ (.findOne (liveSessionsOf payload.userId))
        (run (exec lib) (run (exec lib) c (l₁ ++ [(j, ω₁)])) l₂).shared).2 = some r ∧
      r.tokenHash = hashToken lib t

/-- Every refresh that returns has passed. -/
theorem passes_of_returned {c : Pool (AuthOp Token Hash) AuthOp.Res HttpError
    (AuthReply Token) (AuthState Hash)} {l : List (Nat × Choice)} {j : Nat} {t : Token}
    (hj : c.calls[j]? = some (refresh lib t)) {reply : AuthReply Token}
    (hreturned : (run (exec lib) c l).calls[j]? = some (.done reply)) :
    ∃ now r, Passes lib c l j t now r := by
  have hstart := hj
  simp only [refresh, Prog.perform_bind] at hstart
  obtain ⟨l₁, ω₁, l', hl, hidle₁, hverified⟩ :=
    first_step (exec lib) hstart hreturned rfl
  have hrest : (run (exec lib) (run (exec lib) c (l₁ ++ [(j, ω₁)])) l').calls[j]?
      = some (.done reply) := by
    rw [← run_append, List.append_assoc, List.singleton_append, ← hl]
    exact hreturned
  cases hv : (exec lib ω₁ (.verifyAsync .refresh t) (run (exec lib) c l₁).shared).2 with
  | none =>
      rw [hv] at hverified
      rw [run_calls_finished (exec lib) hverified rfl l'] at hrest
      cases hrest
  | some payload =>
      rw [hv] at hverified
      obtain ⟨l₂, ω₂, l₃, hl', hidle₂, hfound⟩ :=
        first_step (exec lib) hverified hrest rfl
      have hrest' : (run (exec lib) (run (exec lib) (run (exec lib) c (l₁ ++ [(j, ω₁)]))
          (l₂ ++ [(j, ω₂)])) l₃).calls[j]? = some (.done reply) := by
        rw [← run_append, List.append_assoc, List.singleton_append, ← hl']
        exact hrest
      cases hr : (exec lib ω₂ (.findOne (liveSessionsOf payload.userId))
          (run (exec lib) (run (exec lib) c (l₁ ++ [(j, ω₁)])) l₂).shared).2 with
      | none =>
          rw [hr] at hfound
          rw [run_calls_finished (exec lib) hfound rfl l₃] at hrest'
          cases hrest'
      | some r =>
          rw [hr] at hfound
          dsimp only at hfound
          by_cases hh : r.tokenHash = hashToken lib t
          · exact ⟨_, r, hj, l₁, ω₁, l₂, ω₂, l₃, payload, by rw [hl, hl'],
              hidle₁, hidle₂, rfl,
              hv, hr, hh⟩
          · -- the alarm only ends in an error
            rw [if_pos hh] at hfound
            have hnever : Returns (fun _ => False) (.done reply :
                AuthProg Token Hash (AuthReply Token)) :=
              returns_run (exec lib) hfound (fun _ _ => trivial) hrest'
            exact absurd hnever not_false

omit [DecidableEq Hash] in
/-- Signed tokens verify until their expiry. -/
theorem lt_exp_of_verified {i : Issue} {now : Nat} {payload : Payload}
    (hv : lib.verifyAsync .refresh (i.token lib) now = some payload) :
    now < lib.exp (i.token lib) := by
  rw [Issue.token, lib.verify_sign] at hv
  rw [Issue.token, lib.exp_sign]
  by_contra hlate
  rw [if_neg hlate] at hv
  cases hv

omit [DecidableEq Hash] in
/-- A token that verifies has a session that has not expired. -/
theorem Coupled.lt_expiresAt {s : AuthState Hash} (h : Coupled lib s)
    (hinj : ∀ t t', lib.sha256 t = lib.sha256 t' → t = t') {r : UserSession Hash}
    (hr : r ∈ s.sessions) {t : Token} (hhash : r.tokenHash = hashToken lib t) {now : Nat}
    {payload : Payload} (hv : lib.verifyAsync .refresh t now = some payload) :
    now < r.expiresAt := by
  obtain ⟨i, -, hi, hexp⟩ := h r hr
  have hsame : t = i.token lib := hinj _ _ (hhash.symm.trans hi)
  rw [hsame] at hv
  rw [hexp]
  exact lt_exp_of_verified lib hv

/-- **Sessions do not outlive their tokens.**  Where hashes do not collide: in every state
    that any calls reach in any interleaving, each session has hash and expiry of one
    refresh token that was issued; and every refresh that gets past the verification and
    the comparison of the hashes does so on a session that expires later than the time of
    the verification. -/
theorem session_outlived_by_token
    (hinj : ∀ t t', lib.sha256 t = lib.sha256 t' → t = t') (users : List User) (now : Nat)
    (calls : List (AuthCall Token)) (l : List (Nat × Choice)) :
    Coupled lib (run (exec lib) (race lib (.start users now) calls) l).shared ∧
      ∀ j t verifiedAt r,
        Passes lib (race lib (.start users now) calls) l j t verifiedAt r →
          verifiedAt < r.expiresAt := by
  have hstart : Coupled lib (AuthState.start users now) := fun r hr => (nomatch hr)
  refine ⟨race_coupled lib hstart calls l, ?_⟩
  rintro j t verifiedAt r ⟨-, l₁, ω₁, l₂, ω₂, l₃, payload, -, -, -, -,
    hv, hr, hhash⟩
  have hcoupled := race_coupled lib hstart calls (l₁ ++ [(j, ω₁)] ++ l₂)
  rw [run_append] at hcoupled
  have hpick : pick ω₂.pick (List.filter _ _) = some r := hr
  exact hcoupled.lt_expiresAt lib hinj (List.mem_filter.mp (pick_mem hpick)).1 hhash hv

/-- Alice logs in and refreshes, one call after the other. -/
def loginThenRefresh : List (Nat × Choice) :=
  [(0, {}), (0, {}), (0, {}), (0, {}), (0, ⟨0, 0, "1"⟩), (0, {}), (1, ⟨5, 0, ""⟩), (1, {}),
    (1, {}), (1, {}), (1, {})]

/-- Her session expires a week after the login. -/
theorem session_outlived_by_token_alice :
    ∃ reply, (run (exec plain) (race plain (.start [alice] 0)
        [.login "alice@x" "pw" none none, .refresh (aliceToken 0)]) loginThenRefresh).calls[1]?
          = some (.done reply) ∧
      ∃ verifiedAt r, Passes plain (race plain (.start [alice] 0)
          [.login "alice@x" "pw" none none, .refresh (aliceToken 0)]) loginThenRefresh 1
          (aliceToken 0) verifiedAt r ∧ verifiedAt < r.expiresAt := by
  refine ⟨_, rfl, ?_⟩
  obtain ⟨verifiedAt, r, h⟩ := passes_of_returned plain (c := race plain (.start [alice] 0)
    [.login "alice@x" "pw" none none, .refresh (aliceToken 0)]) (l := loginThenRefresh)
    (j := 1) (t := aliceToken 0) rfl rfl
  exact ⟨verifiedAt, r, h, (session_outlived_by_token plain (fun _ _ h => h) [alice] 0
    [.login "alice@x" "pw" none none, .refresh (aliceToken 0)] loginThenRefresh).2 1
    (aliceToken 0) verifiedAt r h⟩

end PlatformAuth
