import TaskPlatform.SessionRotation

/-! # The only live session of a user

    A user who is logged in once: `login` without another live session opens one
    (`login_opens`), the `refresh` of its current token hands it on (`refresh_hands_on`) unless
    the token has expired (`refresh_expired`), and the calls of other users leave it alone
    (`SoleSession.elsewhere`). -/

namespace PlatformAuth

open AsyncProgram PlatformEntities RowTable

variable {Token Hash : Type} [DecidableEq Hash] (lib : AuthLibrary Token Hash)

/-- The user has one live session, and `t` is its current refresh token. -/
structure SoleSession (u : String) (t : Token) (s : AuthState Hash) : Prop where
  sound : Sound lib s
  current : ∃ r, IsCurrent lib s t r ∧ r.userId = u ∧
    ∀ r' ∈ s.sessions, r'.userId = u → r'.isRevoked = false → r' = r

section Sole

variable {lib} {u : String} {t : Token} {s : AuthState Hash}

omit [DecidableEq Hash] in
/-- The token names its user as long as it verifies, which it does until it expires. -/
theorem SoleSession.verify (h : SoleSession lib u t s) (now : Nat) :
    ∃ p, p.userId = u ∧
      lib.verifyAsync .refresh t now = if now < lib.exp t then some p else none := by
  obtain ⟨r, hcurrent, huser, -⟩ := h.current
  obtain ⟨i, -, hi, rfl⟩ := hcurrent.issued
  refine ⟨i.payload, hi.trans huser, ?_⟩
  rw [Issue.token, lib.verify_sign, lib.exp_sign]

/-! ## The refresh -/

/-- The refresh of a token that has not expired hands the session on. -/
theorem refresh_hands_on (h : SoleSession lib u t s) {ω : Nat → Choice}
    (htime : s.now + (ω 0).elapsed < lib.exp t) :
    ∃ p iat i, p.userId = u ∧
      (solo (exec lib) ω (refresh lib t) s).2
        = .ok (.refreshed (lib.signAsync .access lib.accessExpiration p iat)
            (Issue.token lib i)) ∧
      SoleSession lib u (Issue.token lib i) (solo (exec lib) ω (refresh lib t) s).1 := by
  obtain ⟨r, hcurrent, huser, honly⟩ := h.current
  have hverified : (lib.verifyAsync .refresh t (s.now + (ω 0).elapsed)).isSome = true := by
    obtain ⟨p, -, hp⟩ := h.verify (s.now + (ω 0).elapsed)
    rw [hp, if_pos htime]
    rfl
  have hsound : Sound lib (solo (exec lib) ω (refresh lib t) s).1 :=
    h.sound.effect lib (refresh_effect lib ω t s)
  obtain ⟨access, p, iat, at₂, haccess, hp, hissued, hreply, hrows⟩ :=
    refreshesOwn_of_only lib hcurrent (huser.symm ▸ honly) ω hverified
  refine ⟨p, iat, ⟨p, at₂⟩, hp.trans huser, haccess ▸ hreply, hsound,
    { r with tokenHash := hashToken lib (Issue.token lib ⟨p, at₂⟩)
             expiresAt := lib.exp (Issue.token lib ⟨p, at₂⟩) },
    ⟨?_, hcurrent.live, rfl, ?_⟩, huser, ?_⟩
  · rw [hrows]
    exact mem_replace.mpr (Or.inl ⟨rfl, r, hcurrent.mem, rfl⟩)
  · rw [hissued]
    exact ⟨⟨p, at₂⟩, List.mem_append_right _ (List.mem_singleton_self _), hp, rfl⟩
  · intro r' hr' hu hlive
    rw [hrows] at hr'
    rcases mem_replace.mp hr' with ⟨rfl, -⟩ | ⟨hr', hne⟩
    · rfl
    · exact absurd (congrArg UserSession.id (honly r' hr' hu hlive)) hne

/-- A token that has expired is refused. -/
theorem refresh_expired (h : SoleSession lib u t s) {ω : Nat → Choice}
    (htime : ¬ s.now + (ω 0).elapsed < lib.exp t) :
    ∃ m, (solo (exec lib) ω (refresh lib t) s).2 = .error (.unauthorized m) := by
  have hrefused : lib.verifyAsync .refresh t (s.now + (ω 0).elapsed) = none := by
    obtain ⟨p, -, hp⟩ := h.verify (s.now + (ω 0).elapsed)
    rw [hp, if_neg htime]
  have hrun := refresh_run lib ω t s
  generalize solo (exec lib) ω (refresh lib t) s = out at hrun ⊢
  obtain ⟨s', res⟩ := out
  cases hrun with
  | rejected m s' why sessions issued => exact ⟨m, rfl⟩
  | alarm payload r m s' verified picked mismatch sessions issued =>
      rw [hrefused] at verified
      exact nomatch verified
  | rotated payload r access s' iat verified picked hash signed second sessions issued =>
      rw [hrefused] at verified
      exact nomatch verified

/-! ## The login -/

/-- What a login that succeeds has done. -/
theorem login_success {ω : Nat → Choice} {email passwordPlain : String}
    {deviceFingerprint ipAddress : Option String} {s' : AuthState Hash} {access token : Token}
    {view : UserView}
    (h : solo (exec lib) ω (login lib email passwordPlain deviceFingerprint ipAddress) s
      = (s', .ok (.loggedIn access token view))) :
    ∃ iat i r, i.payload.userId = view.id ∧
      access = lib.signAsync .access lib.accessExpiration i.payload iat ∧
      token = Issue.token lib i ∧ s'.issued = s.issued ++ [i] ∧
      s'.sessions = s.sessions ++ [r] ∧ r.userId = view.id ∧ r.isRevoked = false ∧
      r.tokenHash = hashToken lib token := by
  simp only [login, Prog.perform_bind, solo_await, exec] at h
  cases hfound : s.users.find? (fun u => u.email = email) with
  | none =>
      rw [hfound] at h
      cases h
  | some user =>
      rw [hfound] at h
      simp only [solo_await, exec] at h
      cases hmatch : lib.compare passwordPlain (user.password.getD "") with
      | false =>
          rw [hmatch] at h
          cases h
      | true =>
          rw [hmatch] at h
          simp only [generateAccessToken, generateRefreshToken, Prog.perform_bind,
            solo_await, exec, record, AuthState.wait] at h
          cases hid : lookup UserSession.id (ω (0 + 1 + 1 + 1 + 1)).newId s.sessions with
          | some r =>
              rw [hid] at h
              cases h
          | none =>
              rw [hid] at h
              simp only [solo_await, solo_done, exec, AuthState.wait] at h
              cases h
              exact ⟨_, ⟨⟨user.id, user.email⟩, _⟩, _, rfl, rfl, rfl, rfl, rfl,
                rfl, rfl, rfl⟩

/-- A login of a user without a live session opens the only one. -/
theorem login_opens {ω : Nat → Choice} {email passwordPlain : String}
    {deviceFingerprint ipAddress : Option String} {s' : AuthState Hash} {access token : Token}
    {view : UserView} (hs : Sound lib s)
    (hnone : ∀ r ∈ s.sessions, r.userId = view.id → r.isRevoked = true)
    (h : solo (exec lib) ω (login lib email passwordPlain deviceFingerprint ipAddress) s
      = (s', .ok (.loggedIn access token view))) :
    SoleSession lib view.id token s' := by
  have hsound : Sound lib s' := by
    have heffect := login_effect lib ω email passwordPlain deviceFingerprint ipAddress s
    rw [h] at heffect
    exact hs.effect lib heffect
  obtain ⟨iat, i, r, hi, -, htoken, hissued, hrows, huser, hlive, hhash⟩ := login_success h
  refine ⟨hsound, r, ⟨?_, hlive, hhash, i, ?_, hi.trans huser.symm, htoken⟩, huser, ?_⟩
  · rw [hrows]
    exact List.mem_append_right _ (List.mem_singleton_self r)
  · rw [hissued]
    exact List.mem_append_right _ (List.mem_singleton_self i)
  · intro r' hr' hu hlive'
    rw [hrows] at hr'
    rcases List.mem_append.mp hr' with hr' | hr'
    · rw [hnone r' hr' hu] at hlive'
      exact Bool.noConfusion hlive'
    · exact List.mem_singleton.mp hr'

/-! ## Other users -/

variable (lib) in
/-- The call is made for somebody else: by password, by refresh token, or with an access
    token of that user. -/
def Foreign (u : String) (s : AuthState Hash) : AuthCall Token → Prop
  | .login email _ _ _ => ∀ user,
    s.users.find? (fun x => x.email = email) = some user → user.id ≠ u
  | .refresh t => ∀ now p, lib.verifyAsync .refresh t now = some p → p.userId ≠ u
  | .logout _ userId => userId ≠ u
  | .revokeSession _ userId => userId ≠ u

/-- The rows of the user are the same. -/
def SameRows (u : String) (s s' : AuthState Hash) : Prop :=
  ∀ r : UserSession Hash, r.userId = u → (r ∈ s'.sessions ↔ r ∈ s.sessions)

omit [DecidableEq Hash] in
theorem sameRows_of_eq {s' : AuthState Hash} (h : s'.sessions = s.sessions) :
    SameRows u s s' := by
  intro r _
  rw [h]

omit [DecidableEq Hash] in
/-- A saved session of somebody else. -/
theorem sameRows_of_replace {s' : AuthState Hash} (hids : Unique UserSession.id s.sessions)
    {r : UserSession Hash} (hr : r ∈ s.sessions) (hu : r.userId ≠ u) {o : UserSession Hash}
    (h : s'.sessions = replace UserSession.id o s.sessions) (hid : o.id = r.id)
    (howner : o.userId = r.userId) : SameRows u s s' := by
  intro x hx
  rw [h, mem_replace]
  constructor
  · rintro (⟨rfl, -⟩ | ⟨hmem, -⟩)
    · exact absurd (howner.symm.trans hx) hu
    · exact hmem
  · intro hmem
    refine Or.inr ⟨hmem, ?_⟩
    intro heq
    have hxr : x = r := hids.eq_of_key hmem hr (heq.trans hid)
    exact hu (hxr ▸ hx)

omit [DecidableEq Hash] in
/-- The sessions of somebody else are revoked. -/
theorem sameRows_of_revoked {s' : AuthState Hash} {v : String} (hv : v ≠ u)
    (h : s'.sessions = s.sessions.map (revokeRow v)) : SameRows u s s' := by
  intro x hx
  rw [h, List.mem_map]
  constructor
  · rintro ⟨r, hr, rfl⟩
    rw [revokeRow_userId] at hx
    rw [revokeRow_other (hx ▸ hv.symm)]
    exact hr
  · intro hmem
    exact ⟨x, hmem, revokeRow_other (hx ▸ hv.symm)⟩

/-- A call that is made for somebody else keeps the rows of the user. -/
theorem foreign_sameRows (hs : Sound lib s) {c : AuthCall Token} (hc : Foreign lib u s c)
    (ω : Nat → Choice) : SameRows u s (solo (exec lib) ω (c.prog lib) s).1 := by
  cases c with
  | login email passwordPlain deviceFingerprint ipAddress =>
      show SameRows u s
        (solo (exec lib) ω (login lib email passwordPlain deviceFingerprint ipAddress) s).1
      simp only [login, Prog.perform_bind, solo_await, exec]
      cases hfound : s.users.find? (fun x => x.email = email) with
      | none => exact sameRows_of_eq rfl
      | some user =>
          simp only [solo_await, exec]
          cases lib.compare passwordPlain (user.password.getD "") with
          | false => exact sameRows_of_eq rfl
          | true =>
              simp only [generateAccessToken, generateRefreshToken, Prog.perform_bind,
                solo_await, exec, record, AuthState.wait]
              cases lookup UserSession.id (ω (0 + 1 + 1 + 1 + 1)).newId s.sessions with
              | some r => exact sameRows_of_eq rfl
              | none =>
                  intro x hx
                  show x ∈ s.sessions ++ [_] ↔ x ∈ s.sessions
                  rw [List.mem_append, List.mem_singleton]
                  refine ⟨?_, Or.inl⟩
                  rintro (hmem | rfl)
                  · exact hmem
                  · exact absurd hx (hc user hfound)
  | refresh t =>
      show SameRows u s (solo (exec lib) ω (refresh lib t) s).1
      have hrun := refresh_run lib ω t s
      generalize solo (exec lib) ω (refresh lib t) s = out at hrun ⊢
      obtain ⟨s', res⟩ := out
      cases hrun with
      | rejected m s' why sessions issued => exact sameRows_of_eq sessions
      | alarm payload r m s' verified picked mismatch sessions issued =>
          exact sameRows_of_revoked (hc _ payload verified) sessions
      | rotated payload r access s' iat verified picked hash signed second sessions issued =>
          obtain ⟨hr, huser, -⟩ := mem_liveSessionsOf.mp (pick_mem picked)
          have hother : r.userId ≠ u := huser ▸ hc _ payload verified
          exact sameRows_of_replace hs.ids hr hother sessions rfl rfl
  | logout t userId =>
      obtain ⟨-, ⟨r, hr, -, huser, hrows⟩ | ⟨-, hrows⟩⟩ := logout_run lib ω t userId s
      · have hother : r.userId ≠ u := huser ▸ hc
        exact sameRows_of_replace hs.ids hr hother hrows rfl rfl
      · exact sameRows_of_eq hrows
  | revokeSession sessionId userId =>
      show SameRows u s (solo (exec lib) ω (revokeSession sessionId userId :
        AuthProg Token Hash (AuthReply Token)) s).1
      simp only [revokeSession, Prog.perform_bind, solo_await, exec]
      cases hp : pick (ω 0).pick (s.sessions.filter
          (SessionWhere.matches { id := some sessionId, userId := some userId })) with
      | none => exact sameRows_of_eq rfl
      | some r =>
          have hmem := pick_mem hp
          simp only [SessionWhere.matches, List.mem_filter, Option.all_some, Option.all_none,
            Bool.and_true, Bool.and_eq_true, decide_eq_true_eq] at hmem
          obtain ⟨hr, -, huser⟩ := hmem
          have hother : r.userId ≠ u := huser ▸ hc
          exact sameRows_of_replace (o := { r with isRevoked := true }) hs.ids hr hother
            (upsert_of_mem hr rfl) rfl rfl

/-- **The calls of other users leave the session alone.** -/
theorem SoleSession.elsewhere (h : SoleSession lib u t s) {c : AuthCall Token}
    (hc : Foreign lib u s c) (ω : Nat → Choice) :
    SoleSession lib u t (solo (exec lib) ω (c.prog lib) s).1 := by
  have heffect := call_effect lib c ω s
  have hrows := foreign_sameRows h.sound hc ω
  obtain ⟨l, hissued⟩ := heffect.issued_grows
  obtain ⟨r, hcurrent, huser, honly⟩ := h.current
  obtain ⟨i, hi, hpayload, htoken⟩ := hcurrent.issued
  refine ⟨h.sound.effect lib heffect, r, ⟨?_, hcurrent.live, hcurrent.hash, i, ?_, hpayload,
    htoken⟩, huser, ?_⟩
  · exact (hrows r huser).mpr hcurrent.mem
  · rw [hissued]
    exact List.mem_append_left l hi
  · intro r' hr' hu hlive
    exact honly r' ((hrows r' hu).mp hr') hu hlive

omit [DecidableEq Hash] in
/-- Time passes. -/
theorem SoleSession.wait (h : SoleSession lib u t s) (seconds : Nat) :
    SoleSession lib u t (s.wait seconds) := by
  obtain ⟨r, hcurrent, huser, honly⟩ := h.current
  exact ⟨⟨h.sound.ids, h.sound.owned⟩, r,
    ⟨hcurrent.mem, hcurrent.live, hcurrent.hash, hcurrent.issued⟩, huser, honly⟩

end Sole

end PlatformAuth
