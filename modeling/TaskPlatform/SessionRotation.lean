import TaskPlatform.SessionHistory

/-! # What token rotation promises

    Three promises of the session service over completed calls, read off the
    invariants of a history:

    * a token that was exchanged, or whose session was revoked, is refused for
      good, and presenting it while its user has a live session revokes them all
      (`reuse_detected`);
    * a refresh renews the session of the presented token and nothing else exactly
      when the user has no other live session (`refreshes_own_iff`): the lookup
      goes by user, not by token;
    * a logout is final where the token was signed once (`logout_final`): signing
      is a function of user, e-mail and second, so two logins in one second share
      a token. -/

namespace PlatformAuth

open AsyncProgram PlatformEntities RowTable

variable {Token Hash : Type} [DecidableEq Hash] (lib : AuthLibrary Token Hash)

/-! ## A library to run the service with -/

/-- A token that carries its fields in the clear. -/
structure PlainToken where
  secret : Secret
  expiresIn : Nat
  payload : Payload
  iat : Nat
  deriving DecidableEq, Repr

/-- Tokens in the clear, hashed by themselves; passwords compared as they are.
    A refresh token lives for a week, an access token for a quarter of an hour. -/
def plain : AuthLibrary PlainToken PlainToken where
  signAsync secret expiresIn payload iat := ⟨secret, expiresIn, payload, iat⟩
  verifyAsync secret t now :=
    if t.secret = secret ∧ now < t.iat + t.expiresIn then some t.payload else none
  exp t := t.iat + t.expiresIn
  sha256 t := t
  compare plain hash := plain = hash
  accessExpiration := 900
  refreshExpiration := 604800
  verify_sign := by intro secret d p iat now; simp
  exp_sign := by intro secret d p iat; rfl
  sign_injective := by
    intro secret d p iat p' iat' h
    injection h with _ _ hp hi
    exact ⟨hp, hi⟩

/-- A user who may log in. -/
def alice : User := ⟨"a", "alice@x", some "pw", "Alice", none, true⟩

/-- Every await takes `d` seconds, a query returns its `n`-th row, an insert
    generates `id`. -/
def pace (d n : Nat) (id : String) : Nat → Choice := fun _ => ⟨d, n, id⟩

/-- Alice logs in; her session gets the id `id`. -/
def aliceLogin (d : Nat) (id : String) : AuthCall PlainToken × (Nat → Choice) :=
  (.login "alice@x" "pw" none none, pace d 0 id)

/-- Alice's refresh token of the second `iat`. -/
def aliceToken (iat : Nat) : PlainToken := Issue.token plain ⟨⟨"a", "alice@x"⟩, iat⟩

/-! ## Reuse detection -/

/-- Somewhere in the history the token was exchanged by a successful refresh, or
    a session that carried it was revoked. -/
inductive Spent (t : Token) (s₀ : AuthState Hash)
    (hist : List (AuthCall Token × (Nat → Choice))) : Prop where
  | exchanged (h₁ h₂ : List (AuthCall Token × (Nat → Choice))) (ω : Nat → Choice)
      (reply : AuthReply Token) (split : hist = h₁ ++ (.refresh t, ω) :: h₂)
      (ok : (solo (exec lib) ω (refresh lib t) (play lib h₁ s₀)).2 = .ok reply)
  | revoked (h₁ h₂ : List (AuthCall Token × (Nat → Choice))) (r : UserSession Hash)
      (split : hist = h₁ ++ h₂) (mem : r ∈ (play lib h₁ s₀).sessions)
      (hash : r.tokenHash = hashToken lib t) (rev : r.isRevoked = true)

/-- A spent token is retired, in a history that signs its hash once. -/
theorem Spent.retired {t : Token} {s₀ : AuthState Hash}
    {hist : List (AuthCall Token × (Nat → Choice))} (h : Spent lib t s₀ hist)
    (hs : Sound lib s₀) (hone : OneRow (hashToken lib t) s₀)
    (hsig : SignedOnce lib (hashToken lib t) (play lib hist s₀)) :
    Retired lib (hashToken lib t) (play lib hist s₀) := by
  cases h with
  | exchanged h₁ h₂ ω reply split ok =>
      subst split
      rw [play_append] at hsig ⊢
      obtain ⟨l₂, hl₂⟩ := play_issued_grows lib h₂
        (solo (exec lib) ω (refresh lib t) (play lib h₁ s₀)).1
      have hsig₂ : SignedOnce lib (hashToken lib t)
          (solo (exec lib) ω (refresh lib t) (play lib h₁ s₀)).1 := hsig.before lib hl₂
      obtain ⟨l₁, hl₁⟩ :=
        (refresh_effect lib ω t (play lib h₁ s₀)).issued_grows
      have hone₁ := play_oneRow lib h₁ hs hone (hsig₂.before lib hl₁)
      have hret := retired_of_refreshed lib (play_sound lib h₁ hs) hone₁ ω ok hsig₂
      exact play_retired lib h₂ hret hsig
  | revoked h₁ h₂ r split mem hash rev =>
      subst split
      rw [play_append] at hsig ⊢
      obtain ⟨l₂, hl₂⟩ := play_issued_grows lib h₂ (play lib h₁ s₀)
      have hone₁ := play_oneRow lib h₁ hs hone (hsig.before lib hl₂)
      have hsound := play_sound lib h₁ hs
      refine play_retired lib h₂ ⟨hash ▸ hsound.hash_issued lib mem, ?_⟩ hsig
      intro x hx hxh
      rw [hone₁ x hx r mem hxh hash]
      exact rev

/-- A refused refresh by a user who has a live session is a reuse alarm: all of
    the user's sessions end up revoked, the rows of others stay. -/
theorem alarm_of_refused {t : Token} {s : AuthState Hash} {ω : Nat → Choice}
    {e : HttpError} (hfail : (solo (exec lib) ω (refresh lib t) s).2 = .error e)
    {payload : Payload}
    (hv : lib.verifyAsync .refresh t (s.now + (ω 0).elapsed) = some payload)
    (hlive : ∃ r ∈ s.sessions, r.userId = payload.userId ∧ r.isRevoked = false) :
    (∀ r ∈ (solo (exec lib) ω (refresh lib t) s).1.sessions,
        r.userId = payload.userId → r.isRevoked = true) ∧
      ∀ r : UserSession Hash, r.userId ≠ payload.userId →
        (r ∈ (solo (exec lib) ω (refresh lib t) s).1.sessions ↔ r ∈ s.sessions) := by
  have hrun := refresh_run lib ω t s
  generalize solo (exec lib) ω (refresh lib t) s = out at hrun hfail ⊢
  obtain ⟨s', res⟩ := out
  cases hrun with
  | rejected m s' why sessions issued =>
      obtain ⟨r, hr, hu, hl⟩ := hlive
      rw [why payload hv r hr hu] at hl
      exact nomatch hl
  | rotated payload' r access s' iat verified picked hash signed second sessions issued =>
      exact nomatch hfail
  | alarm payload' r m s' verified picked mismatch sessions issued =>
      have hp : payload' = payload := Option.some.inj (verified.symm.trans hv)
      subst hp
      show (∀ r ∈ s'.sessions, _) ∧ ∀ r : UserSession Hash, _ → (r ∈ s'.sessions ↔ _)
      rw [sessions]
      constructor
      · intro x hx hxu
        obtain ⟨y, hy, rfl⟩ := List.mem_map.mp hx
        rw [revokeRow_userId] at hxu
        simp [revokeRow, hxu]
      · intro x hxu
        constructor
        · intro hx
          obtain ⟨y, hy, rfl⟩ := List.mem_map.mp hx
          rw [revokeRow_userId] at hxu
          rw [revokeRow_other hxu]
          exact hy
        · intro hx
          exact List.mem_map.mpr ⟨x, hx, revokeRow_other hxu⟩

/-- **Reuse detection is complete.**  In a history whose refresh tokens have
    pairwise distinct hashes, a token that was exchanged or whose session was
    revoked never refreshes again; if it still verifies while its user has a live
    session, presenting it revokes all sessions of that user and changes no row of
    anyone else. -/
theorem reuse_detected (users : List User) (now : Nat)
    (hist : List (AuthCall Token × (Nat → Choice)))
    (hdistinct : (issuedHashes lib (play lib hist (.start users now))).Nodup)
    (t : Token) (hspent : Spent lib t (.start users now) hist) (ω : Nat → Choice) :
    let s := play lib hist (.start users now)
    let out := solo (exec lib) ω (refresh lib t) s
    (∃ e, out.2 = .error e) ∧ out.1.issued = s.issued ∧
      ∀ payload, lib.verifyAsync .refresh t (s.now + (ω 0).elapsed) = some payload →
        (∃ r ∈ s.sessions, r.userId = payload.userId ∧ r.isRevoked = false) →
        (∀ r ∈ out.1.sessions, r.userId = payload.userId → r.isRevoked = true) ∧
          ∀ r : UserSession Hash, r.userId ≠ payload.userId →
            (r ∈ out.1.sessions ↔ r ∈ s.sessions) := by
  intro s out
  have hsig : SignedOnce lib (hashToken lib t) s :=
    List.nodup_iff_count_le_one.mp hdistinct (hashToken lib t)
  have hone₀ : OneRow (hashToken lib t) (AuthState.start users now) :=
    fun r hr => nomatch hr
  have hret : Retired lib (hashToken lib t) s :=
    hspent.retired lib (Sound.start lib users now) hone₀ hsig
  obtain ⟨e, hfail, hissued⟩ := hret.refresh_refused lib ω
  refine ⟨⟨e, hfail⟩, hissued, ?_⟩
  intro payload hv hlive
  exact alarm_of_refused lib hfail hv hlive

/-- Alice logs in, refreshes, and her first token turns up again. -/
theorem reuse_detected_alice :
    let hist := [aliceLogin 0 "1", (.refresh (aliceToken 0), pace 1 0 "")]
    (issuedHashes plain (play plain hist (.start [alice] 0))).Nodup ∧
      ∃ e, (solo (exec plain) (pace 1 0 "") (refresh plain (aliceToken 0))
        (play plain hist (.start [alice] 0))).2 = .error e := by
  intro hist
  have hd : (issuedHashes plain (play plain hist (.start [alice] 0))).Nodup := by decide
  exact ⟨hd, (reuse_detected plain [alice] 0 hist hd (aliceToken 0)
    (.exchanged [aliceLogin 0 "1"] [] (pace 1 0 "") _ rfl rfl) (pace 1 0 "")).1⟩

/-! ## A refresh and the other sessions of its user -/

/-- `t` is the current refresh token of the live session `r`. -/
structure IsCurrent (s : AuthState Hash) (t : Token) (r : UserSession Hash) : Prop where
  mem : r ∈ s.sessions
  live : r.isRevoked = false
  hash : r.tokenHash = hashToken lib t
  issued : ∃ i ∈ s.issued, i.payload.userId = r.userId ∧ t = i.token lib

/-- The call came back with a new pair for the user of `r`, wrote hash and expiry
    of the new refresh token into `r`, and left every other row alone. -/
def RefreshesOwn (s : AuthState Hash) (r : UserSession Hash)
    (out : AuthState Hash × Except HttpError (AuthReply Token)) : Prop :=
  ∃ access payload at₁ at₂,
    access = lib.signAsync .access lib.accessExpiration payload at₁ ∧
    payload.userId = r.userId ∧
    out.1.issued = s.issued ++ [⟨payload, at₂⟩] ∧
    out.2 = .ok (.refreshed access (Issue.token lib ⟨payload, at₂⟩)) ∧
    out.1.sessions = replace UserSession.id
      { r with tokenHash := hashToken lib (Issue.token lib ⟨payload, at₂⟩)
               expiresAt := lib.exp (Issue.token lib ⟨payload, at₂⟩) } s.sessions

omit [DecidableEq Hash] in
/-- A current token that verifies names the user of its session. -/
theorem IsCurrent.payload_user {s : AuthState Hash} {t : Token} {r : UserSession Hash}
    (h : IsCurrent lib s t r) {now : Nat} {payload : Payload}
    (hv : lib.verifyAsync .refresh t now = some payload) :
    payload.userId = r.userId := by
  obtain ⟨i, -, hu, rfl⟩ := h.issued
  rw [Issue.token, lib.verify_sign] at hv
  by_cases hexp : now < i.iat + lib.refreshExpiration
  · rw [if_pos hexp] at hv
    rw [← Option.some.inj hv]
    exact hu
  · rw [if_neg hexp] at hv
    exact nomatch hv

/-- Where the session of the token is the only live one of its user, the refresh
    is exact. -/
theorem refreshesOwn_of_only {s : AuthState Hash} {t : Token} {r : UserSession Hash}
    (h : IsCurrent lib s t r)
    (honly : ∀ r' ∈ s.sessions, r'.userId = r.userId → r'.isRevoked = false → r' = r)
    (ω : Nat → Choice)
    (hv : (lib.verifyAsync .refresh t (s.now + (ω 0).elapsed)).isSome) :
    RefreshesOwn lib s r (solo (exec lib) ω (refresh lib t) s) := by
  have hrun := refresh_run lib ω t s
  generalize solo (exec lib) ω (refresh lib t) s = out at hrun ⊢
  obtain ⟨s', res⟩ := out
  cases hrun with
  | rejected m s' why sessions issued =>
      obtain ⟨payload, hp⟩ := Option.isSome_iff_exists.mp hv
      have hrev := why payload hp r h.mem (h.payload_user lib hp).symm
      rw [h.live] at hrev
      exact nomatch hrev
  | alarm payload r' m s' verified picked mismatch sessions issued =>
      obtain ⟨hmem, huser, hlive⟩ := mem_liveSessionsOf.mp (pick_mem picked)
      have heq := honly r' hmem (huser.trans (h.payload_user lib verified)) hlive
      exact absurd (heq ▸ h.hash) mismatch
  | rotated payload r' access s' iat verified picked hash signed second sessions issued =>
      obtain ⟨hmem, huser, hlive⟩ := mem_liveSessionsOf.mp (pick_mem picked)
      have heq := honly r' hmem (huser.trans (h.payload_user lib verified)) hlive
      subst heq
      obtain ⟨at₁, hat⟩ := signed
      exact ⟨access, payload, at₁, iat, hat, huser.symm, issued, rfl, sessions⟩

/-- A second live session of the user spoils some refresh: the query may return
    that one. -/
theorem not_refreshesOwn_of_other {s : AuthState Hash} (hs : Sound lib s) {t : Token}
    {r r' : UserSession Hash} (h : IsCurrent lib s t r) (hr' : r' ∈ s.sessions)
    (huser : r'.userId = r.userId) (hlive : r'.isRevoked = false) (hne : r' ≠ r)
    (hv : (lib.verifyAsync .refresh t s.now).isSome) :
    ∃ ω : Nat → Choice,
      (lib.verifyAsync .refresh t (s.now + (ω 0).elapsed)).isSome ∧
        ¬ RefreshesOwn lib s r (solo (exec lib) ω (refresh lib t) s) := by
  obtain ⟨payload, hp⟩ := Option.isSome_iff_exists.mp hv
  have hpu := h.payload_user lib hp
  obtain ⟨n, hn⟩ := exists_pick (mem_liveSessionsOf.mpr
    ⟨hr', huser.trans hpu.symm, hlive⟩)
  -- a second in which the new token expires at another time than `r` does
  obtain ⟨b, hb⟩ : ∃ b, r.expiresAt ≠ s.now + b + lib.refreshExpiration := by
    by_cases h0 : r.expiresAt = s.now + lib.refreshExpiration
    · exact ⟨1, by omega⟩
    · exact ⟨0, by omega⟩
  let ω : Nat → Choice := fun k => ⟨if k = 3 then b else 0, n, ""⟩
  refine ⟨ω, hv, ?_⟩
  rintro ⟨access, payload₂, at₁, at₂, -, -, hissued, hreply, hsessions⟩
  have hrun := refresh_run lib ω t s
  generalize solo (exec lib) ω (refresh lib t) s = out at hrun hissued hreply hsessions
  obtain ⟨s', res⟩ := out
  cases hrun with
  | rejected m s' why sessions issued => exact nomatch hreply
  | alarm payload' x m s' verified picked mismatch sessions issued => exact nomatch hreply
  | rotated payload' x access' s' iat verified picked hash signed second sessions issued =>
      have hp' : payload' = payload := Option.some.inj (verified.symm.trans hp)
      subst hp'
      have hx : x = r' := Option.some.inj (picked.symm.trans hn)
      subst hx
      -- the row of `r` is untouched, yet it should carry the new expiry
      have hid : r.id ≠ x.id := fun heq => hne (hs.ids.eq_of_key hr' h.mem heq.symm)
      have hrmem : r ∈ s'.sessions := by
        rw [sessions]
        exact mem_replace.mpr (Or.inr ⟨h.mem, hid⟩)
      have hrow : r.expiresAt = lib.exp (Issue.token lib ⟨payload₂, at₂⟩) := by
        have hm : r ∈ replace UserSession.id _ s.sessions := hsessions ▸ hrmem
        rcases mem_replace.mp hm with ⟨heq, -⟩ | ⟨-, hk⟩
        · exact congrArg UserSession.expiresAt heq
        · exact absurd rfl hk
      have hat : at₂ = s.now + b := by
        have hlast : s.issued ++ [(⟨payload₂, at₂⟩ : Issue)]
            = s.issued ++ [⟨payload', iat⟩] := hissued.symm.trans issued
        have hi : (⟨payload₂, at₂⟩ : Issue) = ⟨payload', iat⟩ :=
          List.head_eq_of_cons_eq (List.append_cancel_left hlast)
        have hsec : iat = s.now + 0 + 0 + 0 + b := second
        injection hi with _ hat
        omega
      rw [Issue.token, lib.exp_sign, hat] at hrow
      exact hb hrow

/-- **When a refresh is exact.**  In every table that completed calls can reach,
    the current and valid token of a live session refreshes that session and
    nothing else, whichever row the query returns, exactly when no other session of
    the user is live. -/
theorem refreshes_own_iff (users : List User) (now : Nat)
    (hist : List (AuthCall Token × (Nat → Choice))) (t : Token)
    (r : UserSession Hash)
    (hcur : IsCurrent lib (play lib hist (.start users now)) t r)
    (hv : (lib.verifyAsync .refresh t (play lib hist (.start users now)).now).isSome) :
    let s := play lib hist (.start users now)
    (∀ ω : Nat → Choice,
        (lib.verifyAsync .refresh t (s.now + (ω 0).elapsed)).isSome →
        RefreshesOwn lib s r (solo (exec lib) ω (refresh lib t) s)) ↔
      ∀ r' ∈ s.sessions, r'.userId = r.userId → r'.isRevoked = false → r' = r := by
  intro s
  have hs : Sound lib s := play_sound lib hist (Sound.start lib users now)
  constructor
  · intro hall r' hr' huser hlive
    by_contra hne
    obtain ⟨ω, hω, hnot⟩ :=
      not_refreshesOwn_of_other lib hs hcur hr' huser hlive hne hv
    exact hnot (hall ω hω)
  · intro honly ω hω
    exact refreshesOwn_of_only lib hcur honly ω hω

/-- Alice's session after one login. -/
def aliceSession (id : String) (iat : Nat) : UserSession PlainToken :=
  ⟨id, "a", aliceToken iat, none, none, iat + 604800, false⟩

/-- Alice logs in and out, Bob logs in, Alice logs in again at second 6. -/
def backAgain : List (AuthCall PlainToken × (Nat → Choice)) :=
  [aliceLogin 0 "1", (.logout (aliceToken 0) "a", pace 0 0 ""),
    (.login "bob@x" "pw" none none, pace 1 0 "2"), aliceLogin 0 "3"]

/-- Beside a revoked session of her own and a live one of Bob's, the refresh of her session is
    exact. -/
theorem refreshes_own_iff_alice :
    let s := play plain backAgain
      (.start [alice, ⟨"b", "bob@x", some "pw", "Bob", none, true⟩] 0)
    IsCurrent plain s (aliceToken 6) (aliceSession "3" 6) ∧
      ∀ ω : Nat → Choice,
        (plain.verifyAsync .refresh (aliceToken 6) (s.now + (ω 0).elapsed)).isSome →
        RefreshesOwn plain s (aliceSession "3" 6)
          (solo (exec plain) ω (refresh plain (aliceToken 6)) s) := by
  intro s
  have hcur : IsCurrent plain s (aliceToken 6) (aliceSession "3" 6) :=
    ⟨by decide, rfl, rfl, ⟨⟨"a", "alice@x"⟩, 6⟩, by decide, rfl, rfl⟩
  exact ⟨hcur, (refreshes_own_iff plain _ 0 backAgain (aliceToken 6)
    (aliceSession "3" 6) hcur (by decide)).mpr (by decide)⟩

/-- Two logins, from two devices: the first device refreshes with its current and
    valid token, the query returns the session of the second, and the alarm goes
    off. -/
theorem refresh_alarms_on_valid_token :
    let s := play plain [aliceLogin 0 "1", aliceLogin 1 "2"] (.start [alice] 0)
    IsCurrent plain s (aliceToken 0) (aliceSession "1" 0) ∧
      (plain.verifyAsync .refresh (aliceToken 0) (s.now + 0)).isSome ∧
      ¬ RefreshesOwn plain s (aliceSession "1" 0)
        (solo (exec plain) (pace 0 1 "") (refresh plain (aliceToken 0)) s) := by
  intro s
  refine ⟨⟨by decide, rfl, rfl, ⟨⟨"a", "alice@x"⟩, 0⟩, by decide, rfl, rfl⟩,
    by decide, ?_⟩
  rintro ⟨access, payload, at₁, at₂, -, -, -, hreply, -⟩
  exact nomatch hreply

/-! ## Logout -/

/-- The refresh token of the issue `i` was signed once: no second one for the same
    user and e-mail in the same second, and no other one with its hash. -/
structure SignedAlone (i : Issue) (s : AuthState Hash) : Prop where
  once : s.issued.count i ≤ 1
  noCollision : ∀ j ∈ s.issued,
    hashToken lib (j.token lib) = hashToken lib (i.token lib) → j = i

theorem SignedAlone.signedOnce {i : Issue} {s : AuthState Hash}
    (h : SignedAlone lib i s) : SignedOnce lib (hashToken lib (i.token lib)) s := by
  have hcount : (issuedHashes lib s).count (hashToken lib (i.token lib))
      = s.issued.count i := by
    rw [issuedHashes, List.count, List.countP_map, List.count]
    refine List.countP_congr ?_
    intro j hj
    constructor
    · intro hjh
      have := h.noCollision j hj (by simpa using hjh)
      simp [this]
    · intro hji
      have : j = i := by simpa using hji
      simp [this]
  rw [SignedOnce, hcount]
  exact h.once

/-- A logout retires the token, whether or not it finds its session. -/
theorem retired_of_logout {i : Issue} {s : AuthState Hash} (hs : Sound lib s)
    (hone : OneRow (hashToken lib (i.token lib)) s) (hi : i ∈ s.issued)
    (halone : ∀ j ∈ s.issued,
      hashToken lib (j.token lib) = hashToken lib (i.token lib) → j = i)
    (ω : Nat → Choice) :
    Retired lib (hashToken lib (i.token lib))
      (solo (exec lib) ω (logout lib (i.token lib) i.payload.userId) s).1 := by
  obtain ⟨hissued, hcase⟩ := logout_run lib ω (i.token lib) i.payload.userId s
  refine ⟨?_, ?_⟩
  · show _ ∈ (solo (exec lib) ω _ s).1.issued.map _
    rw [hissued]
    exact List.mem_map_of_mem hi
  · intro x hx hxh
    rcases hcase with ⟨r, hr, hrh, -, hsessions⟩ | ⟨hnone, hsessions⟩
    · rw [hsessions, mem_replace] at hx
      rcases hx with ⟨rfl, -⟩ | ⟨hx, hxk⟩
      · rfl
      · exact absurd (congrArg UserSession.id (hone x hx r hr hxh hrh)) hxk
    · -- no row of the user carries the hash, and nobody else's can
      rw [hsessions] at hx
      obtain ⟨j, hj, hju, hjh⟩ := hs.owned x hx
      have hji : j = i := halone j hj (hjh.symm.trans hxh)
      exact absurd (hju.trans (congrArg (fun k => k.payload.userId) hji))
        (hnone x hx hxh)

/-- **Logout is final** where the token was signed once.  In every history in which
    no second refresh token is signed for the user and e-mail of `t` in the second of
    `t` (and none shares its hash), `refresh t` fails at any time after
    `logout t`. -/
theorem logout_final (users : List User) (now : Nat)
    (h₁ h₂ : List (AuthCall Token × (Nat → Choice))) (ω₁ ω : Nat → Choice) (i : Issue)
    (hissued : i ∈ (play lib h₁ (.start users now)).issued)
    (halone : SignedAlone lib i (play lib
      (h₁ ++ (.logout (i.token lib) i.payload.userId, ω₁) :: h₂) (.start users now))) :
    ∃ e, (solo (exec lib) ω (refresh lib (i.token lib)) (play lib
      (h₁ ++ (.logout (i.token lib) i.payload.userId, ω₁) :: h₂)
      (.start users now))).2 = .error e := by
  have hsig := halone.signedOnce
  rw [play_append, play_cons] at *
  let s₁ : AuthState Hash := play lib h₁ (.start users now)
  obtain ⟨l₁, hl₁⟩ := (logout_effect lib ω₁ (i.token lib) i.payload.userId
    s₁).issued_grows
  obtain ⟨l₂, hl₂⟩ := play_issued_grows lib h₂
    (solo (exec lib) ω₁ (logout lib (i.token lib) i.payload.userId) s₁).1
  have hsig₁ : SignedOnce lib (hashToken lib (i.token lib)) s₁ :=
    (hsig.before lib hl₂).before lib hl₁
  have hone₀ : OneRow (hashToken lib (i.token lib)) (AuthState.start users now) :=
    fun r hr => nomatch hr
  have hone := play_oneRow lib h₁ (Sound.start lib users now) hone₀ hsig₁
  have hsound := play_sound lib h₁ (Sound.start lib users now)
  have halone₁ : ∀ j ∈ s₁.issued,
      hashToken lib (j.token lib) = hashToken lib (i.token lib) → j = i := by
    intro j hj
    refine halone.noCollision j ?_
    show j ∈ (play lib h₂ (solo (exec lib) ω₁ (logout lib _ _) s₁).1).issued
    rw [hl₂, hl₁]
    exact List.mem_append_left _ (List.mem_append_left _ hj)
  have hret := retired_of_logout lib hsound hone hissued halone₁ ω₁
  obtain ⟨e, hfail, -⟩ := (play_retired lib h₂ hret hsig).refresh_refused lib ω
  exact ⟨e, hfail⟩

/-- Alice logs in and out; her token is dead. -/
theorem logout_final_alice :
    ∃ e, (solo (exec plain) (pace 1 0 "") (refresh plain (aliceToken 0)) (play plain
      ([aliceLogin 0 "1"] ++ [(.logout (aliceToken 0) "a", pace 1 0 "")])
      (.start [alice] 0))).2 = .error e :=
  logout_final plain [alice] 0 [aliceLogin 0 "1"] [] (pace 1 0 "") (pace 1 0 "")
    ⟨⟨"a", "alice@x"⟩, 0⟩ (by decide) ⟨by decide, by decide⟩

/-- Two logins in one second share a token.  The logout of that token returns and
    revokes one of the two sessions, and the token still refreshes the other. -/
theorem refresh_after_logout :
    let s := play plain [aliceLogin 0 "1", aliceLogin 0 "2"] (.start [alice] 0)
    let loggedOut :=
      solo (exec plain) (pace 0 0 "") (logout plain (aliceToken 0) "a") s
    ⟨⟨"a", "alice@x"⟩, 0⟩ ∈ s.issued ∧
      loggedOut.2 = .ok (.success "Logged out successfully") ∧
      ∃ access fresh,
        (solo (exec plain) (pace 1 0 "") (refresh plain (aliceToken 0)) loggedOut.1).2
          = .ok (.refreshed access fresh) := by
  intro s loggedOut
  exact ⟨by decide, rfl, _, _, rfl⟩

end PlatformAuth
