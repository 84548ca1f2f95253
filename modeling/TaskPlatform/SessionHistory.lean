import TaskPlatform.AuthService
import Mathlib.Data.List.Count

/-! # Sessions over sequences of completed calls

    What is true of the session table when calls do not overlap: any sequence of
    `login`, `refresh`, `logout` and `revokeSession`, each run to its end, from an
    empty table, whichever rows the queries return and however the clock moves.

    The route:

    * one lemma per call says all that it can do (`refresh_run`, `login_run`,
      `revoke_run`), and `call_effect` sums them up in six shapes;
    * `Sound` holds of every reachable table: ids are unique, and every row carries
      the hash of a token that was issued to its user;
    * `OneRow` and `Retired` follow one hash through a history that signs it at most
      once: at most one row ever carries it, and once no live row carries it none
      ever will again. -/

namespace PlatformAuth

open AsyncProgram PlatformEntities RowTable

variable {Token Hash : Type} [DecidableEq Hash] (lib : AuthLibrary Token Hash)

/-! ## What one completed call does -/

/-- The `where` of the lookup in `refresh`. -/
abbrev liveSessionsOf (userId : String) : SessionWhere Hash :=
  { userId := some userId, isRevoked := some false }

theorem mem_liveSessionsOf {u : String} {r : UserSession Hash}
    {l : List (UserSession Hash)} :
    r ∈ l.filter (liveSessionsOf u).matches ↔
      r ∈ l ∧ r.userId = u ∧ r.isRevoked = false := by
  simp [SessionWhere.matches, List.mem_filter]

/-- The three ways a completed `refresh` can end. -/
inductive RefreshRun (t : Token) (ω : Nat → Choice) (s : AuthState Hash) :
    AuthState Hash → Except HttpError (AuthReply Token) → Prop where
  /-- The token does not verify, or its user has no live session. -/
  | rejected (m : String) (s' : AuthState Hash)
      (why : ∀ payload,
        lib.verifyAsync .refresh t (s.now + (ω 0).elapsed) = some payload →
        ∀ r ∈ s.sessions, r.userId = payload.userId → r.isRevoked = true)
      (sessions : s'.sessions = s.sessions) (issued : s'.issued = s.issued) :
      RefreshRun t ω s s' (.error (.unauthorized m))
  /-- The live session that was found carries another hash. -/
  | alarm (payload : Payload) (r : UserSession Hash) (m : String)
      (s' : AuthState Hash)
      (verified : lib.verifyAsync .refresh t (s.now + (ω 0).elapsed) = some payload)
      (picked : pick (ω 1).pick
        (s.sessions.filter (liveSessionsOf payload.userId).matches) = some r)
      (mismatch : r.tokenHash ≠ hashToken lib t)
      (sessions : s'.sessions = s.sessions.map (revokeRow payload.userId))
      (issued : s'.issued = s.issued) :
      RefreshRun t ω s s' (.error (.forbidden m))
  /-- The session that was found gets the hash and expiry of a new token. -/
  | rotated (payload : Payload) (r : UserSession Hash) (access : Token)
      (s' : AuthState Hash) (iat : Nat)
      (verified : lib.verifyAsync .refresh t (s.now + (ω 0).elapsed) = some payload)
      (picked : pick (ω 1).pick
        (s.sessions.filter (liveSessionsOf payload.userId).matches) = some r)
      (hash : r.tokenHash = hashToken lib t)
      (signed : ∃ now, access = lib.signAsync .access lib.accessExpiration payload now)
      (second : iat = s.now + (ω 0).elapsed + (ω 1).elapsed + (ω 2).elapsed
        + (ω 3).elapsed)
      (sessions : s'.sessions = replace UserSession.id
          { r with tokenHash := hashToken lib (Issue.token lib ⟨payload, iat⟩)
                   expiresAt := lib.exp (Issue.token lib ⟨payload, iat⟩) } s.sessions)
      (issued : s'.issued = s.issued ++ [⟨payload, iat⟩]) :
      RefreshRun t ω s s' (.ok (.refreshed access (Issue.token lib ⟨payload, iat⟩)))

theorem refresh_run (ω : Nat → Choice) (t : Token) (s : AuthState Hash) :
    RefreshRun lib t ω s (solo (exec lib) ω (refresh lib t) s).1
      (solo (exec lib) ω (refresh lib t) s).2 := by
  simp only [refresh, Prog.perform_bind, solo_await, exec]
  cases hv : lib.verifyAsync .refresh t (s.now + (ω 0).elapsed) with
  | none =>
      refine .rejected _ _ ?_ rfl rfl
      intro payload h
      rw [hv] at h
      exact nomatch h
  | some payload =>
      simp only [solo_await, exec]
      cases hp : pick (ω 1).pick
          (s.sessions.filter (liveSessionsOf payload.userId).matches) with
      | none =>
          simp only [AuthState.wait, hp]
          refine .rejected _ _ ?_ rfl rfl
          intro payload' h r hr hu
          rw [hv] at h
          cases h
          cases hrev : r.isRevoked with
          | true => rfl
          | false =>
              have hmem := mem_liveSessionsOf.mpr ⟨hr, hu, hrev⟩
              rw [pick_eq_none.mp hp] at hmem
              exact absurd hmem List.not_mem_nil
      | some r =>
          have hr := (mem_liveSessionsOf.mp (pick_mem hp)).1
          by_cases hh : r.tokenHash = hashToken lib t
          · simp only [AuthState.wait, hp, hh, ne_eq, not_true_eq_false, if_false,
              generateAccessToken, generateRefreshToken, Prog.perform_bind,
              solo_await, solo_done, exec, record]
            exact .rotated payload r _ _ _ hv hp hh ⟨_, rfl⟩ rfl (upsert_of_mem hr rfl) rfl
          · simp only [AuthState.wait, hp, hh, ne_eq, not_false_eq_true, if_true,
              solo_await, solo_fail, exec]
            exact .alarm payload r _ _ hv hp hh rfl rfl

/-- All that a completed call can do to the sessions and to the history of
    issued tokens. -/
inductive Effect (s s' : AuthState Hash) : Prop where
  | idle (sessions : s'.sessions = s.sessions) (issued : s'.issued = s.issued)
  /-- A token was signed but its session could not be inserted. -/
  | signed (i : Issue) (sessions : s'.sessions = s.sessions)
      (issued : s'.issued = s.issued ++ [i])
  | opened (i : Issue) (r : UserSession Hash)
      (fresh : lookup UserSession.id r.id s.sessions = none)
      (user : r.userId = i.payload.userId)
      (hash : r.tokenHash = hashToken lib (i.token lib))
      (sessions : s'.sessions = s.sessions ++ [r])
      (issued : s'.issued = s.issued ++ [i])
  | rotated (i : Issue) (r r' : UserSession Hash) (mem : r ∈ s.sessions)
      (live : r.isRevoked = false) (user : r.userId = i.payload.userId)
      (id : r'.id = r.id) (owner : r'.userId = r.userId)
      (hash : r'.tokenHash = hashToken lib (i.token lib))
      (sessions : s'.sessions = replace UserSession.id r' s.sessions)
      (issued : s'.issued = s.issued ++ [i])
  | revoked (r : UserSession Hash) (mem : r ∈ s.sessions)
      (sessions : s'.sessions
        = replace UserSession.id { r with isRevoked := true } s.sessions)
      (issued : s'.issued = s.issued)
  | revokedAll (userId : String)
      (sessions : s'.sessions = s.sessions.map (revokeRow userId))
      (issued : s'.issued = s.issued)

theorem refresh_effect (ω : Nat → Choice) (t : Token) (s : AuthState Hash) :
    Effect lib s (solo (exec lib) ω (refresh lib t) s).1 := by
  have hrun := refresh_run lib ω t s
  generalize solo (exec lib) ω (refresh lib t) s = out at hrun ⊢
  obtain ⟨s', res⟩ := out
  cases hrun with
  | rejected m s' why sessions issued => exact .idle sessions issued
  | alarm payload r m s' verified picked mismatch sessions issued =>
      exact .revokedAll payload.userId sessions issued
  | rotated payload r access s' iat verified picked hash signed second sessions issued =>
      obtain ⟨hmem, huser, hlive⟩ := mem_liveSessionsOf.mp (pick_mem picked)
      refine Effect.rotated ⟨payload, iat⟩ r
        { r with tokenHash := hashToken lib (Issue.token lib ⟨payload, iat⟩)
                 expiresAt := lib.exp (Issue.token lib ⟨payload, iat⟩) }
        hmem hlive huser ?_ ?_ ?_ sessions issued <;> rfl

theorem login_effect (ω : Nat → Choice) (email passwordPlain : String)
    (deviceFingerprint ipAddress : Option String) (s : AuthState Hash) :
    Effect lib s (solo (exec lib) ω
      (login lib email passwordPlain deviceFingerprint ipAddress) s).1 := by
  simp only [login, Prog.perform_bind, solo_await, exec]
  cases s.users.find? (fun u => u.email = email) with
  | none => exact .idle rfl rfl
  | some user =>
      simp only [solo_await, exec]
      cases lib.compare passwordPlain (user.password.getD "") with
      | false => exact .idle rfl rfl
      | true =>
          simp only [generateAccessToken, generateRefreshToken, Prog.perform_bind,
            solo_await, exec, record, AuthState.wait]
          cases hid : lookup UserSession.id (ω (0 + 1 + 1 + 1 + 1)).newId
              s.sessions with
          | some r => exact .signed _ rfl rfl
          | none => exact .opened _ _ hid rfl rfl rfl rfl

/-- `logout` and `revokeSession` revoke at most the session that they find. -/
theorem logout_run (ω : Nat → Choice) (t : Token) (userId : String)
    (s : AuthState Hash) :
    let s' := (solo (exec lib) ω (logout lib t userId) s).1
    s'.issued = s.issued ∧
      ((∃ r ∈ s.sessions, r.tokenHash = hashToken lib t ∧ r.userId = userId ∧
          s'.sessions
            = replace UserSession.id { r with isRevoked := true } s.sessions) ∨
        ((∀ r ∈ s.sessions, r.tokenHash = hashToken lib t → r.userId ≠ userId) ∧
          s'.sessions = s.sessions)) := by
  intro s'
  have hw : ∀ r : UserSession Hash, r ∈ s.sessions.filter
        (SessionWhere.matches
          { tokenHash := some (hashToken lib t), userId := some userId }) ↔
      r ∈ s.sessions ∧ r.userId = userId ∧ r.tokenHash = hashToken lib t := by
    intro r
    simp [SessionWhere.matches, List.mem_filter]
  simp only [s', logout, Prog.perform_bind, solo_await, exec]
  cases hp : pick (ω 0).pick (s.sessions.filter (SessionWhere.matches
      { tokenHash := some (hashToken lib t), userId := some userId })) with
  | none =>
      refine ⟨rfl, Or.inr ⟨?_, rfl⟩⟩
      intro r hr hh hu
      have hmem := (hw r).mpr ⟨hr, hu, hh⟩
      rw [pick_eq_none.mp hp] at hmem
      exact absurd hmem List.not_mem_nil
  | some r =>
      obtain ⟨hr, hu, hh⟩ := (hw r).mp (pick_mem hp)
      exact ⟨rfl, Or.inl ⟨r, hr, hh, hu, upsert_of_mem hr rfl⟩⟩

theorem logout_effect (ω : Nat → Choice) (t : Token) (userId : String)
    (s : AuthState Hash) :
    Effect lib s (solo (exec lib) ω (logout lib t userId) s).1 := by
  obtain ⟨hi, ⟨r, hr, -, -, hs⟩ | ⟨-, hs⟩⟩ := logout_run lib ω t userId s
  · exact .revoked r hr hs hi
  · exact .idle hs hi

theorem revokeSession_effect (ω : Nat → Choice) (sessionId userId : String)
    (s : AuthState Hash) :
    Effect lib s (solo (exec lib) ω (revokeSession sessionId userId :
      AuthProg Token Hash (AuthReply Token)) s).1 := by
  simp only [revokeSession, Prog.perform_bind, solo_await, exec]
  cases hp : pick (ω 0).pick (s.sessions.filter
      (SessionWhere.matches { id := some sessionId, userId := some userId })) with
  | none => exact .idle rfl rfl
  | some r =>
      have hr : r ∈ s.sessions := (List.mem_filter.mp (pick_mem hp)).1
      exact .revoked r hr (upsert_of_mem hr rfl) rfl

/-- Every completed call has one of the six effects. -/
theorem call_effect (c : AuthCall Token) (ω : Nat → Choice) (s : AuthState Hash) :
    Effect lib s (solo (exec lib) ω (c.prog lib) s).1 := by
  cases c with
  | login e p d i => exact login_effect lib ω e p d i s
  | refresh t => exact refresh_effect lib ω t s
  | logout t u => exact logout_effect lib ω t u s
  | revokeSession i u => exact revokeSession_effect lib ω i u s

/-! ## Histories -/

/-- The hashes of the refresh tokens issued so far. -/
def issuedHashes (s : AuthState Hash) : List Hash :=
  s.issued.map (fun i => hashToken lib (i.token lib))

/-- No session yet, and no token. -/
def AuthState.start (users : List User) (now : Nat) : AuthState Hash :=
  ⟨users, [], now, []⟩

/-- Completed calls, one after the other. -/
def play (hist : List (AuthCall Token × (Nat → Choice))) (s : AuthState Hash) :
    AuthState Hash :=
  soloAll (exec lib) (hist.map (fun c => (c.1.prog lib, c.2))) s

@[simp] theorem play_nil (s : AuthState Hash) : play lib [] s = s := rfl

@[simp] theorem play_cons (c : AuthCall Token) (ω : Nat → Choice)
    (hist : List (AuthCall Token × (Nat → Choice))) (s : AuthState Hash) :
    play lib ((c, ω) :: hist) s
      = play lib hist (solo (exec lib) ω (c.prog lib) s).1 := rfl

theorem play_append (h₁ h₂ : List (AuthCall Token × (Nat → Choice)))
    (s : AuthState Hash) :
    play lib (h₁ ++ h₂) s = play lib h₂ (play lib h₁ s) := by
  show soloAll (exec lib) ((h₁ ++ h₂).map _) s = _
  rw [List.map_append, soloAll_append]
  rfl

omit [DecidableEq Hash] in
theorem issued_refl (s : AuthState Hash) : ∃ l, s.issued = s.issued ++ l :=
  ⟨[], (List.append_nil _).symm⟩

omit [DecidableEq Hash] in
theorem issued_trans {a b d : AuthState Hash} (h : ∃ l, b.issued = a.issued ++ l)
    (h' : ∃ l, d.issued = b.issued ++ l) : ∃ l, d.issued = a.issued ++ l := by
  obtain ⟨l₁, h₁⟩ := h
  obtain ⟨l₂, h₂⟩ := h'
  exact ⟨l₁ ++ l₂, by rw [h₂, h₁, List.append_assoc]⟩

omit [DecidableEq Hash] in
theorem Effect.issued_grows {s s' : AuthState Hash} (h : Effect lib s s') :
    ∃ l, s'.issued = s.issued ++ l := by
  cases h with
  | idle _ hi => exact ⟨[], by rw [hi, List.append_nil]⟩
  | signed i _ hi => exact ⟨[i], hi⟩
  | opened i _ _ _ _ _ hi => exact ⟨[i], hi⟩
  | rotated i _ _ _ _ _ _ _ _ _ hi => exact ⟨[i], hi⟩
  | revoked _ _ _ hi => exact ⟨[], by rw [hi, List.append_nil]⟩
  | revokedAll _ _ hi => exact ⟨[], by rw [hi, List.append_nil]⟩

/-- Issued tokens stay issued. -/
theorem play_issued_grows (hist : List (AuthCall Token × (Nat → Choice)))
    (s : AuthState Hash) : ∃ l, (play lib hist s).issued = s.issued ++ l := by
  induction hist generalizing s with
  | nil => exact issued_refl s
  | cons hd rest ih =>
      obtain ⟨c, ω⟩ := hd
      have hcall := (call_effect lib c ω s).issued_grows
      exact issued_trans hcall (ih (solo (exec lib) ω (c.prog lib) s).1)

/-! ## What holds of every reachable table -/

/-- Session ids are unique, and every row carries the hash of a refresh token
    that was issued to the row's user. -/
structure Sound (s : AuthState Hash) : Prop where
  ids : Unique UserSession.id s.sessions
  owned : ∀ r ∈ s.sessions, ∃ i ∈ s.issued,
    r.userId = i.payload.userId ∧ r.tokenHash = hashToken lib (i.token lib)

omit [DecidableEq Hash] in
theorem Sound.start (users : List User) (now : Nat) :
    Sound lib (AuthState.start users now) :=
  ⟨List.nodup_nil, fun _ h => nomatch h⟩

omit [DecidableEq Hash] in
/-- A row of a sound table carries an issued hash. -/
theorem Sound.hash_issued {s : AuthState Hash} (h : Sound lib s)
    {r : UserSession Hash} (hr : r ∈ s.sessions) :
    r.tokenHash ∈ issuedHashes lib s := by
  obtain ⟨i, hi, -, hhash⟩ := h.owned r hr
  exact List.mem_map.mpr ⟨i, hi, hhash.symm⟩

omit [DecidableEq Hash] in
@[simp] theorem revokeRow_id (u : String) (r : UserSession Hash) :
    (revokeRow u r).id = r.id := by
  by_cases h : r.userId = u <;> simp [revokeRow, h]

omit [DecidableEq Hash] in
@[simp] theorem revokeRow_userId (u : String) (r : UserSession Hash) :
    (revokeRow u r).userId = r.userId := by
  by_cases h : r.userId = u <;> simp [revokeRow, h]

omit [DecidableEq Hash] in
@[simp] theorem revokeRow_tokenHash (u : String) (r : UserSession Hash) :
    (revokeRow u r).tokenHash = r.tokenHash := by
  by_cases h : r.userId = u <;> simp [revokeRow, h]

omit [DecidableEq Hash] in
@[simp] theorem revokeRow_expiresAt (u : String) (r : UserSession Hash) :
    (revokeRow u r).expiresAt = r.expiresAt := by
  by_cases h : r.userId = u <;> simp [revokeRow, h]

omit [DecidableEq Hash] in
/-- A bulk revocation of `u`'s sessions does not touch the rows of others. -/
theorem revokeRow_other {u : String} {r : UserSession Hash} (h : r.userId ≠ u) :
    revokeRow u r = r := if_neg h

omit [DecidableEq Hash] in
theorem Sound.effect {s s' : AuthState Hash} (h : Sound lib s)
    (he : Effect lib s s') : Sound lib s' := by
  obtain ⟨l, hl⟩ := he.issued_grows
  -- a row whose user and hash were there before keeps its witness
  have old : ∀ r ∈ s.sessions, ∃ i ∈ s'.issued,
      r.userId = i.payload.userId ∧ r.tokenHash = hashToken lib (i.token lib) := by
    intro r hr
    obtain ⟨i, hi, hu, hh⟩ := h.owned r hr
    exact ⟨i, by rw [hl]; exact List.mem_append_left _ hi, hu, hh⟩
  cases he with
  | idle hs _ => exact ⟨hs ▸ h.ids, fun r hr => old r (hs ▸ hr)⟩
  | signed i hs _ => exact ⟨hs ▸ h.ids, fun r hr => old r (hs ▸ hr)⟩
  | opened i r fresh user hash hs hi =>
      refine ⟨hs ▸ h.ids.append fresh, ?_⟩
      intro x hx
      rw [hs] at hx
      rcases List.mem_append.mp hx with hx | hx
      · exact old x hx
      · rw [List.mem_singleton.mp hx]
        exact ⟨i, by rw [hi]; exact List.mem_append_right _ (List.mem_singleton_self i),
          user, hash⟩
  | rotated i r r' mem live user id owner hash hs hi =>
      refine ⟨hs ▸ h.ids.replace r', ?_⟩
      intro x hx
      rw [hs] at hx
      rcases mem_replace.mp hx with ⟨rfl, -⟩ | ⟨hx, -⟩
      · exact ⟨i, by rw [hi]; exact List.mem_append_right _ (List.mem_singleton_self i),
          owner.trans user, hash⟩
      · exact old x hx
  | revoked r mem hs hi =>
      refine ⟨hs ▸ h.ids.replace _, ?_⟩
      intro x hx
      rw [hs] at hx
      rcases mem_replace.mp hx with ⟨rfl, -⟩ | ⟨hx, -⟩
      · exact old r mem
      · exact old x hx
  | revokedAll u hs hi =>
      refine ⟨?_, ?_⟩
      · show ((s'.sessions).map UserSession.id).Nodup
        rw [hs, List.map_map]
        have : (UserSession.id : UserSession Hash → String) ∘ revokeRow u
            = UserSession.id := by
          funext r
          exact revokeRow_id u r
        rw [this]
        exact h.ids
      · intro x hx
        rw [hs] at hx
        obtain ⟨r, hr, rfl⟩ := List.mem_map.mp hx
        rw [revokeRow_userId, revokeRow_tokenHash]
        exact old r hr

/-- **Every reachable table is sound.** -/
theorem play_sound (hist : List (AuthCall Token × (Nat → Choice)))
    {s : AuthState Hash} (h : Sound lib s) : Sound lib (play lib hist s) := by
  induction hist generalizing s with
  | nil => exact h
  | cons hd rest ih =>
      obtain ⟨c, ω⟩ := hd
      exact ih (h.effect lib (call_effect lib c ω s))

/-! ## Following one hash -/

/-- No two refresh tokens with the hash `h` have been signed. -/
def SignedOnce (h : Hash) (s : AuthState Hash) : Prop :=
  (issuedHashes lib s).count h ≤ 1

instance (h : Hash) (s : AuthState Hash) : Decidable (SignedOnce lib h s) :=
  inferInstanceAs (Decidable ((issuedHashes lib s).count h ≤ 1))

/-- At most one row carries the hash `h`. -/
def OneRow (h : Hash) (s : AuthState Hash) : Prop :=
  ∀ r ∈ s.sessions, ∀ r' ∈ s.sessions, r.tokenHash = h → r'.tokenHash = h → r = r'

/-- A token with the hash `h` was issued, and no live row carries it. -/
structure Retired (h : Hash) (s : AuthState Hash) : Prop where
  issued : h ∈ issuedHashes lib s
  revoked : ∀ r ∈ s.sessions, r.tokenHash = h → r.isRevoked = true

theorem SignedOnce.before {h : Hash} {s s' : AuthState Hash}
    (hs' : SignedOnce lib h s') {l : List Issue} (hl : s'.issued = s.issued ++ l) :
    SignedOnce lib h s := by
  unfold SignedOnce issuedHashes at *
  rw [hl, List.map_append, List.count_append] at hs'
  omega

/-- A hash that was issued before is not the one that is signed now. -/
theorem SignedOnce.ne_new {h : Hash} {s s' : AuthState Hash}
    (hs' : SignedOnce lib h s') {i : Issue} (hi : s'.issued = s.issued ++ [i])
    (hmem : h ∈ issuedHashes lib s) : hashToken lib (i.token lib) ≠ h := by
  intro heq
  have h1 : 1 ≤ (issuedHashes lib s).count h := List.one_le_count_iff.mpr hmem
  have h2 : (issuedHashes lib s').count h = (issuedHashes lib s).count h + 1 := by
    unfold issuedHashes
    rw [hi, List.map_append, List.count_append]
    simp [heq]
  have h3 : (issuedHashes lib s').count h ≤ 1 := hs'
  omega

theorem OneRow.effect {h : Hash} {s s' : AuthState Hash} (hs : Sound lib s)
    (hone : OneRow h s) (hsig : SignedOnce lib h s') (he : Effect lib s s') :
    OneRow h s' := by
  intro x hx y hy hxh hyh
  cases he with
  | idle hs' _ => exact hone x (hs' ▸ hx) y (hs' ▸ hy) hxh hyh
  | signed i hs' _ => exact hone x (hs' ▸ hx) y (hs' ▸ hy) hxh hyh
  | opened i r fresh user hash hs' hi =>
      -- the new row cannot share its hash with a row that was there before
      have key : ∀ z ∈ s.sessions, z.tokenHash = h → r.tokenHash ≠ h := by
        intro z hz hzh
        rw [hash]
        exact hsig.ne_new lib hi (hzh ▸ hs.hash_issued lib hz)
      rw [hs', List.mem_append, List.mem_singleton] at hx hy
      rcases hx with hx | rfl
      · rcases hy with hy | rfl
        · exact hone x hx y hy hxh hyh
        · exact absurd hyh (key x hx hxh)
      · rcases hy with hy | rfl
        · exact absurd hxh (key y hy hyh)
        · rfl
  | rotated i r r' mem live user id owner hash hs' hi =>
      have key : ∀ z ∈ s.sessions, z.tokenHash = h → r'.tokenHash ≠ h := by
        intro z hz hzh
        rw [hash]
        exact hsig.ne_new lib hi (hzh ▸ hs.hash_issued lib hz)
      rw [hs', mem_replace] at hx hy
      rcases hx with ⟨rfl, -⟩ | ⟨hx, -⟩
      · rcases hy with ⟨rfl, -⟩ | ⟨hy, -⟩
        · rfl
        · exact absurd hxh (key y hy hyh)
      · rcases hy with ⟨rfl, -⟩ | ⟨hy, -⟩
        · exact absurd hyh (key x hx hxh)
        · exact hone x hx y hy hxh hyh
  | revoked r mem hs' hi =>
      rw [hs', mem_replace] at hx hy
      rcases hx with ⟨rfl, -⟩ | ⟨hx, hxk⟩
      · rcases hy with ⟨rfl, -⟩ | ⟨hy, hyk⟩
        · rfl
        · exact absurd (congrArg UserSession.id (hone y hy r mem hyh hxh)) hyk
      · rcases hy with ⟨rfl, -⟩ | ⟨hy, -⟩
        · exact absurd (congrArg UserSession.id (hone x hx r mem hxh hyh)) hxk
        · exact hone x hx y hy hxh hyh
  | revokedAll u hs' hi =>
      rw [hs'] at hx hy
      obtain ⟨x₀, hx₀, rfl⟩ := List.mem_map.mp hx
      obtain ⟨y₀, hy₀, rfl⟩ := List.mem_map.mp hy
      rw [revokeRow_tokenHash] at hxh hyh
      rw [hone x₀ hx₀ y₀ hy₀ hxh hyh]

theorem Retired.effect {h : Hash} {s s' : AuthState Hash} (hret : Retired lib h s)
    (hsig : SignedOnce lib h s') (he : Effect lib s s') : Retired lib h s' := by
  obtain ⟨l, hl⟩ := he.issued_grows
  have hiss : h ∈ issuedHashes lib s' := by
    unfold issuedHashes
    rw [hl, List.map_append]
    exact List.mem_append_left _ hret.issued
  refine ⟨hiss, ?_⟩
  intro x hx hxh
  cases he with
  | idle hs' _ => exact hret.revoked x (hs' ▸ hx) hxh
  | signed i hs' _ => exact hret.revoked x (hs' ▸ hx) hxh
  | opened i r fresh user hash hs' hi =>
      rw [hs', List.mem_append, List.mem_singleton] at hx
      rcases hx with hx | rfl
      · exact hret.revoked x hx hxh
      · exact absurd (hash ▸ hxh) (hsig.ne_new lib hi hret.issued)
  | rotated i r r' mem live user id owner hash hs' hi =>
      rw [hs', mem_replace] at hx
      rcases hx with ⟨rfl, -⟩ | ⟨hx, -⟩
      · exact absurd (hash ▸ hxh) (hsig.ne_new lib hi hret.issued)
      · exact hret.revoked x hx hxh
  | revoked r mem hs' hi =>
      rw [hs', mem_replace] at hx
      rcases hx with ⟨rfl, -⟩ | ⟨hx, -⟩
      · rfl
      · exact hret.revoked x hx hxh
  | revokedAll u hs' hi =>
      rw [hs'] at hx
      obtain ⟨x₀, hx₀, rfl⟩ := List.mem_map.mp hx
      rw [revokeRow_tokenHash] at hxh
      have hrev := hret.revoked x₀ hx₀ hxh
      by_cases hu : x₀.userId = u
      · simp [revokeRow, hu]
      · rw [revokeRow_other hu]
        exact hrev

/-- **One row per hash.**  In a history that signs `h` at most once, at most one
    row carries it. -/
theorem play_oneRow {h : Hash} (hist : List (AuthCall Token × (Nat → Choice)))
    {s : AuthState Hash} (hs : Sound lib s) (hone : OneRow h s)
    (hsig : SignedOnce lib h (play lib hist s)) : OneRow h (play lib hist s) := by
  induction hist generalizing s with
  | nil => exact hone
  | cons hd rest ih =>
      obtain ⟨c, ω⟩ := hd
      have he := call_effect lib c ω s
      obtain ⟨l, hl⟩ := play_issued_grows lib rest (solo (exec lib) ω (c.prog lib) s).1
      exact ih (hs.effect lib he) (hone.effect lib hs (hsig.before lib hl) he) hsig

/-- **A retired hash stays retired.** -/
theorem play_retired {h : Hash} (hist : List (AuthCall Token × (Nat → Choice)))
    {s : AuthState Hash} (hret : Retired lib h s)
    (hsig : SignedOnce lib h (play lib hist s)) : Retired lib h (play lib hist s) := by
  induction hist generalizing s with
  | nil => exact hret
  | cons hd rest ih =>
      obtain ⟨c, ω⟩ := hd
      obtain ⟨l, hl⟩ := play_issued_grows lib rest (solo (exec lib) ω (c.prog lib) s).1
      exact ih (hret.effect lib (hsig.before lib hl) (call_effect lib c ω s)) hsig

/-- A retired token is refused, whichever session the query returns. -/
theorem Retired.refresh_refused {t : Token} {s : AuthState Hash}
    (hret : Retired lib (hashToken lib t) s) (ω : Nat → Choice) :
    ∃ e, (solo (exec lib) ω (refresh lib t) s).2 = .error e ∧
      (solo (exec lib) ω (refresh lib t) s).1.issued = s.issued := by
  have hrun := refresh_run lib ω t s
  generalize solo (exec lib) ω (refresh lib t) s = out at hrun ⊢
  obtain ⟨s', res⟩ := out
  cases hrun with
  | rejected m s' why sessions issued => exact ⟨_, rfl, issued⟩
  | alarm payload r m s' verified picked mismatch sessions issued =>
      exact ⟨_, rfl, issued⟩
  | rotated payload r access s' iat verified picked hash signed second sessions issued =>
      obtain ⟨hmem, -, hlive⟩ := mem_liveSessionsOf.mp (pick_mem picked)
      rw [hret.revoked r hmem hash] at hlive
      exact nomatch hlive

/-- A successful refresh retires the token that it took, in a history that signs
    its hash once. -/
theorem retired_of_refreshed {t : Token} {s : AuthState Hash} (hs : Sound lib s)
    (hone : OneRow (hashToken lib t) s) (ω : Nat → Choice) {reply : AuthReply Token}
    (hok : (solo (exec lib) ω (refresh lib t) s).2 = .ok reply)
    (hsig : SignedOnce lib (hashToken lib t)
      (solo (exec lib) ω (refresh lib t) s).1) :
    Retired lib (hashToken lib t) (solo (exec lib) ω (refresh lib t) s).1 := by
  have hrun := refresh_run lib ω t s
  generalize solo (exec lib) ω (refresh lib t) s = out at hrun hok hsig ⊢
  obtain ⟨s', res⟩ := out
  cases hrun with
  | rejected m s' why sessions issued => exact nomatch hok
  | alarm payload r m s' verified picked mismatch sessions issued => exact nomatch hok
  | rotated payload r access s' iat verified picked hash signed second sessions issued =>
      obtain ⟨hmem, -, -⟩ := mem_liveSessionsOf.mp (pick_mem picked)
      have hiss : hashToken lib t ∈ issuedHashes lib s := hash ▸ hs.hash_issued lib hmem
      have hne := hsig.ne_new lib issued hiss
      refine ⟨?_, ?_⟩
      · show hashToken lib t ∈ s'.issued.map _
        rw [issued, List.map_append]
        exact List.mem_append_left _ hiss
      · -- the only row that carried the hash carries the new one now
        intro x hx hxh
        rw [sessions, mem_replace] at hx
        rcases hx with ⟨rfl, -⟩ | ⟨hx, hxk⟩
        · exact absurd hxh hne
        · exact absurd (congrArg UserSession.id (hone x hx r hmem hxh hash)) hxk

end PlatformAuth
