import TaskPlatform.AccountRaces

/-! # What a password reset does

    A run of `resetPassword` alone, with any of its calls failing.  It takes its way over
    `updateProfile(user.id, {})`, which writes the row as it is, and then sets the
    password: the reset has set the password of its account where it returns, and changed
    nothing where it throws; in neither case does it touch a session. -/

namespace PlatformAccounts

open AsyncProgram PlatformEntities RowTable
open PlatformAuth (AuthReply)

variable {Token Hash : Type} [DecidableEq Hash] (lib : Bcrypt Token Hash)

section Steps

variable {lib} {α : Type} {Q : Except HttpError α → AccountState Hash → Prop}

/-- An awaited operation: it fails and nothing has happened, or it is carried out. -/
theorem ensures_await {op : AccountOp Token Hash} {k : op.Res → AccountProg Token Hash α}
    {s : AccountState Hash}
    (hfault : ∀ d e, Ensures (exec lib) Q (k (.error e)) (s.wait d))
    (hok : ∀ d, Ensures (exec lib) Q (k (carryOut lib d op s).2) (carryOut lib d op s).1) :
    Ensures (exec lib) Q (.await op k) s := by
  intro d
  cases hd : d.fault with
  | some e =>
      have hexec : exec lib d op s = (s.wait d, .error e) := by rw [exec, hd]
      rw [hexec]
      exact hfault d e
  | none =>
      have hexec : exec lib d op s = carryOut lib d op s := by rw [exec, hd]
      rw [hexec]
      exact hok d

end Steps

/-! ## Logging in afterwards -/

/-- A world in which nothing fails and a generated id is new to the sessions. -/
structure Smooth (sessions : List (UserSession Hash)) (ω : Nat → Decision) : Prop where
  noFault : ∀ n, (ω n).fault = none
  freshId : ∀ n, lookup UserSession.id (ω n).choice.newId sessions = none

variable {lib}

/-- Where nothing fails, the session calls run as they do by themselves. -/
theorem solo_liftAuth {α : Type} {ω : Nat → Decision} (hω : ∀ n, (ω n).fault = none)
    (p : Prog (PlatformAuth.AuthOp Token Hash) PlatformAuth.AuthOp.Res HttpError α)
    (s : AccountState Hash) :
    solo (exec lib) ω (liftAuth p) s =
      ({ s with auth := (solo (PlatformAuth.exec lib.toAuthLibrary) (fun n => (ω n).choice) p
          s.auth).1 },
        (solo (PlatformAuth.exec lib.toAuthLibrary) (fun n => (ω n).choice) p s.auth).2) := by
  induction p generalizing ω s with
  | done a => rfl
  | fail e => rfl
  | await op k ih =>
      have hexec : exec lib (ω 0) (.auth op) s = carryOut lib (ω 0) (.auth op) s := by
        rw [exec, hω 0]
      show solo (exec lib) _ (Prog.orThrow (exec lib (ω 0) (.auth op) s).2 >>= _)
        (exec lib (ω 0) (.auth op) s).1 = _
      rw [hexec]
      exact ih _ (fun n => hω (n + 1)) _

/-- A login returns exactly where the password matches the one of the user found. -/
theorem login_returns_iff {s : PlatformAuth.AuthState Hash} {ω : Nat → PlatformAuth.Choice}
    (hω : ∀ n, lookup UserSession.id (ω n).newId s.sessions = none) {email : String} {u : User}
    (hu : s.users.find? (fun u => u.email = email) = some u) (given : String)
    (device ip : Option String) :
    (∃ reply, (solo (PlatformAuth.exec lib.toAuthLibrary) ω
      (PlatformAuth.login lib.toAuthLibrary email given device ip) s).2 = .ok reply) ↔
      lib.compare given (u.password.getD "") = true := by
  unfold PlatformAuth.login
  simp only [PlatformAuth.ask, Prog.perform_bind, solo_await, PlatformAuth.exec, hu]
  cases hc : lib.compare given (u.password.getD "") with
  | false => simp
  | true =>
      simp [PlatformAuth.generateAccessToken, PlatformAuth.generateRefreshToken,
        PlatformAuth.exec, PlatformAuth.record, PlatformAuth.AuthState.wait, hω]

/-- After a password is set, it decides the logins of its account. -/
theorem logins_after_setPassword {s' : AccountState Hash} {users : List User}
    (hk : Keyed users) {u : User} (hu : u ∈ users) {salt plain : String}
    (hs' : s'.users = users.map (setPassword u.id (lib.hash salt plain))) {ω : Nat → Decision}
    (hω : Smooth s'.auth.sessions ω) (given : String) (device ip : Option String) :
    (∃ reply, (solo (exec lib) ω (liftAuth
      (PlatformAuth.login lib.toAuthLibrary u.email given device ip)) s').2 = .ok reply) ↔
      lib.significant given = lib.significant plain := by
  have hfind : s'.auth.users.find? (fun w => w.email = u.email)
      = some (setPassword u.id (lib.hash salt plain) u) := by
    have hunique : Unique User.email s'.users := by
      rw [hs']
      show ((users.map _).map User.email).Nodup
      rw [map_setPassword (setPassword_email _ _)]
      exact hk.emails
    refine lookup_eq_some hunique ?_ (setPassword_email _ _ _)
    show _ ∈ s'.users
    rw [hs']
    exact List.mem_map.mpr ⟨u, hu, rfl⟩
  rw [solo_liftAuth hω.noFault]
  show (∃ reply, (solo (PlatformAuth.exec lib.toAuthLibrary) _ _ s'.auth).2 = .ok reply) ↔ _
  rw [login_returns_iff hω.freshId hfind, setPassword, if_pos rfl, Option.getD_some,
    lib.compare_hash, decide_eq_true_eq]

/-! ## The reset -/

variable (lib)

/-- What `resetPassword` leaves of the state that it found. -/
structure ResetOutcome (s s' : AccountState Hash) (email code plain : String)
    (r : Except HttpError (AccountReply Token)) : Prop where
  /-- Nobody is logged out. -/
  sessions : s'.auth.sessions = s.auth.sessions
  /-- A reset that throws has changed no user. -/
  failed : ∀ e, r = .error e → s'.users = s.users
  /-- A reset that returns has set one password, that of the account. -/
  reset : ∀ reply, r = .ok reply → 8 ≤ utf16Length code ∧
    ∃ u ∈ s.users, u.email = email ∧
    ∃ salt, s'.users = s.users.map (setPassword u.id (lib.hash salt plain))
  /-- From then on this password logs in, and no other one. -/
  logins : ∀ reply, r = .ok reply → ∀ ω given device ip, Smooth s'.auth.sessions ω →
    ((∃ reply', (solo (exec lib) ω (liftAuth
      (PlatformAuth.login lib.toAuthLibrary email given device ip)) s').2 = .ok reply') ↔
      lib.significant given = lib.significant plain)

variable {lib}

/-- Saving a user as it was loaded changes nothing. -/
theorem saveRow_view {users : List User} (hk : Keyed users) {u : User} (hu : u ∈ users) :
    saveRow users u.view = .ok (users, u.view) := by
  have hrow : lookup User.id u.view.id users = some u := lookup_eq_some hk.ids hu rfl
  have hemail : users.all (fun w => w.id = u.view.id || w.email ≠ u.view.email) = true := by
    refine List.all_eq_true.mpr ?_
    intro w hw
    by_cases he : w.email = u.email
    · rw [hk.emails.eq_of_key hw hu he]
      simp [User.view]
    · simp [User.view, he]
  have hsame : replace User.id (overwrite u u.view) users = users := by
    have hover : overwrite u u.view = u := rfl
    rw [hover]
    unfold replace
    refine List.map_congr_left (fun w hw => ?_) |>.trans (List.map_id users)
    by_cases hid : w.id = u.id
    · rw [if_pos hid, hk.ids.eq_of_key hw hu hid]
      rfl
    · rw [if_neg hid]
      rfl
  unfold saveRow
  rw [hrow]
  show (if _ then _ else _) = _
  rw [if_pos hemail, hsame]

/-- The account that a query by e-mail finds. -/
theorem carryOut_findByEmail (d : Decision) {s : AccountState Hash} {email : String}
    {u : Option User} (h : s.users.find? (fun u => u.email = email) = u) :
    (carryOut lib d (.findByEmail email) s).2 = .ok (u.map User.view) := by
  rw [← h]
  rfl

/-- Users and sessions as they were. -/
structure Untouched (s s' : AccountState Hash) : Prop where
  users : s'.users = s.users
  sessions : s'.auth.sessions = s.auth.sessions

/-- `updateProfile(id, {})` finds the row and saves it as it is. -/
theorem ensures_updateProfile_nothing {α : Type}
    {Q : Except HttpError α → AccountState Hash → Prop} {s : AccountState Hash}
    (hk : Keyed s.users) {u : User} (hu : u ∈ s.users)
    {f : UserView → AccountProg Token Hash α}
    (hfault : ∀ s' e, Untouched s s' → Q (.error e) s')
    (hok : ∀ s', Untouched s s' → Ensures (exec lib) Q (f u.view) s') :
    Ensures (exec lib) Q (updateProfile u.id {} >>= f) s := by
  refine ensures_await (fun d e => hfault _ e ⟨rfl, rfl⟩) fun d => ?_
  have hload : (carryOut lib d (.findById u.id) s).2 = .ok (some u.view) := by
    show Except.ok ((lookup User.id u.id s.users).map User.view) = _
    rw [lookup_eq_some hk.ids hu rfl]
    rfl
  rw [hload]
  refine ensures_await (fun d e => hfault _ e ⟨rfl, rfl⟩) fun d' => ?_
  have hsave : carryOut lib d' (.saveUser u.view) (s.wait d)
      = (((s.wait d).wait d').withUsers s.users, .ok u.view) := by
    show ((s.wait d).wait d').commit (saveRow s.users u.view) = _
    rw [saveRow_view hk hu]
    rfl
  rw [show carryOut lib d' (.saveUser (ProfileData.assign {} u.view))
    (carryOut lib d (.findById u.id) s).1 = _ from hsave]
  exact hok _ ⟨rfl, rfl⟩

/-- **A reset decides the logins and spares the sessions.**  However it ends, and whatever
    fails on the way. -/
theorem password_reset_outcome (s : AccountState Hash) (hs : Keyed s.users)
    (email code plain : String) :
    Ensures (exec lib) (fun r s' => ResetOutcome lib s s' email code plain r)
      (resetPassword email code plain) s := by
  -- throwing before the password is set leaves the users as they were
  have hthrow : ∀ (s' : AccountState Hash) (e : HttpError), Untouched s s' →
      ResetOutcome lib s s' email code plain (.error e) := by
    intro s' e h
    exact ⟨h.sessions, fun _ _ => h.users, fun _ h => (by cases h), fun _ h => by cases h⟩
  unfold resetPassword
  split
  · exact hthrow s _ ⟨rfl, rfl⟩
  · next hcode =>
      refine ensures_await (fun d e => hthrow _ e ⟨rfl, rfl⟩) fun d₁ => ?_
      cases hfind : s.users.find? (fun u => u.email = email) with
      | none =>
          rw [carryOut_findByEmail d₁ hfind]
          exact hthrow _ _ ⟨rfl, rfl⟩
      | some u =>
          have hu : u ∈ s.users := List.mem_of_find?_eq_some hfind
          have hemail : u.email = email := by simpa using List.find?_some hfind
          rw [carryOut_findByEmail d₁ hfind]
          refine ensures_await (fun d e => hthrow _ e ⟨rfl, rfl⟩) fun d₂ => ?_
          have hs₂ : Keyed ((s.wait d₁).wait d₂).users := hs
          have hu₂ : u ∈ ((s.wait d₁).wait d₂).users := hu
          show Ensures (exec lib) _ (updateProfile u.id {} >>= _) ((s.wait d₁).wait d₂)
          refine ensures_updateProfile_nothing hs₂ hu₂ ?_ ?_
          · exact fun s' e h => hthrow s' e ⟨h.users, h.sessions⟩
          intro s₁ h₁
          refine ensures_await (fun d e => hthrow _ e ⟨h₁.users, h₁.sessions⟩)
            fun d₃ => ?_
          have hdone : ∀ s' : AccountState Hash,
              s'.users = s₁.users.map (setPassword u.id (lib.hash d₂.random plain)) →
              s'.auth.sessions = s₁.auth.sessions →
              ResetOutcome lib s s' email code plain
                (.ok (.success "Password has been reset successfully")) := by
            intro s' husers hsessions
            have hset : s'.users = s.users.map (setPassword u.id (lib.hash d₂.random plain)) := by
              rw [husers, h₁.users]
              rfl
            refine ⟨hsessions.trans h₁.sessions, fun _ h => (by cases h), fun _ _ => ?_, ?_⟩
            · exact ⟨Nat.le_of_not_lt hcode, u, hu, hemail, d₂.random, hset⟩
            · intro _ _ ω given device ip hω
              rw [← hemail]
              exact logins_after_setPassword hs hu hset hω given device ip
          -- the audit log does not throw
          exact ensures_await (fun d e => hdone _ rfl rfl) fun d₄ => hdone _ rfl rfl

theorem carols_reset_outcome :
    Ensures (exec plainBcrypt)
      (fun r s' => ResetOutcome plainBcrypt onlyCarol s' "carol@x" "12345678" "changed" r)
      (resetPassword "carol@x" "12345678" "changed") onlyCarol :=
  password_reset_outcome onlyCarol onlyCarol_keyed "carol@x" "12345678" "changed"

end PlatformAccounts
