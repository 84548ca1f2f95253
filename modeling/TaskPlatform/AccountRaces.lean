import TaskPlatform.AccountInvariants
import TaskPlatform.SessionRotation

/-! # Accounts under concurrency

    What any number of account and session calls leave of the `users` table, in every
    interleaving and with failing calls among them.  No user is lost and an e-mail is
    signed up once; a login returns only for a password that was set for its e-mail; a
    verification is lost only to the `save` of an object that was loaded before it. -/

namespace PlatformAccounts

open AsyncProgram Interleaving PlatformEntities RowTable
open PlatformAuth (AuthReply AuthCall PlainToken)

variable {Token Hash : Type} [DecidableEq Hash] (lib : Bcrypt Token Hash)

/-- The calls at their start. -/
def callsOn (s : AccountState Hash) (calls : List (AccountCall Token)) :
    Pool (AccountOp Token Hash) AccountOp.Res HttpError (AccountReply Token)
      (AccountState Hash) :=
  ⟨s, calls.map (AccountCall.prog lib)⟩

variable {lib}

theorem callsOn_call {s : AccountState Hash} {calls : List (AccountCall Token)} {i : Nat}
    {call : AccountCall Token} (h : calls[i]? = some call) :
    (callsOn lib s calls).calls[i]? = some (call.prog lib) := by
  show (calls.map (AccountCall.prog lib))[i]? = _
  rw [List.getElem?_map, h]
  rfl

theorem informed_callsOn (s : AccountState Hash) (calls : List (AccountCall Token)) {i : Nat}
    {p : AccountProg Token Hash (AccountReply Token)}
    (h : (callsOn lib s calls).calls[i]? = some p) :
    ∃ call, calls[i]? = some call ∧
      Informed (accountLearning (· ∈ calls)) (Proves call) (fun _ => False) p := by
  have hp : (calls.map (AccountCall.prog lib))[i]? = some p := h
  rw [List.getElem?_map] at hp
  obtain ⟨call, hcall, rfl⟩ := Option.map_eq_some_iff.mp hp
  exact ⟨call, hcall, informed_call lib (List.mem_of_getElem? hcall)⟩

theorem informed_callsOn_any (s : AccountState Hash) (calls : List (AccountCall Token)) :
    ∀ p ∈ (callsOn lib s calls).calls,
      Informed (accountLearning (· ∈ calls)) (fun _ _ => True) (fun _ => False) p := by
  intro p hp
  obtain ⟨i, hi⟩ := List.mem_iff_getElem?.mp hp
  obtain ⟨call, -, hinf⟩ := informed_callsOn s calls hi
  exact hinf.mono fun _ _ _ => trivial

variable (lib) in
/-- Every step of a run is taken on the grounds that it needs. -/
theorem callsOn_meets {s : AccountState Hash} (hs : Keyed s.users)
    (calls : List (AccountCall Token)) (l : List (Nat × Decision)) :
    Meets (exec lib) (OnOp fun s' op => Sane lib (· ∈ calls) s.users s' ∧
      ∃ K, (∀ x, K x → Holds lib (· ∈ calls) s.users s' x) ∧ Grounds (· ∈ calls) K op)
      (callsOn lib s calls) l :=
  accounts_sound.meets (informed_callsOn_any s calls)
    (meets_of_forall _ (fun _ _ _ _ _ => trivial) _ _) (sane_start hs)

variable (lib) in
theorem callsOn_sane {s : AccountState Hash} (hs : Keyed s.users)
    (calls : List (AccountCall Token)) (l : List (Nat × Decision)) :
    Sane lib (· ∈ calls) s.users (run (exec lib) (callsOn lib s calls) l).shared :=
  accounts_sound.run (informed_callsOn_any s calls)
    (meets_of_forall _ (fun _ _ _ _ _ => trivial) _ _) (sane_start hs)

/-! ## A library to run the services with -/

/-- bcrypt without its salt, next to tokens in the clear. -/
def plainBcrypt : Bcrypt PlainToken PlainToken where
  toAuthLibrary :=
    { PlatformAuth.plain with
      compare := fun given hash =>
        decide (given.toUTF8.toList.take 72 = hash.toUTF8.toList.take 72) }
  hash _ plain := plain
  significant s := s.toUTF8.toList.take 72
  compare_hash _ _ _ := rfl

/-- A user whose address is not verified. -/
def carol : User := ⟨"c", "carol@x", some "secret", "Carol", none, false⟩

/-- Carol's account and no session. -/
def onlyCarol : AccountState PlainToken := ⟨⟨[carol], [], 0, []⟩, []⟩

theorem onlyCarol_keyed : Keyed onlyCarol.users := ⟨by decide, by decide⟩

/-- An await under which the id `id` is generated. -/
def draw (id : String) : Decision := { choice := ⟨0, 0, id⟩ }

/-! ## Signing up -/

/-- A user was inserted under this e-mail. -/
inductive Registers (email : String) : (op : AccountOp Token Hash) → op.Res → Prop where
  | inserted {passwordHash name : String} {user : User} :
      Registers email (.insertUser email passwordHash name) (.ok user)

omit [DecidableEq Hash] in
theorem signup_registers (email plain name : String) :
    MustObtain (Registers email)
      (signup email plain name : AccountProg Token Hash (AccountReply Token)) := by
  intro r
  refine Or.inr ?_
  cases r with
  | error e => trivial
  | ok existing =>
      cases existing with
      | some user => trivial
      | none =>
          intro r
          refine Or.inr ?_
          cases r with
          | error e => trivial
          | ok passwordHash =>
              intro r
              cases r with
              | error e => exact Or.inr trivial
              | ok user => exact Or.inl .inserted

/-- Somebody is registered under the e-mail. -/
def Taken (email : String) (s : AccountState Hash) : Prop := ∃ u ∈ s.users, u.email = email

theorem registers_taken {email : String} {d : Decision} {op : AccountOp Token Hash}
    {s : AccountState Hash} (h : Registers email op (exec lib d op s).2) :
    ¬ Taken email s ∧ Taken email (exec lib d op s).1 := by
  generalize hr : (exec lib d op s).2 = r at h
  cases h with
  | inserted =>
      rename_i passwordHash name user
      have hexec := exec_of_ok hr
      rw [hexec] at hr ⊢
      have hcommit : (carryOut lib d (.insertUser email passwordHash name) s)
        = (s.wait d).commit (insertRow s.users d.choice.newId email passwordHash name) := rfl
      cases hins : insertRow s.users d.choice.newId email passwordHash name with
      | error e =>
          rw [hcommit, hins] at hr
          cases hr
      | ok out =>
          obtain ⟨hfresh, hout, hrow⟩ := insertRow_ok hins
          rw [hcommit, hins]
          refine ⟨fun ⟨u, hu, he⟩ => (hfresh u hu).2 he, out.2, ?_, ?_⟩
          · show out.2 ∈ out.1
            rw [hout]
            exact List.mem_append_right _ (List.mem_singleton.mpr rfl)
          · rw [hrow]

theorem taken_stays {calls : AccountCall Token → Prop} {users₀ : List User} {email : String}
    {d : Decision} {op : AccountOp Token Hash} {s : AccountState Hash} {K : Told → Prop}
    (hs : Sane lib calls users₀ s) (hK : ∀ x, K x → Holds lib calls users₀ s x)
    (hg : Grounds calls K op) (h : Taken email s) : Taken email (exec lib d op s).1 := by
  obtain ⟨u, hu, he⟩ := h
  obtain ⟨u', hu', -, he'⟩ := (exec_users lib d op s).hasAccount
    (fun v hv => hasAccount_of_grounds hK (hv ▸ hg)) hs.keyed ⟨u, hu, rfl, he⟩
  exact ⟨u', hu', he'⟩

/-- What a run leaves of the accounts that it started with. -/
structure AccountsKept (calls : List (AccountCall Token)) (s : AccountState Hash)
    (c : Pool (AccountOp Token Hash) AccountOp.Res HttpError (AccountReply Token)
      (AccountState Hash)) : Prop where
  /-- Ids and e-mails belong to one user each. -/
  keyed : Keyed c.shared.users
  /-- No user is lost, or gets another e-mail. -/
  kept : ∀ u ∈ s.users, HasAccount c.shared.users u.id u.email
  /-- Who has signed up has an account. -/
  signedUp : ∀ (i : Nat) (email plain name : String) (reply : AccountReply Token),
    calls[i]? = some (.signup email plain name) → c.calls[i]? = some (.done reply) →
    Taken email c.shared
  /-- And is the only one who signed up under the e-mail. -/
  once : ∀ (i j : Nat) (email plain name plain' name' : String)
    (reply reply' : AccountReply Token), i ≠ j →
    calls[i]? = some (.signup email plain name) → c.calls[i]? = some (.done reply) →
    calls[j]? = some (.signup email plain' name') → c.calls[j]? = some (.done reply') → False
  /-- Nobody has signed up under an e-mail that was taken before. -/
  fresh : ∀ (i : Nat) (email plain name : String) (reply : AccountReply Token),
    calls[i]? = some (.signup email plain name) → c.calls[i]? = some (.done reply) →
    ¬ Taken email s

/-- **Accounts are kept.**  For every table, every number of calls and every order of
    their steps. -/
theorem accounts_are_kept (s : AccountState Hash) (hs : Keyed s.users)
    (calls : List (AccountCall Token)) (l : List (Nat × Decision)) :
    AccountsKept calls s (run (exec lib) (callsOn lib s calls) l) := by
  have hsane := callsOn_sane lib hs calls l
  have hmeets := callsOn_meets lib hs calls l
  have hobtained : ∀ (i : Nat) (email plain name : String) (reply : AccountReply Token),
      calls[i]? = some (.signup email plain name) →
      (run (exec lib) (callsOn lib s calls) l).calls[i]? = some (.done reply) →
      ∃ l₁ d l₂ op k, l = l₁ ++ (i, d) :: l₂ ∧
        (run (exec lib) (callsOn lib s calls) l₁).calls[i]? = some (.await op k) ∧
        Registers email op
          (exec lib d op (run (exec lib) (callsOn lib s calls) l₁).shared).2 := by
    intro i email plain name reply hcall hdone
    exact (signup_registers email plain name).obtained (callsOn_call hcall) hdone
  refine ⟨hsane.keyed, hsane.kept, ?_, ?_, ?_⟩
  · intro i email plain name reply hcall hdone
    obtain ⟨l₁, d, l₂, op, k, rfl, hop, hreg⟩ :=
      hobtained i email plain name reply hcall hdone
    have hnow : Taken email
        (step (exec lib) (run (exec lib) (callsOn lib s calls) l₁) i d).shared := by
      rw [step_await _ hop]
      exact (registers_taken hreg).2
    rw [meets_append] at hmeets
    rw [run_append, run_cons]
    refine run_invariant _ (I := fun c => Taken email c.shared) ?_ hmeets.2.2 hnow
    intro c j d hC hc
    rcases step_cases (exec lib) c j d with h0 | ⟨op, k, hop, h0⟩
    · rw [h0]
      exact hc
    · obtain ⟨hs', K, hK, hg⟩ := hC op k hop
      rw [h0]
      exact taken_stays hs' hK hg hc
  · intro i j email plain name plain' name' reply reply' hij hi hdone hj hdone'
    refine not_both_return (K := Taken email) ?_ ?_ hmeets hij (callsOn_call hi)
      (signup_registers email plain name) (callsOn_call hj)
      (signup_registers email plain' name') hdone hdone'
    · exact fun d op s' _ hreg => registers_taken hreg
    · rintro d op s' ⟨hs', K, hK, hg⟩ htaken
      exact taken_stays hs' hK hg htaken
  · intro i email plain name reply hcall hdone htaken
    obtain ⟨l₁, d, l₂, op, k, -, hop, hreg⟩ :=
      hobtained i email plain name reply hcall hdone
    obtain ⟨u, hu, he⟩ := htaken
    obtain ⟨u', hu', -, he'⟩ := (callsOn_sane lib hs calls l₁).kept u hu
    exact (registers_taken hreg).1 ⟨u', hu', he'.trans he⟩

/-- One address, signed up twice. -/
def twoSignups : List (AccountCall PlainToken) :=
  [.signup "dan@x" "pw1" "Dan", .signup "dan@x" "pw2" "Daniel"]

/-- Both look the e-mail up before one of them inserts. -/
def signupRace : List (Nat × Decision) :=
  [(0, draw ""), (1, draw ""), (0, draw ""), (1, draw ""), (0, draw "d1"), (1, draw "d2"),
   (0, draw ""), (0, draw ""), (0, draw "")]

/-- The unique e-mail of the table fails the second one. -/
theorem second_signup_fails :
    AccountsKept twoSignups onlyCarol
      (run (exec plainBcrypt) (callsOn plainBcrypt onlyCarol twoSignups) signupRace) ∧
      (run (exec plainBcrypt) (callsOn plainBcrypt onlyCarol twoSignups)
        signupRace).calls.map Prog.returned = [true, false] := by
  refine ⟨accounts_are_kept onlyCarol onlyCarol_keyed twoSignups signupRace, ?_⟩
  decide

/-! ## Logging in -/

/-- **A login proves a password.**  If a login has returned, the password it was given
    matches the one that its e-mail had at the start, or bcrypt reads it like one that a
    call of the run sets for that e-mail. -/
theorem login_proves_password (s : AccountState Hash) (hs : Keyed s.users)
    (calls : List (AccountCall Token)) (l : List (Nat × Decision)) {i : Nat}
    {email plain : String} {device ip : Option String} {reply : AccountReply Token}
    (hcall : calls[i]? = some (.session (.login email plain device ip)))
    (hdone : (run (exec lib) (callsOn lib s calls) l).calls[i]? = some (.done reply)) :
    (∃ u ∈ s.users, u.email = email ∧ lib.compare plain (u.password.getD "") = true) ∨
      ∃ plain', SetsPassword (· ∈ calls) email plain' ∧
        lib.significant plain = lib.significant plain' := by
  -- every call with its own claim on what it has been told when it returns
  let Q (j : Nat) : AccountReply Token → (Told → Prop) → Prop := fun a K =>
    ∀ call, calls[j]? = some call → Proves call a K
  have hinf : ∀ j p, (callsOn lib s calls).calls[j]? = some p →
      Informed (accountLearning (· ∈ calls)) (Q j) (fun _ => False) p := by
    intro j p hp
    obtain ⟨call, hj, hinf⟩ := informed_callsOn s calls hp
    refine hinf.mono fun a K hproves call' hcall' => ?_
    rw [hj] at hcall'
    exact Option.some.inj hcall' ▸ hproves
  obtain ⟨-, hcalls⟩ := accounts_sound.run_calls hinf
    (meets_of_forall _ (fun _ _ _ _ _ => trivial) _ l) (sane_start hs)
  obtain ⟨K, hK, hQ⟩ := hcalls i _ hdone
  obtain ⟨user, haccount, hmatched⟩ : ∃ user, K (.account email user) ∧
      K (.matched plain (user.password.getD "")) := hQ _ hcall
  obtain ⟨-, horigin⟩ := hK _ haccount
  have hcompare : lib.compare plain (user.password.getD "") = true := hK _ hmatched
  rcases horigin with ⟨u, hu, he, hpassword⟩ | ⟨plain', salt, hsets, hpassword⟩
  · rw [← hpassword] at hcompare
    exact Or.inl ⟨u, hu, he, hcompare⟩
  · rw [hpassword, Option.getD_some, lib.compare_hash] at hcompare
    exact Or.inr ⟨plain', hsets, of_decide_eq_true hcompare⟩

/-- A reset, and a login with the new password. -/
def resetAndLogin : List (AccountCall PlainToken) :=
  [.resetPassword "carol@x" "12345678" "changed",
   .session (.login "carol@x" "changed" none none)]

/-- The answer of the login. -/
def carolsTokens : AccountReply PlainToken :=
  .session (.loggedIn ⟨.access, 900, ⟨"c", "carol@x"⟩, 0⟩
    ⟨.refresh, 604800, ⟨"c", "carol@x"⟩, 0⟩
    carol.view)

/-- The reset, then the login. -/
def inTurn : List (Nat × Decision) :=
  List.replicate 6 (0, draw "") ++ List.replicate 6 (1, draw "s")

theorem login_after_reset :
    (∃ u ∈ onlyCarol.users, u.email = "carol@x" ∧
      plainBcrypt.compare "changed" (u.password.getD "") = true) ∨
      ∃ plain', SetsPassword (· ∈ resetAndLogin) "carol@x" plain' ∧
        plainBcrypt.significant "changed" = plainBcrypt.significant plain' := by
  have hcall : resetAndLogin[1]? = some (.session (.login "carol@x" "changed" none none)) := rfl
  have houtcome : (run (exec plainBcrypt) (callsOn plainBcrypt onlyCarol resetAndLogin)
      inTurn).calls[1]?.bind Prog.outcome = some (.ok carolsTokens) := by decide +kernel
  obtain ⟨p, hp, hdone⟩ := Option.bind_eq_some_iff.mp houtcome
  rw [Prog.eq_done_of_outcome hdone] at hp
  exact login_proves_password onlyCarol onlyCarol_keyed resetAndLogin inTurn hcall hp

/-! ## Verification -/

/-- The user's e-mail is verified. -/
def Verified (id : String) (users : List User) : Prop :=
  ∃ u ∈ users, u.id = id ∧ u.isVerified = true

omit [DecidableEq Hash] in
/-- Only a save can take a verification back. -/
theorem UsersStep.verified {newId id : String} {op : AccountOp Token Hash}
    {users users' : List User} (h : UsersStep newId op users users')
    (hv : Verified id users) (hlost : ¬ Verified id users') :
    ∃ user, op = .saveUser user ∧ user.id = id ∧ user.isVerified = false := by
  obtain ⟨u, hu, rfl, huv⟩ := hv
  cases h with
  | same => exact absurd ⟨u, hu, rfl, huv⟩ hlost
  | inserted hfresh => exact absurd ⟨u, List.mem_append_left _ hu, rfl, huv⟩ hlost
  | saved hrow hemail =>
      rename_i user row
      obtain ⟨hmem, hid⟩ := lookup_mem hrow
      by_cases hsame : u.id = row.id
      · refine ⟨user, rfl, hid.symm.trans hsame.symm, ?_⟩
        cases hvv : user.isVerified with
        | false => rfl
        | true =>
            refine absurd ⟨overwrite row user, ?_, hsame.symm, hvv⟩ hlost
            exact mem_replace.mpr (Or.inl ⟨rfl, row, hmem, rfl⟩)
      · exact absurd ⟨u, mem_replace.mpr (Or.inr ⟨hu, hsame⟩), rfl, huv⟩ hlost
  | passwordSet id' passwordHash =>
      refine absurd ⟨setPassword id' passwordHash u, List.mem_map.mpr ⟨u, hu, rfl⟩,
        setPassword_id id' passwordHash u, ?_⟩ hlost
      unfold setPassword
      split <;> exact huv

/-- The user that a call was told of is the one of the row. -/
theorem found_row {d : Decision} {op : AccountOp Token Hash} {s : AccountState Hash}
    {email : String} {user : UserView} (h : Teaches op (exec lib d op s).2 (.found email user)) :
    ∃ u ∈ s.users, u.view = user := by
  generalize hr : (exec lib d op s).2 = r at h
  cases h with
  | byEmail =>
      rw [exec_of_ok hr] at hr
      obtain ⟨u, hu, hview⟩ := Option.map_eq_some_iff.mp (Except.ok.inj hr)
      exact ⟨u, List.mem_of_find?_eq_some hu, hview⟩
  | byId =>
      rw [exec_of_ok hr] at hr
      obtain ⟨u, hu, hview⟩ := Option.map_eq_some_iff.mp (Except.ok.inj hr)
      exact ⟨u, (lookup_mem hu).1, hview⟩

/-- The next step of the call saves this object. -/
def Saves (c : Pool (AccountOp Token Hash) AccountOp.Res HttpError (AccountReply Token)
    (AccountState Hash)) (i : Nat) (user : UserView) : Prop :=
  ∃ k, c.calls[i]? = some (.await (.saveUser user) k)

variable (lib) in
/-- The next step of the call loads this row: it looks a user up by e-mail or by id and is
    told of it. -/
def Loads (c : Pool (AccountOp Token Hash) AccountOp.Res HttpError (AccountReply Token)
    (AccountState Hash)) (i : Nat) (d : Decision) (u : User) : Prop :=
  ∃ op k email, c.calls[i]? = some (.await op k) ∧ u ∈ c.shared.users ∧
    Teaches op (exec lib d op c.shared).2 (.found email u.view)

/-- **Only a stale save unverifies.**  A step that takes a verification back saves an
    object that its call loaded from the row while that was not verified; the verification
    has come in between. -/
theorem verification_lost_to_stale_save (s : AccountState Hash) (hs : Keyed s.users)
    (calls : List (AccountCall Token)) (l : List (Nat × Decision)) (i : Nat) (d : Decision)
    {id : String}
    (hv : Verified id (run (exec lib) (callsOn lib s calls) l).shared.users)
    (hlost : ¬ Verified id (run (exec lib) (callsOn lib s calls) (l ++ [(i, d)])).shared.users) :
    ∃ user, Saves (run (exec lib) (callsOn lib s calls) l) i user ∧ user.id = id ∧
      user.isVerified = false ∧
      ∃ l₁ d' l₂ u, l = l₁ ++ (i, d') :: l₂ ∧
        Loads lib (run (exec lib) (callsOn lib s calls) l₁) i d' u ∧ u.id = id ∧
        u.email = user.email ∧
        ¬ Verified id (run (exec lib) (callsOn lib s calls) l₁).shared.users := by
  rw [run_append, run_cons, run_nil] at hlost
  rcases step_cases (exec lib) (run (exec lib) (callsOn lib s calls) l) i d with
    h0 | ⟨op, k, hop, h0⟩
  · rw [h0] at hlost
    exact absurd hv hlost
  rw [h0] at hlost
  obtain ⟨user, rfl, hid, hunverified⟩ :=
    (exec_users lib d op (run (exec lib) (callsOn lib s calls) l).shared).verified hv hlost
  refine ⟨user, ⟨k, hop⟩, hid, hunverified, ?_⟩
  -- what the call has been told when it saves
  obtain ⟨p, hp⟩ := run_calls_origin (exec lib) hop
  obtain ⟨call, -, hinf⟩ := informed_callsOn s calls hp
  obtain ⟨K, hK, htold⟩ := hinf.told hp hop
  obtain ⟨email, loaded, hfound, hloaded, hemail, hkept⟩ := hK.1
  rcases htold _ hfound with h | ⟨l₁, d', l₂, op', k', K', hl, hop', hlearn⟩
  · exact h.elim
  obtain ⟨u, hu, hview⟩ := found_row hlearn
  have huid : u.id = id := by
    rw [← hid, hloaded, ← hview]
    rfl
  have huemail : u.email = user.email := by
    rw [hemail, ← hview]
    rfl
  have huv : u.isVerified = false := by
    cases hv' : u.isVerified with
    | false => rfl
    | true =>
        have hlv : loaded.isVerified = true := by
          rw [← hview]
          exact hv'
        rw [hkept hlv] at hunverified
        cases hunverified
  rw [← hview] at hlearn
  refine ⟨l₁, d', l₂, u, hl, ⟨op', k', email, hop', hu, hlearn⟩, huid, huemail, ?_⟩
  rintro ⟨w, hw, hwid, hwv⟩
  have hwu : w = u :=
    (callsOn_sane lib hs calls l₁).keyed.ids.eq_of_key hw hu (hwid.trans huid.symm)
  rw [hwu, huv] at hwv
  cases hwv

/-- Two calls that save the same user. -/
def renameAndVerify : List (AccountCall PlainToken) :=
  [.updateProfile "c" { name := some "Caro" }, .verifyEmail "carol@x" "12345678"]

/-- The profile is loaded, then the e-mail is verified. -/
def verifyBetween : List (Nat × Decision) := [(0, draw ""), (1, draw ""), (1, draw "")]

theorem verification_lost_to_profile :
    ∃ user, Saves (run (exec plainBcrypt) (callsOn plainBcrypt onlyCarol renameAndVerify)
        verifyBetween) 0 user ∧ user.id = "c" ∧ user.isVerified = false ∧
      ∃ l₁ d' l₂ u, verifyBetween = l₁ ++ (0, d') :: l₂ ∧
        Loads plainBcrypt (run (exec plainBcrypt)
          (callsOn plainBcrypt onlyCarol renameAndVerify) l₁) 0 d' u ∧ u.id = "c" ∧
        u.email = user.email ∧
        ¬ Verified "c" (run (exec plainBcrypt) (callsOn plainBcrypt onlyCarol renameAndVerify)
          l₁).shared.users := by
  refine verification_lost_to_stale_save onlyCarol onlyCarol_keyed renameAndVerify verifyBetween
    0 (draw "") ?_ ?_
  · exact ⟨{ carol with isVerified := true }, List.mem_singleton.mpr rfl, rfl, rfl⟩
  · rintro ⟨u, hu, -, hv⟩
    have hrow : u = { carol with name := "Caro" } := List.mem_singleton.mp hu
    rw [hrow] at hv
    cases hv

end PlatformAccounts
