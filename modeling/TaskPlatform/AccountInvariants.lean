import TaskPlatform.AccountService

/-! # What the account calls do to the `users` table

    All that one operation can do (`UsersStep`), what the calls have been told when they
    write (`Grounds`, `informed_call`), and what stays true of the table for that reason
    (`Sane`, `accounts_sound`): its keys, its users, and where every password comes
    from. -/

namespace PlatformAccounts

open AsyncProgram Interleaving PlatformEntities RowTable
open PlatformAuth (AuthState AuthReply AuthCall)

variable {Token Hash : Type}

/-! ## What a step does to the users -/

/-- All that an operation can do to the users. -/
inductive UsersStep (newId : String) :
    AccountOp Token Hash → List User → List User → Prop where
  | same (op : AccountOp Token Hash) (users : List User) : UsersStep newId op users users
  | inserted {email passwordHash name : String} {users : List User}
      (hfresh : ∀ u ∈ users, u.id ≠ newId ∧ u.email ≠ email) :
      UsersStep newId (.insertUser email passwordHash name) users
        (users ++ [⟨newId, email, some passwordHash, name, none, false⟩])
  | saved {user : UserView} {users : List User} {row : User}
      (hrow : lookup User.id user.id users = some row)
      (hemail : ∀ u ∈ users, u.id = user.id ∨ u.email ≠ user.email) :
      UsersStep newId (.saveUser user) users (replace User.id (overwrite row user) users)
  | passwordSet (id passwordHash : String) (users : List User) :
      UsersStep newId (.updatePassword id passwordHash) users
        (users.map (setPassword id passwordHash))

theorem insertRow_ok {users users' : List User} {newId email passwordHash name : String}
    {user : User} (h : insertRow users newId email passwordHash name = .ok (users', user)) :
    (∀ u ∈ users, u.id ≠ newId ∧ u.email ≠ email) ∧ users' = users ++ [user] ∧
      user = ⟨newId, email, some passwordHash, name, none, false⟩ := by
  unfold insertRow at h
  dsimp only at h
  split at h
  · next hfresh =>
      cases h
      rw [Bool.and_eq_true] at hfresh
      exact ⟨by simpa using hfresh.2, rfl, rfl⟩
  · cases h

theorem saveRow_ok {users users' : List User} {user user' : UserView}
    (h : saveRow users user = .ok (users', user')) :
    ∃ row, lookup User.id user.id users = some row ∧
      (∀ u ∈ users, u.id = user.id ∨ u.email ≠ user.email) ∧
      users' = replace User.id (overwrite row user) users ∧ user' = user := by
  unfold saveRow at h
  cases hrow : lookup User.id user.id users with
  | none =>
      rw [hrow] at h
      cases h
  | some row =>
      rw [hrow] at h
      dsimp only at h
      split at h
      · next hemail =>
          cases h
          exact ⟨row, rfl, by simpa using hemail, rfl, rfl⟩
      · cases h

section Exec

variable [DecidableEq Hash] (lib : Bcrypt Token Hash)

/-- No session call touches the users. -/
theorem auth_exec_users (ω : PlatformAuth.Choice) (op : PlatformAuth.AuthOp Token Hash)
    (s : AuthState Hash) : (PlatformAuth.exec lib.toAuthLibrary ω op s).1.users = s.users := by
  cases op with
  | insert n =>
      unfold PlatformAuth.exec
      dsimp only
      split <;> rfl
  | signAsync secret expiresIn payload => cases secret <;> rfl
  | _ => rfl

theorem exec_users (d : Decision) (op : AccountOp Token Hash) (s : AccountState Hash) :
    UsersStep d.choice.newId op s.users (exec lib d op s).1.users := by
  unfold exec
  cases d.fault with
  | some e => exact .same op s.users
  | none =>
      cases op with
      | auth op =>
          show UsersStep _ _ s.users (PlatformAuth.exec _ d.choice op s.auth).1.users
          rw [auth_exec_users]
          exact .same _ _
      | insertUser email passwordHash name =>
          show UsersStep _ _ s.users ((s.wait d).commit _).1.users
          cases h : insertRow s.users d.choice.newId email passwordHash name with
          | error e => exact .same _ _
          | ok out =>
              obtain ⟨hfresh, hout, hrow⟩ := insertRow_ok h
              show UsersStep _ _ s.users out.1
              rw [hout, hrow]
              exact .inserted hfresh
      | saveUser user =>
          show UsersStep _ _ s.users ((s.wait d).commit _).1.users
          cases h : saveRow s.users user with
          | error e => exact .same _ _
          | ok out =>
              obtain ⟨row, hrow, hemail, hout, -⟩ := saveRow_ok h
              show UsersStep _ _ s.users out.1
              rw [hout]
              exact .saved hrow hemail
      | updatePassword id passwordHash => exact .passwordSet id passwordHash s.users
      | _ => exact .same _ _

end Exec

/-- The two keys of the table. -/
structure Keyed (users : List User) : Prop where
  ids : Unique User.id users
  emails : Unique User.email users

theorem setPassword_id (id passwordHash : String) (u : User) :
    (setPassword id passwordHash u).id = u.id := by
  unfold setPassword
  split <;> rfl

theorem setPassword_email (id passwordHash : String) (u : User) :
    (setPassword id passwordHash u).email = u.email := by
  unfold setPassword
  split <;> rfl

theorem map_setPassword {κ : Type} {f : User → κ} {id passwordHash : String}
    (hf : ∀ u, f (setPassword id passwordHash u) = f u) (users : List User) :
    (users.map (setPassword id passwordHash)).map f = users.map f := by
  rw [List.map_map]
  exact List.map_congr_left fun u _ => hf u

/-- An overwritten row whose e-mail no other row has. -/
theorem unique_email_replace {users : List User} (hkeyed : Keyed users) {o : User}
    (hemail : ∀ u ∈ users, u.id = o.id ∨ u.email ≠ o.email) :
    Unique User.email (replace User.id o users) := by
  obtain ⟨hids, hemails⟩ := hkeyed
  induction users with
  | nil => exact hemails
  | cons hd rest ih =>
      obtain ⟨hhd, hrest⟩ := List.nodup_cons.mp hemails
      obtain ⟨hhdid, hrestid⟩ := List.nodup_cons.mp hids
      have ih := ih (fun u hu => hemail u (List.mem_cons_of_mem _ hu)) hrestid hrest
      show ((if hd.id = o.id then o else hd) :: replace User.id o rest |>.map User.email).Nodup
      rw [List.map_cons, List.nodup_cons]
      refine ⟨?_, ih⟩
      intro hmem
      obtain ⟨r, hr, hre⟩ := List.mem_map.mp hmem
      rcases mem_replace.mp hr with ⟨rfl, r', hr', hid⟩ | ⟨hr, hid⟩
      · -- the row itself is further back, so the head is another row
        have hne : hd.id ≠ r.id :=
          fun h => hhdid (List.mem_map.mpr ⟨r', hr', hid.trans h.symm⟩)
        rw [if_neg hne] at hre
        exact (hemail hd (List.mem_cons_self ..)).elim hne fun h => h hre.symm
      · by_cases h : hd.id = o.id
        · rw [if_pos h] at hre
          exact (hemail r (List.mem_cons_of_mem _ hr)).elim hid fun h => h hre
        · rw [if_neg h] at hre
          exact hhd (List.mem_map.mpr ⟨r, hr, hre⟩)

theorem UsersStep.keyed {newId : String} {op : AccountOp Token Hash} {users users' : List User}
    (h : UsersStep newId op users users') (hk : Keyed users) : Keyed users' := by
  cases h with
  | same => exact hk
  | inserted hfresh =>
      refine ⟨hk.ids.append ?_, hk.emails.append ?_⟩
      · exact lookup_eq_none.mpr fun u hu => (hfresh u hu).1
      · exact lookup_eq_none.mpr fun u hu => (hfresh u hu).2
  | saved hrow hemail =>
      obtain ⟨-, hid⟩ := lookup_mem hrow
      refine ⟨hk.ids.replace _, unique_email_replace hk ?_⟩
      intro u hu
      rcases hemail u hu with h | h
      · exact Or.inl (h.trans hid.symm)
      · exact Or.inr h
  | passwordSet id passwordHash =>
      refine ⟨?_, ?_⟩
      · show ((users.map (setPassword id passwordHash)).map User.id).Nodup
        rw [map_setPassword (setPassword_id id passwordHash)]
        exact hk.ids
      · show ((users.map (setPassword id passwordHash)).map User.email).Nodup
        rw [map_setPassword (setPassword_email id passwordHash)]
        exact hk.emails

/-- Some row has this id and this e-mail. -/
def HasAccount (users : List User) (id email : String) : Prop :=
  ∃ u ∈ users, u.id = id ∧ u.email = email

/-- A row stays a row of its user, unless an object with another e-mail is saved. -/
theorem UsersStep.hasAccount {newId id email : String} {op : AccountOp Token Hash}
    {users users' : List User} (h : UsersStep newId op users users')
    (hsave : ∀ v, op = .saveUser v → HasAccount users v.id v.email) (hk : Keyed users)
    (ha : HasAccount users id email) : HasAccount users' id email := by
  obtain ⟨u, hu, rfl, rfl⟩ := ha
  cases h with
  | same => exact ⟨u, hu, rfl, rfl⟩
  | inserted hfresh => exact ⟨u, List.mem_append_left _ hu, rfl, rfl⟩
  | saved hrow hemail =>
      rename_i v row
      obtain ⟨hmem, hid⟩ := lookup_mem hrow
      obtain ⟨w, hw, hwid, hwemail⟩ := hsave v rfl
      by_cases hsame : u.id = row.id
      · have huw : u = w := hk.ids.eq_of_key hu hw (hsame.trans (hid.trans hwid.symm))
        refine ⟨overwrite row v, mem_replace.mpr (Or.inl ⟨rfl, row, hmem, rfl⟩),
          hsame.symm, ?_⟩
        rw [huw]
        exact hwemail.symm
      · exact ⟨u, mem_replace.mpr (Or.inr ⟨hu, hsame⟩), rfl, rfl⟩
  | passwordSet id' passwordHash =>
      exact ⟨setPassword id' passwordHash u, List.mem_map.mpr ⟨u, hu, rfl⟩,
        setPassword_id id' passwordHash u, setPassword_email id' passwordHash u⟩

/-! ## What the calls know -/

/-- What an answer tells a call: a user found under an e-mail, the hash of a password,
    a user with its password, a password that matches a hash. -/
inductive Told where
  | found (email : String) (user : UserView)
  | hashed (plain hash : String)
  | account (email : String) (user : User)
  | matched (plain hash : String)

/-- What the answers teach. -/
inductive Teaches : (op : AccountOp Token Hash) → op.Res → Told → Prop where
  | byEmail {email : String} {user : UserView} :
      Teaches (.findByEmail email) (.ok (some user)) (.found email user)
  | byId {id : String} {user : UserView} :
      Teaches (.findById id) (.ok (some user)) (.found user.email user)
  | hash {plain hash : String} : Teaches (.hashPassword plain) (.ok hash) (.hashed plain hash)
  | withPassword {email : String} {user : User} :
      Teaches (.auth (.findByEmailWithPassword email)) (.ok (some user)) (.account email user)
  | isMatch {plain hash : String} :
      Teaches (.auth (.bcryptCompare plain hash)) (.ok true) (.matched plain hash)

/-- What a call of these has been told when it writes to the users. -/
def Grounds (calls : AccountCall Token → Prop) (K : Told → Prop) :
    AccountOp Token Hash → Prop
  | .insertUser email passwordHash name =>
      ∃ plain, calls (.signup email plain name) ∧ K (.hashed plain passwordHash)
  | .saveUser user =>
      ∃ email loaded, K (.found email loaded) ∧ user.id = loaded.id ∧
        user.email = loaded.email ∧ (loaded.isVerified = true → user.isVerified = true)
  | .updatePassword id passwordHash =>
      ∃ email code plain loaded, calls (.resetPassword email code plain) ∧
        8 ≤ utf16Length code ∧ K (.found email loaded) ∧ loaded.id = id ∧
        K (.hashed plain passwordHash)
  | _ => True

/-- What a program needs to know for its operations, and what the answers tell it. -/
def accountLearning (calls : AccountCall Token → Prop) :
    Learning (AccountOp Token Hash) AccountOp.Res Told where
  needs := Grounds calls
  learns _ := Teaches

/-- What a call has been told when it returns. -/
def Proves (call : AccountCall Token) (_ : AccountReply Token) (K : Told → Prop) : Prop :=
  match call with
  | .session (.login email plain _ _) =>
      ∃ user, K (.account email user) ∧ K (.matched plain (user.password.getD ""))
  | _ => True

section Informed

variable {α : Type} {calls : AccountCall Token → Prop} {K : Told → Prop}

theorem informed_ask {Q : α → (Told → Prop) → Prop} {op : AccountOp Token Hash}
    {f : op.Answer → AccountProg Token Hash α} (hneeds : Grounds calls K op)
    (hf : ∀ a, Informed (accountLearning calls) Q
      (fun x => K x ∨ Teaches op (.ok a) x) (f a)) :
    Informed (accountLearning calls) Q K (ask op >>= f) := by
  refine ⟨hneeds, ?_⟩
  intro r
  cases r with
  | error e => trivial
  | ok a => exact hf a

theorem informed_auditLog {Q : α → (Told → Prop) → Prop} {action userId email : String}
    {f : Unit → AccountProg Token Hash α}
    (hf : ∀ K', (∀ x, K x → K' x) → Informed (accountLearning calls) Q K' (f ())) :
    Informed (accountLearning calls) Q K (auditLog action userId email >>= f) := by
  refine ⟨trivial, ?_⟩
  intro r
  cases r with
  | error e => exact hf _ fun x hx => Or.inl hx
  | ok a => exact hf _ fun x hx => Or.inl hx

/-- The session calls leave the users alone. -/
theorem onlyIssues_liftAuth
    (p : Prog (PlatformAuth.AuthOp Token Hash) PlatformAuth.AuthOp.Res HttpError α) :
    OnlyIssues (fun op => ∃ o, op = AccountOp.auth o) (liftAuth p) := by
  induction p with
  | done a => trivial
  | fail e => trivial
  | await op k ih =>
      refine ⟨⟨op, rfl⟩, ?_⟩
      intro r
      cases r with
      | error e => trivial
      | ok a => exact ih a

theorem informed_findById {Q : UserView → (Told → Prop) → Prop} {id : String}
    (hQ : ∀ user K', (∀ x, K x → K' x) → K' (.found user.email user) → Q user K') :
    Informed (accountLearning calls : Learning (AccountOp Token Hash) _ _) Q K
      (findById id) := by
  refine informed_ask trivial ?_
  intro user
  cases user with
  | none => trivial
  | some user => exact hQ user _ (fun x hx => Or.inl hx) (Or.inr .byId)

theorem informed_updateProfile {Q : UserView → (Told → Prop) → Prop} {id : String}
    {updateData : ProfileData} (hQ : ∀ user K', (∀ x, K x → K' x) → Q user K') :
    Informed (accountLearning calls : Learning (AccountOp Token Hash) _ _) Q K
      (updateProfile id updateData) := by
  refine (informed_findById (Q := fun user K' => (∀ x, K x → K' x) ∧
    K' (.found user.email user)) fun user K' hK hfound => ⟨hK, hfound⟩).bind ?_
  rintro user K' hK ⟨hold, hfound⟩
  refine ⟨⟨user.email, user, hfound, rfl, rfl, fun h => h⟩, ?_⟩
  intro r
  cases r with
  | error e => trivial
  | ok saved => exact hQ saved _ fun x hx => Or.inl (hold x hx)

theorem informed_setVerified {Q : Unit → (Told → Prop) → Prop} {email : String}
    (hQ : ∀ K', (∀ x, K x → K' x) → Q () K') :
    Informed (accountLearning calls : Learning (AccountOp Token Hash) _ _) Q K
      (setVerified email) := by
  refine informed_ask trivial ?_
  intro user
  cases user with
  | none => trivial
  | some user =>
      refine informed_ask ⟨email, user, Or.inr .byEmail, rfl, rfl, fun _ => rfl⟩ ?_
      exact fun saved => hQ _ fun x hx => Or.inl (Or.inl hx)

theorem informed_createUser {Q : User → (Told → Prop) → Prop} {email plain name : String}
    (hcall : calls (.signup email plain name))
    (hQ : ∀ user K', (∀ x, K x → K' x) → Q user K') :
    Informed (accountLearning calls : Learning (AccountOp Token Hash) _ _) Q K
      (createUser email plain name) := by
  refine informed_ask trivial ?_
  intro existing
  cases existing with
  | some user => trivial
  | none =>
      refine informed_ask trivial ?_
      intro passwordHash
      refine ⟨⟨plain, hcall, Or.inr .hash⟩, ?_⟩
      intro r
      cases r with
      | error e => trivial
      | ok user => exact hQ user _ fun x hx => Or.inl (Or.inl (Or.inl hx))

theorem informed_any {p : AccountProg Token Hash α} {Q : α → (Told → Prop) → Prop}
    (hp : Informed (accountLearning calls) (fun _ _ => True) K p) (hQ : ∀ a K', Q a K') :
    Informed (accountLearning calls) Q K p :=
  hp.mono fun a K' _ => hQ a K'

/-- A login returns only after the password matched what it found. -/
theorem informed_login [DecidableEq Hash] (lib : Bcrypt Token Hash)
    (email plain : String) (device ip : Option String) :
    Informed (accountLearning calls)
      (fun _ K' => ∃ user, K' (.account email user) ∧
        K' (.matched plain (user.password.getD ""))) K
      (liftAuth (PlatformAuth.login lib.toAuthLibrary email plain device ip)) := by
  refine informed_ask trivial ?_
  intro user
  cases user with
  | none => trivial
  | some user =>
      refine informed_ask trivial ?_
      intro isMatch
      cases isMatch with
      | false => trivial
      | true =>
          -- what it has been told by now is all that it has to know in the end
          have hrest : ∀ (p : Prog (PlatformAuth.AuthOp Token Hash) PlatformAuth.AuthOp.Res
              HttpError (AuthReply Token)) (K' : Told → Prop), K' (.account email user) →
              K' (.matched plain (user.password.getD "")) →
              Informed (accountLearning calls)
                (fun _ K' => ∃ user, K' (.account email user) ∧
                  K' (.matched plain (user.password.getD ""))) K' (liftAuth p) := by
            intro p
            induction p with
            | done a => exact fun K' hu hm => ⟨user, hu, hm⟩
            | fail e => exact fun K' hu hm => trivial
            | await op k ih =>
                intro K' hu hm
                exact informed_ask trivial fun a => ih a _ (Or.inl hu) (Or.inl hm)
          exact hrest _ _ (Or.inl (Or.inr .withPassword)) (Or.inr .isMatch)

/-- Every call acts on what it has been told. -/
theorem informed_call [DecidableEq Hash] (lib : Bcrypt Token Hash) {call : AccountCall Token}
    (hcall : calls call) :
    Informed (accountLearning calls) (Proves call) K (call.prog lib) := by
  cases call with
  | signup email plain name =>
      refine (informed_createUser (Q := fun _ _ => True) hcall fun _ _ _ => trivial).bind ?_
      intro user K' _ _
      refine informed_ask trivial fun code => informed_ask trivial fun _ => ?_
      exact informed_auditLog fun _ _ => trivial
  | verifyEmail email code =>
      show Informed _ _ _ (verifyEmail email code)
      unfold verifyEmail
      split
      · trivial
      · refine (informed_setVerified (Q := fun _ _ => True) fun _ _ => trivial).bind ?_
        intro _ K' _ _
        refine informed_ask trivial ?_
        intro user
        cases user with
        | none => trivial
        | some user => exact informed_auditLog fun _ _ => trivial
  | requestPasswordReset email =>
      refine informed_ask trivial ?_
      intro user
      cases user with
      | none => trivial
      | some user => exact informed_ask trivial fun code => informed_ask trivial fun _ => trivial
  | resetPassword email code plain =>
      show Informed _ _ _ (resetPassword email code plain)
      unfold resetPassword
      split
      · trivial
      · next hcode =>
          refine informed_ask trivial ?_
          intro user
          cases user with
          | none => trivial
          | some user =>
              refine informed_ask trivial fun passwordHash => ?_
              refine (informed_updateProfile
                (Q := fun _ K' => K' (.found email user) ∧ K' (.hashed plain passwordHash))
                fun _ K' hK => ⟨hK _ (Or.inl (Or.inr .byEmail)), hK _ (Or.inr .hash)⟩).bind ?_
              rintro saved K' _ ⟨hfound, hhashed⟩
              refine informed_ask ⟨email, code, plain, user, hcall, ?_, hfound, rfl, hhashed⟩ ?_
              · exact Nat.le_of_not_lt hcode
              · exact fun _ => informed_auditLog fun _ _ => trivial
  | getProfile id => exact Informed.map (informed_findById fun _ _ _ _ => trivial)
  | updateProfile id updateData => exact Informed.map (informed_updateProfile fun _ _ _ => trivial)
  | session call =>
      have hother : Informed (accountLearning calls) (fun _ _ => True) K
          (liftAuth (call.prog lib.toAuthLibrary)) :=
        (onlyIssues_liftAuth _).informed (by rintro K' _ ⟨o, rfl⟩; trivial) K
      refine Informed.map ?_
      cases call with
      | login email plain device ip => exact informed_login lib email plain device ip
      | refresh token => exact informed_any hother fun _ _ => trivial
      | logout token userId => exact informed_any hother fun _ _ => trivial
      | revokeSession id userId => exact informed_any hother fun _ _ => trivial

end Informed

/-! ## What stays true of the accounts -/

section Accounts

variable [DecidableEq Hash] (lib : Bcrypt Token Hash) (calls : AccountCall Token → Prop)
  (users₀ : List User)

/-- A call sets the password of an e-mail: its signup, or a reset with a code that the
    service takes. -/
def SetsPassword (email plain : String) : Prop :=
  (∃ name, calls (.signup email plain name)) ∨
    ∃ code, 8 ≤ utf16Length code ∧ calls (.resetPassword email code plain)

/-- Where the password of a row comes from: it was there before, or one of the calls has
    set it. -/
def Origin (email : String) (password : Option String) : Prop :=
  (∃ u ∈ users₀, u.email = email ∧ u.password = password) ∨
    ∃ plain salt, SetsPassword calls email plain ∧ password = some (lib.hash salt plain)

/-- The invariant of the table, from the users that were there before. -/
structure Sane (s : AccountState Hash) : Prop where
  keyed : Keyed s.users
  kept : ∀ u ∈ users₀, HasAccount s.users u.id u.email
  origin : ∀ u ∈ s.users, Origin lib calls users₀ u.email u.password

/-- What a call has been told is so. -/
def Holds (s : AccountState Hash) : Told → Prop
  | .found email user => user.email = email ∧ HasAccount s.users user.id email
  | .hashed plain hash => ∃ salt, hash = lib.hash salt plain
  | .account email user => user.email = email ∧ Origin lib calls users₀ email user.password
  | .matched plain hash => lib.compare plain hash = true

variable {lib calls users₀}

omit [DecidableEq Hash] in
theorem sane_start {s : AccountState Hash} (h : Keyed s.users) : Sane lib calls s.users s where
  keyed := h
  kept := fun u hu => ⟨u, hu, rfl, rfl⟩
  origin := fun u hu => Or.inl ⟨u, hu, rfl, rfl⟩

omit [DecidableEq Hash] in
theorem UsersStep.origin {newId : String} {op : AccountOp Token Hash} {s : AccountState Hash}
    {users' : List User} (h : UsersStep newId op s.users users')
    (hs : Sane lib calls users₀ s) {K : Told → Prop}
    (hK : ∀ x, K x → Holds lib calls users₀ s x) (hg : Grounds calls K op) :
    ∀ u ∈ users', Origin lib calls users₀ u.email u.password := by
  intro u hu
  cases h with
  | same => exact hs.origin u hu
  | inserted hfresh =>
      rcases List.mem_append.mp hu with hu | hu
      · exact hs.origin u hu
      · obtain ⟨plain, hcall, hhashed⟩ := hg
        obtain ⟨salt, rfl⟩ := hK _ hhashed
        rw [List.mem_singleton.mp hu]
        exact Or.inr ⟨plain, salt, Or.inl ⟨_, hcall⟩, rfl⟩
  | saved hrow hemail =>
      rename_i user row
      rcases mem_replace.mp hu with ⟨rfl, -⟩ | ⟨hu, -⟩
      · -- the e-mail that is written is the one of the row
        obtain ⟨email, loaded, hfound, hid, hloaded, -⟩ := hg
        obtain ⟨rfl, w, hw, hwid, hwemail⟩ := hK _ hfound
        obtain ⟨hmem, hrowid⟩ := lookup_mem hrow
        have hrw : row = w :=
          hs.keyed.ids.eq_of_key hmem hw (hrowid.trans (hid.trans hwid.symm))
        have := hs.origin row hmem
        rw [hrw, hwemail, ← hloaded, ← hrw] at this
        exact this
      · exact hs.origin u hu
  | passwordSet id passwordHash =>
      obtain ⟨w, hw, rfl⟩ := List.mem_map.mp hu
      by_cases hid : w.id = id
      · obtain ⟨email, code, plain, loaded, hcall, hcode, hfound, hloaded, hhashed⟩ := hg
        obtain ⟨-, v, hv, hvid, hvemail⟩ := hK _ hfound
        obtain ⟨salt, rfl⟩ := hK _ hhashed
        have hwv : w = v :=
          hs.keyed.ids.eq_of_key hw hv (hid.trans (hloaded.symm.trans hvid.symm))
        rw [setPassword_email, hwv, hvemail, ← hwv]
        refine Or.inr ⟨plain, salt, Or.inr ⟨code, hcode, hcall⟩, ?_⟩
        rw [setPassword, if_pos hid]
      · rw [setPassword, if_neg hid]
        exact hs.origin w hw

/-- An answer is one of an operation that was carried out. -/
theorem exec_of_ok {d : Decision} {op : AccountOp Token Hash} {s : AccountState Hash}
    {a : op.Answer} (h : (exec lib d op s).2 = .ok a) : exec lib d op s = carryOut lib d op s := by
  unfold exec at h ⊢
  cases hd : d.fault with
  | some e =>
      rw [hd] at h
      cases h
  | none => rfl

/-- What an answer teaches was so when it was given. -/
theorem exec_teaches {s : AccountState Hash} (hs : Sane lib calls users₀ s) (d : Decision)
    (op : AccountOp Token Hash) {x : Told} (hx : Teaches op (exec lib d op s).2 x) :
    Holds lib calls users₀ s x := by
  generalize hr : (exec lib d op s).2 = r at hx
  cases hx with
  | byEmail =>
      rename_i email user
      rw [exec_of_ok hr] at hr
      obtain ⟨u, hu, rfl⟩ := Option.map_eq_some_iff.mp (Except.ok.inj hr)
      have hemail : u.email = email := by simpa using List.find?_some hu
      exact ⟨hemail, u, List.mem_of_find?_eq_some hu, rfl, hemail⟩
  | byId =>
      rw [exec_of_ok hr] at hr
      obtain ⟨u, hu, rfl⟩ := Option.map_eq_some_iff.mp (Except.ok.inj hr)
      exact ⟨rfl, u, (lookup_mem hu).1, rfl, rfl⟩
  | hash =>
      rw [exec_of_ok hr] at hr
      exact ⟨d.random, (Except.ok.inj hr).symm⟩
  | withPassword =>
      rename_i email u
      rw [exec_of_ok hr] at hr
      have hu : s.users.find? (fun u => u.email = email) = some u := Except.ok.inj hr
      have hemail : u.email = email := by simpa using List.find?_some hu
      exact ⟨hemail, hemail ▸ hs.origin u (List.mem_of_find?_eq_some hu)⟩
  | isMatch =>
      rw [exec_of_ok hr] at hr
      exact Except.ok.inj hr

omit [DecidableEq Hash] in
theorem Holds.stays {s s' : AccountState Hash} {x : Told}
    (hstay : ∀ id email, HasAccount s.users id email → HasAccount s'.users id email)
    (h : Holds lib calls users₀ s x) : Holds lib calls users₀ s' x := by
  cases x with
  | found email user => exact ⟨h.1, hstay _ _ h.2⟩
  | hashed plain hash => exact h
  | account email user => exact h
  | matched plain hash => exact h

omit [DecidableEq Hash] in
theorem hasAccount_of_grounds {s : AccountState Hash} {K : Told → Prop}
    (hK : ∀ x, K x → Holds lib calls users₀ s x) {user : UserView}
    (hg : Grounds calls K (.saveUser user : AccountOp Token Hash)) :
    HasAccount s.users user.id user.email := by
  obtain ⟨email, loaded, hfound, hid, hemail, -⟩ := hg
  obtain ⟨rfl, hhas⟩ := hK _ hfound
  rw [hid, hemail]
  exact hhas

/-- Every operation keeps the accounts, when it is issued on the grounds that it needs. -/
theorem accounts_sound :
    Sound (exec lib) (accountLearning calls) (Holds lib calls users₀)
      (Sane lib calls users₀) (fun _ _ => True) where
  keep := by
    intro d op s K hs hK hg _
    have hstep := exec_users lib d op s
    have hstay : ∀ id email, HasAccount s.users id email →
        HasAccount (exec lib d op s).1.users id email := fun id email =>
      hstep.hasAccount (fun v hv => hasAccount_of_grounds hK (hv ▸ hg)) hs.keyed
    refine ⟨⟨hstep.keyed hs.keyed, ?_, hstep.origin hs hK hg⟩, ?_, ?_⟩
    · exact fun u hu => hstay _ _ (hs.kept u hu)
    · exact fun x hx => hx.stays hstay
    · exact fun x hx => (exec_teaches hs d op hx).stays hstay

end Accounts

end PlatformAccounts
