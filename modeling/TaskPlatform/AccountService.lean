import TaskPlatform.AnswerHistory
import TaskPlatform.AuthService
import TaskPlatform.FailedRequests

/-! # `UsersService` and the account side of `AuthService`

    `signup`, `verifyEmail`, `requestPasswordReset` and `resetPassword` of
    `src/modules/auth/auth.service.ts` with the functions of
    `src/modules/users/users.service.ts` under them, next to the session calls that use
    the same `users` table.  Any awaited call may fail.

    bcrypt comes in as a parameter: a hash carries its salt, and `compare` looks at what
    bcrypt reads of a password (`significant`, its first 72 bytes). -/

namespace PlatformAccounts

open AsyncProgram PlatformEntities RowTable
open PlatformAuth (AuthLibrary AuthOp AuthState AuthReply AuthCall)

/-- bcrypt as the services use it. -/
structure Bcrypt (Token Hash : Type) extends AuthLibrary Token Hash where
  hash : String → String → String
  significant : String → List UInt8
  compare_hash : ∀ salt plain given,
    compare given (hash salt plain) = decide (significant given = significant plain)

/-- The `updateData` of a profile: a field is absent or has a value. -/
structure ProfileData where
  name : Option String := none
  avatar : Option (Option String) := none
  deriving DecidableEq

/-- The two assignments of `updateProfile`. -/
def ProfileData.assign (updateData : ProfileData) (user : UserView) : UserView :=
  { user with
    name := updateData.name.getD user.name
    avatar := updateData.avatar.getD user.avatar }

/-- The jobs of `email.queue`. -/
inductive EmailJob where
  | sendVerification (email name code : String)
  | sendPasswordReset (email code : String)
  deriving DecidableEq, Repr

/-! ## Operations -/

/-- What the user service and the sign-up calls await. -/
inductive AccountOp (Token Hash : Type) where
  /-- What the session calls await. -/
  | auth (op : AuthOp Token Hash)
  | findByEmail (email : String)
  | findById (id : String)
  /-- `bcrypt.genSalt` and `bcrypt.hash`. -/
  | hashPassword (plain : String)
  | insertUser (email passwordHash name : String)
  | saveUser (user : UserView)
  /-- `userRepo.update({ id }, { password })`. -/
  | updatePassword (id passwordHash : String)
  | randomBytes
  | addEmail (job : EmailJob)
  | addAudit (action userId email : String)

/-- What an operation answers when it does not fail. -/
abbrev AccountOp.Answer {Token Hash : Type} : AccountOp Token Hash → Type
  | .auth op => op.Res
  | .findByEmail _ => Option UserView
  | .findById _ => Option UserView
  | .hashPassword _ => String
  | .insertUser _ _ _ => User
  | .saveUser _ => UserView
  | .updatePassword _ _ => Unit
  | .randomBytes => String
  | .addEmail _ => Unit
  | .addAudit _ _ _ => Unit

/-- Every operation may fail. -/
abbrev AccountOp.Res {Token Hash : Type} (op : AccountOp Token Hash) : Type :=
  Except HttpError op.Answer

/-- The methods of the services, as programs over these operations. -/
abbrev AccountProg (Token Hash : Type) := Prog (AccountOp Token Hash) AccountOp.Res HttpError

section Programs

variable {Token Hash : Type}

/-- Await one operation; what it throws is thrown on. -/
def ask (op : AccountOp Token Hash) : AccountProg Token Hash op.Answer :=
  .await op fun r => Prog.orThrow r

/-- A program of the session calls. -/
def liftAuth {α : Type} (p : Prog (AuthOp Token Hash) AuthOp.Res HttpError α) :
    AccountProg Token Hash α := p.expand fun op => ask (.auth op)

/-! ## The programs -/

/-- `AuditService.log`. -/
def auditLog (action userId email : String) : AccountProg Token Hash Unit :=
  (ask (.addAudit action userId email)).catching fun _ => .done ()

/-- `UserService.create`: one account for an e-mail address. -/
def createUser (email passwordPlain name : String) : AccountProg Token Hash User := do
  let existing ← ask (.findByEmail email)
  match existing with
  | some _ => .fail (.conflict "A user with this email address already exists")
  | none => do
      let passwordHash ← ask (.hashPassword passwordPlain)
      ask (.insertUser email passwordHash name)

/-- `UserService.findById`. -/
def findById (id : String) : AccountProg Token Hash UserView := do
  let user ← ask (.findById id)
  match user with
  | none => .fail (.notFound "User not found")
  | some user => .done user

/-- `UserService.updateProfile`. -/
def updateProfile (id : String) (updateData : ProfileData) :
    AccountProg Token Hash UserView := do
  let user ← findById id
  ask (.saveUser (updateData.assign user))

/-- `UserService.setVerified`: the row is loaded, marked and saved. -/
def setVerified (email : String) : AccountProg Token Hash Unit := do
  let user ← ask (.findByEmail email)
  match user with
  | none => .fail (.notFound "User not found")
  | some user => do
      let _ ← ask (.saveUser { user with isVerified := true })
      .done ()

/-- What the calls return. -/
inductive AccountReply (Token : Type) where
  | signedUp (userId email name : String) (isVerified : Bool) (message : String)
  | profile (user : UserView)
  | success (message : String)
  | session (reply : AuthReply Token)
  deriving DecidableEq, Repr

/-- `signup`.  The code goes into the e-mail and nowhere else. -/
def signup (email passwordPlain name : String) :
    AccountProg Token Hash (AccountReply Token) := do
  let user ← createUser email passwordPlain name
  let verificationCode ← ask .randomBytes
  ask (.addEmail (.sendVerification email name verificationCode))
  auditLog "SIGNUP" user.id email
  .done (.signedUp user.id user.email user.name user.isVerified
    "Registration successful. Verification email enqueued.")

/-- `verifyEmail`.  Of the code only the length is looked at. -/
def verifyEmail (email code : String) : AccountProg Token Hash (AccountReply Token) :=
  if utf16Length code < 8 then
    .fail (.badRequest "Invalid email verification code")
  else do
    setVerified email
    let user ← ask (.findByEmail email)
    match user with
    | some user => do
        auditLog "EMAIL_VERIFIED" user.id email
        .done (.success "Email verified successfully")
    | none => .done (.success "Email verified successfully")

/-- `requestPasswordReset`.  The answer is the same whether there is an account or not. -/
def requestPasswordReset (email : String) : AccountProg Token Hash (AccountReply Token) := do
  let user ← ask (.findByEmail email)
  match user with
  | none =>
      .done (.success "If the email exists, a password reset link has been sent.")
  | some _ => do
      let resetCode ← ask .randomBytes
      ask (.addEmail (.sendPasswordReset email resetCode))
      .done (.success "If the email exists, a password reset link has been sent.")

/-- `resetPassword`.  Of the code only the length is looked at; the profile is saved as it
    was found before the password is written. -/
def resetPassword (email code passwordPlain : String) :
    AccountProg Token Hash (AccountReply Token) :=
  if utf16Length code < 8 then
    .fail (.badRequest "Invalid or expired reset code")
  else do
    let user ← ask (.findByEmail email)
    match user with
    | none => .fail (.unauthorized "User not found")
    | some user => do
        let passwordHash ← ask (.hashPassword passwordPlain)
        let _ ← updateProfile user.id {}
        ask (.updatePassword user.id passwordHash)
        auditLog "PASSWORD_RESET" user.id email
        .done (.success "Password has been reset successfully")

/-- The calls a client can make. -/
inductive AccountCall (Token : Type) where
  | signup (email passwordPlain name : String)
  | verifyEmail (email code : String)
  | requestPasswordReset (email : String)
  | resetPassword (email code passwordPlain : String)
  | getProfile (id : String)
  | updateProfile (id : String) (updateData : ProfileData)
  | session (call : AuthCall Token)

variable [DecidableEq Hash] (lib : Bcrypt Token Hash)

/-- The method behind each call. -/
def AccountCall.prog : AccountCall Token → AccountProg Token Hash (AccountReply Token)
  | .signup e p n => PlatformAccounts.signup e p n
  | .verifyEmail e c => PlatformAccounts.verifyEmail e c
  | .requestPasswordReset e => PlatformAccounts.requestPasswordReset e
  | .resetPassword e c p => PlatformAccounts.resetPassword e c p
  | .getProfile id => .profile <$> PlatformAccounts.findById id
  | .updateProfile id d => .profile <$> PlatformAccounts.updateProfile id d
  | .session call => .session <$> liftAuth (call.prog lib.toAuthLibrary)

end Programs

/-! ## The world -/

/-- The users and sessions, and the jobs of the e-mail queue. -/
structure AccountState (Hash : Type) where
  auth : AuthState Hash
  emails : List EmailJob

/-- What the outside world decides at an await: the same as for the session calls, what
    `bcrypt.genSalt` and `crypto.randomBytes` draw, and the error that the call ends in
    if it fails. -/
structure Decision where
  choice : PlatformAuth.Choice := {}
  random : String := ""
  fault : Option HttpError := none

section Exec

variable {Token Hash : Type} [DecidableEq Hash] (lib : Bcrypt Token Hash)

/-- The users are those of the session calls. -/
def AccountState.users (s : AccountState Hash) : List User := s.auth.users

/-- Time passes while an operation is awaited. -/
def AccountState.wait (s : AccountState Hash) (d : Decision) : AccountState Hash :=
  { s with auth := s.auth.wait d.choice.elapsed }

/-- The table of the users replaced. -/
def AccountState.withUsers (s : AccountState Hash) (users : List User) : AccountState Hash :=
  { s with auth := { s.auth with users := users } }

/-- `INSERT` of a user: a generated id, an e-mail that no other user has. -/
def insertRow (users : List User) (newId email passwordHash name : String) :
    Except HttpError (List User × User) :=
  let row : User := ⟨newId, email, some passwordHash, name, none, false⟩
  if newId ≠ "" && users.all (fun u => u.id ≠ newId && u.email ≠ email) then
    .ok (users ++ [row], row)
  else
    .error .queryFailed

/-- The row after the `save` of a loaded user: the columns that were loaded are written
    where they differ, the password was not loaded. -/
def overwrite (row : User) (user : UserView) : User :=
  { row with
    email := user.email
    name := user.name
    avatar := user.avatar
    isVerified := user.isVerified }

/-- `save` of a loaded user.  Without its row it would be an `INSERT` without the
    password, which the column does not allow. -/
def saveRow (users : List User) (user : UserView) : Except HttpError (List User × UserView) :=
  match lookup User.id user.id users with
  | none => .error .queryFailed
  | some row =>
      if users.all (fun u => u.id = user.id || u.email ≠ user.email) then
        .ok (replace User.id (overwrite row user) users, user)
      else
        .error .queryFailed

/-- `UPDATE users SET password = .. WHERE id = ..`. -/
def setPassword (id passwordHash : String) (u : User) : User :=
  if u.id = id then { u with password := some passwordHash } else u

/-- A statement on the users, rejected or carried out. -/
def AccountState.commit {α : Type} (s : AccountState Hash) :
    Except HttpError (List User × α) → AccountState Hash × Except HttpError α
  | .error e => (s, .error e)
  | .ok (users, a) => (s.withUsers users, .ok a)

/-- An operation that does not fail on the way. -/
def carryOut (d : Decision) :
    (op : AccountOp Token Hash) → AccountState Hash → AccountState Hash × op.Res
  | .auth op, s =>
      ({ s with auth := (PlatformAuth.exec lib.toAuthLibrary d.choice op s.auth).1 },
        .ok (PlatformAuth.exec lib.toAuthLibrary d.choice op s.auth).2)
  | .findByEmail email, s =>
      (s.wait d, .ok ((s.users.find? (fun u => u.email = email)).map User.view))
  | .findById id, s => (s.wait d, .ok ((lookup User.id id s.users).map User.view))
  | .hashPassword plain, s => (s.wait d, .ok (lib.hash d.random plain))
  | .insertUser email passwordHash name, s =>
      (s.wait d).commit (insertRow s.users d.choice.newId email passwordHash name)
  | .saveUser user, s => (s.wait d).commit (saveRow s.users user)
  | .updatePassword id passwordHash, s =>
      ((s.wait d).withUsers (s.users.map (setPassword id passwordHash)), .ok ())
  | .randomBytes, s => (s.wait d, .ok d.random)
  | .addEmail job, s => ({ s.wait d with emails := s.emails ++ [job] }, .ok ())
  | .addAudit _ _ _, s => (s.wait d, .ok ())

/-- The operations. -/
def exec (d : Decision) (op : AccountOp Token Hash) (s : AccountState Hash) :
    AccountState Hash × op.Res :=
  match d.fault with
  | some e => (s.wait d, .error e)
  | none => carryOut lib d op s

end Exec

end PlatformAccounts
