import TaskPlatform.AsyncProgram
import TaskPlatform.Entities

/-! # `AuthService`: refresh-token sessions

    `login`, `refresh`, `logout` and `revokeSession` of
    `src/modules/auth/auth.service.ts`, each a program over the operations it
    awaits, and the meaning of these operations on the users and sessions of the
    database under a clock that never runs backwards.

    The JWT library, SHA-256 and bcrypt are not part of the repository; they come
    in as an `AuthLibrary`, with what the service relies on as its laws. -/

namespace PlatformAuth

open AsyncProgram PlatformEntities RowTable

/-- The claims the service signs. -/
structure Payload where
  userId : String
  email : String
  deriving DecidableEq, Repr

/-- The two signing secrets of the configuration. -/
inductive Secret where
  | access
  | refresh
  deriving DecidableEq, Repr

/-- The libraries behind the service, and the lifetimes from the configuration
    (`jwt.accessExpiration`, `jwt.refreshExpiration`) in seconds.

    `signAsync secret expiresIn payload iat` is the token of that payload issued
    in second `iat`; signing is a function of these, and the token carries them
    all.  A token verifies with its own secret until its `exp`. -/
structure AuthLibrary (Token Hash : Type) where
  signAsync : Secret → Nat → Payload → Nat → Token
  verifyAsync : Secret → Token → Nat → Option Payload
  exp : Token → Nat
  sha256 : Token → Hash
  compare : String → String → Bool
  accessExpiration : Nat
  refreshExpiration : Nat
  verify_sign : ∀ secret d p iat now,
    verifyAsync secret (signAsync secret d p iat) now
      = if now < iat + d then some p else none
  exp_sign : ∀ secret d p iat, exp (signAsync secret d p iat) = iat + d
  sign_injective : ∀ secret d p iat p' iat',
    signAsync secret d p iat = signAsync secret d p' iat' → p = p' ∧ iat = iat'

/-- The `where` of a session query; an absent column is not compared. -/
structure SessionWhere (Hash : Type) where
  id : Option String := none
  userId : Option String := none
  tokenHash : Option Hash := none
  isRevoked : Option Bool := none

/-- The columns of a session that `login` creates; the id is generated on
    insert. -/
structure NewSession (Hash : Type) where
  userId : String
  tokenHash : Hash
  deviceFingerprint : Option String
  ipAddress : Option String
  expiresAt : Nat
  isRevoked : Bool

/-- What the service tells the audit queue besides the action and the user. -/
inductive AuditPayload (Hash : Type) where
  | login (deviceFingerprint ipAddress : Option String) (sessionId : String)
  | logout (tokenHash : Hash)
  | securityAlert (message : String) (tokenHash : Hash)
  | sessionRevoked (sessionId : String)

/-- The operations the service awaits. -/
inductive AuthOp (Token Hash : Type) where
  | findByEmailWithPassword (email : String)
  | bcryptCompare (plain hash : String)
  | signAsync (secret : Secret) (expiresIn : Nat) (payload : Payload)
  | verifyAsync (secret : Secret) (token : Token)
  | findOne (w : SessionWhere Hash)
  | insert (session : NewSession Hash)
  | save (session : UserSession Hash)
  | revokeAll (userId : String)
  | auditLog (action : String) (userId : String) (payload : AuditPayload Hash)

/-- The answers. -/
abbrev AuthOp.Res {Token Hash : Type} : AuthOp Token Hash → Type
  | .findByEmailWithPassword _ => Option User
  | .bcryptCompare _ _ => Bool
  | .signAsync _ _ _ => Token
  | .verifyAsync _ _ => Option Payload
  | .findOne _ => Option (UserSession Hash)
  | .insert _ => Except HttpError (UserSession Hash)
  | .save _ => Unit
  | .revokeAll _ => Unit
  | .auditLog _ _ _ => Unit

/-- What the calls return. -/
inductive AuthReply (Token : Type) where
  | loggedIn (accessToken refreshToken : Token) (user : UserView)
  | refreshed (accessToken refreshToken : Token)
  | success (message : String)
  deriving DecidableEq, Repr

/-- The methods of the service, as programs over these operations. -/
abbrev AuthProg (Token Hash : Type) :=
  Prog (AuthOp Token Hash) AuthOp.Res HttpError

/-- Await one operation. -/
abbrev ask {Token Hash : Type} (op : AuthOp Token Hash) :
    AuthProg Token Hash op.Res := Prog.perform op

section Programs

variable {Token Hash : Type} [DecidableEq Hash] (lib : AuthLibrary Token Hash)

/-- `hashToken`: a session row keeps the digest of its token. -/
def hashToken (token : Token) : Hash := lib.sha256 token

/-- `generateAccessToken`. -/
def generateAccessToken (userId email : String) : AuthProg Token Hash Token :=
  ask (.signAsync .access lib.accessExpiration ⟨userId, email⟩)

/-- `generateRefreshToken`: the same claims, another secret and a longer life. -/
def generateRefreshToken (userId email : String) : AuthProg Token Hash Token :=
  ask (.signAsync .refresh lib.refreshExpiration ⟨userId, email⟩)

/-- `login`.  Both failures end in the same words, whether the user exists or not. -/
def login (email passwordPlain : String)
    (deviceFingerprint ipAddress : Option String) :
    AuthProg Token Hash (AuthReply Token) := do
  let user ← ask (.findByEmailWithPassword email)
  match user with
  | none => .fail (.unauthorized "Invalid credentials")
  | some user => do
      let isMatch ← ask (.bcryptCompare passwordPlain (user.password.getD ""))
      match isMatch with
      | false => .fail (.unauthorized "Invalid credentials")
      | true => do
          let accessToken ← generateAccessToken lib user.id user.email
          let refreshToken ← generateRefreshToken lib user.id user.email
          let savedSession ← ask (.insert
            { userId := user.id
              tokenHash := hashToken lib refreshToken
              deviceFingerprint := deviceFingerprint
              ipAddress := ipAddress
              expiresAt := lib.exp refreshToken
              isRevoked := false })
          match savedSession with
          | .error e => .fail e
          | .ok savedSession => do
              ask (.auditLog "LOGIN" user.id
                (.login deviceFingerprint ipAddress savedSession.id))
              .done (.loggedIn accessToken refreshToken user.view)

/-- `logout`.  It succeeds whether there is a session or not. -/
def logout (refreshToken : Token) (userId : String) :
    AuthProg Token Hash (AuthReply Token) := do
  let tokenHash := hashToken lib refreshToken
  let session ← ask
    (.findOne { tokenHash := some tokenHash, userId := some userId })
  match session with
  | some session => do
      ask (.save { session with isRevoked := true })
      ask (.auditLog "LOGOUT" userId (.logout tokenHash))
      .done (.success "Logged out successfully")
  | none => do
      ask (.auditLog "LOGOUT" userId (.logout tokenHash))
      .done (.success "Logged out successfully")

/-- `refresh`.  The session is looked up by the user, not by the token, and only the row
    that comes back is compared. -/
def refresh (refreshToken : Token) : AuthProg Token Hash (AuthReply Token) := do
  let payload ← ask (.verifyAsync .refresh refreshToken)
  match payload with
  | none => .fail (.unauthorized "Invalid refresh token signature")
  | some payload => do
      let tokenHash := hashToken lib refreshToken
      let session ← ask
        (.findOne { userId := some payload.userId, isRevoked := some false })
      match session with
      | none => .fail (.unauthorized "Session not found or revoked")
      | some session =>
          if session.tokenHash ≠ tokenHash then do
            -- the presented token is not the one of the row that came back
            ask (.revokeAll payload.userId)
            ask (.auditLog "SECURITY_ALERT" payload.userId
              (.securityAlert
                "Refresh token reuse detected. Revoked all user sessions." tokenHash))
            .fail (.forbidden
              "Security alert: session compromised. Please login again.")
          else do
            let newAccessToken ← generateAccessToken lib payload.userId payload.email
            let newRefreshToken ← generateRefreshToken lib payload.userId payload.email
            ask (.save { session with
              tokenHash := hashToken lib newRefreshToken
              expiresAt := lib.exp newRefreshToken })
            .done (.refreshed newAccessToken newRefreshToken)

/-- `revokeSession`: one session of the user, by its id. -/
def revokeSession (sessionId userId : String) :
    AuthProg Token Hash (AuthReply Token) := do
  let session ← ask
    (.findOne { id := some sessionId, userId := some userId })
  match session with
  | none => .fail (.badRequest "Session not found")
  | some session => do
      ask (.save { session with isRevoked := true })
      ask (.auditLog "SESSION_REVOKED" userId (.sessionRevoked sessionId))
      .done (.success "Session revoked successfully")

/-- The calls a client can make on its sessions. -/
inductive AuthCall (Token : Type) where
  | login (email passwordPlain : String) (deviceFingerprint ipAddress : Option String)
  | refresh (refreshToken : Token)
  | logout (refreshToken : Token) (userId : String)
  | revokeSession (sessionId userId : String)

/-- The method behind each call. -/
def AuthCall.prog : AuthCall Token → AuthProg Token Hash (AuthReply Token)
  | .login e p d i => PlatformAuth.login lib e p d i
  | .refresh t => PlatformAuth.refresh lib t
  | .logout t u => PlatformAuth.logout lib t u
  | .revokeSession s u => PlatformAuth.revokeSession s u

end Programs

/-! ## The database and the clock -/

/-- One refresh token signed: for whom, and in which second. -/
structure Issue where
  payload : Payload
  iat : Nat
  deriving DecidableEq, Repr

/-- The users, the sessions and the clock (in seconds).  `issued` is the history
    of the refresh tokens signed so far; no program reads it. -/
structure AuthState (Hash : Type) where
  users : List User
  sessions : List (UserSession Hash)
  now : Nat
  issued : List Issue

/-- What the outside world decides at an await: how far the clock has moved,
    which of the matching rows a `findOne` returns, which id an insert
    generates. -/
structure Choice where
  elapsed : Nat := 0
  pick : Nat := 0
  newId : String := ""

section Exec

variable {Token Hash : Type} [DecidableEq Hash] (lib : AuthLibrary Token Hash)

/-- The row meets every condition that the `where` object names. -/
def SessionWhere.matches (w : SessionWhere Hash) (r : UserSession Hash) : Bool :=
  w.id.all (fun x => r.id = x) && w.userId.all (fun x => r.userId = x)
    && w.tokenHash.all (fun x => r.tokenHash = x)
    && w.isRevoked.all (fun x => r.isRevoked = x)

/-- `update({ userId }, { isRevoked: true })`. -/
def revokeRow (userId : String) (r : UserSession Hash) : UserSession Hash :=
  if r.userId = userId then { r with isRevoked := true } else r

/-- The refresh token of an issue. -/
def Issue.token (i : Issue) : Token :=
  lib.signAsync .refresh lib.refreshExpiration i.payload i.iat

/-- Time passes while an operation is awaited. -/
def AuthState.wait (s : AuthState Hash) (elapsed : Nat) : AuthState Hash :=
  { s with now := s.now + elapsed }

/-- Only refresh tokens enter the history. -/
def record (secret : Secret) (payload : Payload) (s : AuthState Hash) :
    AuthState Hash :=
  match secret with
  | .access => s
  | .refresh => { s with issued := s.issued ++ [⟨payload, s.now⟩] }

/-- The operations.  `save` of a loaded session writes the columns in which the
    object differs from the stored row, so the row becomes the object; an insert
    under an id that is taken violates the primary key. -/
def exec (ω : Choice) :
    (op : AuthOp Token Hash) → AuthState Hash → AuthState Hash × op.Res
  | .findByEmailWithPassword email, s =>
      (s.wait ω.elapsed, s.users.find? (fun u => u.email = email))
  | .bcryptCompare plain hash, s => (s.wait ω.elapsed, lib.compare plain hash)
  | .signAsync secret expiresIn payload, s =>
      (record secret payload (s.wait ω.elapsed),
        lib.signAsync secret expiresIn payload (s.now + ω.elapsed))
  | .verifyAsync secret token, s =>
      (s.wait ω.elapsed, lib.verifyAsync secret token (s.now + ω.elapsed))
  | .findOne w, s => (s.wait ω.elapsed, pick ω.pick (s.sessions.filter w.matches))
  | .insert n, s =>
      match lookup UserSession.id ω.newId s.sessions with
      | some _ => (s.wait ω.elapsed, .error .queryFailed)
      | none =>
          let row : UserSession Hash :=
            ⟨ω.newId, n.userId, n.tokenHash, n.deviceFingerprint, n.ipAddress,
              n.expiresAt, n.isRevoked⟩
          ({ s.wait ω.elapsed with sessions := s.sessions ++ [row] }, .ok row)
  | .save o, s =>
      ({ s.wait ω.elapsed with sessions := upsert UserSession.id o s.sessions }, ())
  | .revokeAll userId, s =>
      ({ s.wait ω.elapsed with sessions := s.sessions.map (revokeRow userId) }, ())
  | .auditLog _ _ _, s => (s.wait ω.elapsed, ())

end Exec

end PlatformAuth
