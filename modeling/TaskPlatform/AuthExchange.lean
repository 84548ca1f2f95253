import TaskPlatform.AuthService
import TaskPlatform.HttpExchange
import TaskPlatform.WebClient

/-! # The auth endpoints over HTTP

    What `AuthService` returns or throws, as the JSON of `/auth/login` and `/auth/refresh`,
    as the response that `apiSlice.ts` reads out of it, and as what the store is given
    (`received_outcome`); and in the other direction the `Authorization` header, from
    `axiosBaseQuery` to `JwtAuthGuard`. -/

namespace PlatformHttp

open PlatformAuth PlatformEntities
open PlatformTasks (truthy)
open PlatformWeb (Client UserInfo Credentials Response)

/-! ## The server's side -/

/-- The `user` of a login; `null` for a column that is not set. -/
def userJson (user : UserView) : Json :=
  .obj
    [("id", .str user.id), ("email", .str user.email), ("name", .str user.name),
     ("avatar", (user.avatar.map Json.str).getD .null), ("isVerified", .bool user.isVerified)]

/-- The body that a reply becomes. -/
def replyJson : AuthReply String → Json
  | .loggedIn accessToken refreshToken user =>
      .obj [("accessToken", .str accessToken), ("refreshToken", .str refreshToken),
        ("user", userJson user)]
  | .refreshed accessToken refreshToken =>
      .obj [("accessToken", .str accessToken), ("refreshToken", .str refreshToken)]
  | .success message => .obj [("success", .bool true), ("message", .str message)]

/-- An exception of NestJS with a message. -/
def httpException (status : Nat) (name error message : String) : Exception where
  http := some (status, .object (some (.one message)) (some error))
  message := message
  name := name

/-- What is thrown; an error of the database has no status, and its text is not shown. -/
def exception : HttpError → Exception
  | .badRequest message => httpException 400 "BadRequestException" "Bad Request" message
  | .unauthorized message => httpException 401 "UnauthorizedException" "Unauthorized" message
  | .forbidden message => httpException 403 "ForbiddenException" "Forbidden" message
  | .notFound message => httpException 404 "NotFoundException" "Not Found" message
  | .conflict message => httpException 409 "ConflictException" "Conflict" message
  | .queryFailed => ⟨none, "", "QueryFailedError"⟩

/-- The outcome of a `@Post` of the auth controller. -/
def outcome : Except HttpError (AuthReply String) → Outcome
  | .ok r => .ok (201, some (replyJson r))
  | .error e => .error (exception e)

/-! ## The client's side -/

/-- A text. -/
def Json.string : Json → Option String
  | .str s => some s
  | _ => none

/-- A string field. -/
def Json.stringField (v : Json) (key : String) : Option String := (v.field key).bind Json.string

/-- The `user` field, as the reducer reads it. -/
def userInfo (v : Json) : Option UserInfo := do
  let id ← v.stringField "id"
  let email ← v.stringField "email"
  let name ← v.stringField "name"
  match v.field "isVerified" with
  | some (.bool isVerified) =>
      some { id := id, email := email, name := name, avatar := v.stringField "avatar",
             isVerified := isVerified }
  | _ => none

/-- The body, as the reducer reads it. -/
def credentials (v : Json) : Option Credentials := do
  let accessToken ← v.stringField "accessToken"
  let refreshToken ← v.stringField "refreshToken"
  some ⟨accessToken, refreshToken, (v.field "user").bind userInfo⟩

/-- What `baseQueryWithReauth` and `onSubmit` see of a result. -/
def asResponse : QueryResult → Response
  | .data v => .success (credentials v)
  | .error status _ => if status = 401 then .unauthorized else .otherError

/-- The user of the session as the store keeps it. -/
def asInfo (user : UserView) : UserInfo where
  id := user.id
  email := user.email
  name := user.name
  avatar := user.avatar
  isVerified := user.isVerified

/-- What becomes of an outcome of the service, between its two ends. -/
def arrived : Except HttpError (AuthReply String) → Response
  | .ok (.loggedIn accessToken refreshToken user) =>
      .success (some ⟨accessToken, refreshToken, some (asInfo user)⟩)
  | .ok (.refreshed accessToken refreshToken) =>
      .success (some ⟨accessToken, refreshToken, none⟩)
  | .ok (.success _) => .success none
  | .error (.unauthorized _) => .unauthorized
  | .error _ => .otherError

section Received

variable {parse : String → Option Json} {r : HttpRequest} {uuid timestamp : String}

theorem userInfo_userJson (user : UserView) : userInfo (userJson user) = some (asInfo user) := by
  obtain ⟨id, email, name, avatar, isVerified⟩ := user
  cases avatar with
  | none => rfl
  | some avatar => rfl

theorem credentials_replyJson (reply : AuthReply String) :
    Response.success (credentials (replyJson reply)) = arrived (.ok reply) := by
  cases reply with
  | loggedIn accessToken refreshToken user =>
      show Response.success (some ⟨accessToken, refreshToken, userInfo (userJson user)⟩) = _
      rw [userInfo_userJson]
      rfl
  | refreshed accessToken refreshToken => rfl
  | success message => rfl

/-- No reply looks like an envelope that is there already. -/
theorem replyJson_not_mistaken (reply : AuthReply String) : ¬ Mistaken r (replyJson reply) := by
  rintro ⟨-, hdata, -⟩
  cases reply with
  | loggedIn accessToken refreshToken user => exact Bool.noConfusion hdata
  | refreshed accessToken refreshToken => exact Bool.noConfusion hdata
  | success message => exact Bool.noConfusion hdata

theorem exception_status (e : HttpError) : 400 ≤ (exception e).status := by
  cases e with
  | badRequest message => exact Nat.le_refl 400
  | unauthorized message => exact (by decide : 400 ≤ 401)
  | forbidden message => exact (by decide : 400 ≤ 403)
  | notFound message => exact (by decide : 400 ≤ 404)
  | conflict message => exact (by decide : 400 ≤ 409)
  | queryFailed => exact (by decide : 400 ≤ 500)

theorem error_arrives (e : HttpError) (body : Json) :
    asResponse (.error (exception e).status body) = arrived (.error e) := by
  cases e with
  | badRequest message => rfl
  | unauthorized message => rfl
  | forbidden message => rfl
  | notFound message => rfl
  | conflict message => rfl
  | queryFailed => rfl

theorem asResponse_exchange (result : Except HttpError (AuthReply String)) :
    asResponse (exchange parse r uuid timestamp (outcome result)) = arrived result := by
  cases result with
  | ok reply =>
      have hobject : bypassed r.url = true → IsObject (some (replyJson reply)) := by
        intro _
        cases reply <;> trivial
      have hresult : exchange parse r uuid timestamp (.ok (201, some (replyJson reply)))
          = .data (replyJson reply) := by
        refine (exchange_result (by decide) hobject).mpr ?_
        intro v hv
        rw [← Option.some.inj hv]
        exact replyJson_not_mistaken reply
      show asResponse (exchange parse r uuid timestamp (.ok (201, some (replyJson reply)))) = _
      rw [hresult]
      exact credentials_replyJson reply
  | error e =>
      have hstatus := exception_status e
      have hcame : ∃ body, exchange parse r uuid timestamp (.error (exception e))
          = .error (exception e).status body := by
        obtain ⟨body, hexchange, -, -⟩ := exchange_exception (e := exception e) (by omega)
          (by omega)
        exact ⟨body, hexchange⟩
      obtain ⟨body, hbody⟩ := hcame
      show asResponse (exchange parse r uuid timestamp (.error (exception e))) = _
      rw [hbody]
      exact error_arrives e body

end Received

/-! ## What the store is given -/

/-- Store and storage hold these credentials. -/
structure Keeps (c : Client) (accessToken refreshToken : String) (user : Option UserInfo) :
    Prop where
  auth : c.auth = ⟨some accessToken, user, true⟩
  access_token : c.localStorage.access_token = some accessToken
  refresh_token : c.localStorage.refresh_token = some refreshToken
  user_info : c.localStorage.user_info = some user

/-- The request of a login is on its way, for the first or the second time. -/
def AwaitsLogin (c : Client) (i : Nat) : Prop :=
  ∃ bearer, c.threads[i]? = some (.requested .login bearer) ∨
    c.threads[i]? = some (.retried .login bearer)

/-- The request of a refresh is on its way. -/
def AwaitsRefresh (c : Client) (j : Nat) : Prop :=
  ∃ refreshToken bearer, c.refreshes[j]? = some ⟨refreshToken, bearer, none, none⟩

theorem setCredentials_keeps (c : Client) (accessToken : String) {refreshToken : String}
    (ht : refreshToken ≠ "") (user : Option UserInfo) :
    Keeps (c.setCredentials accessToken (some refreshToken) user) accessToken refreshToken
      user := by
  have htruthy : truthy (some refreshToken) = some refreshToken :=
    PlatformTasks.truthy_eq_some.mpr ⟨rfl, ht⟩
  refine ⟨rfl, rfl, ?_, rfl⟩
  unfold Client.setCredentials
  rw [htruthy]

/-- The response of a login comes to `onSubmit`. -/
theorem login_keeps {c : Client} {i : Nat} (hi : AwaitsLogin c i) (accessToken : String)
    {refreshToken : String} (ht : refreshToken ≠ "") (user : UserInfo) :
    Keeps ((c.respond i (.success (some ⟨accessToken, refreshToken, some user⟩))).submitted i)
      accessToken refreshToken (some user) := by
  have hanswered : c.respond i (.success (some ⟨accessToken, refreshToken, some user⟩))
      = c.setThread i (.answered ⟨accessToken, refreshToken, some user⟩) := by
    obtain ⟨bearer, hi | hi⟩ := hi
    · rw [Client.respond, hi]
      rfl
    · rw [Client.respond, hi]
      rfl
  have hlength : i < c.threads.length := by
    obtain ⟨bearer, hi | hi⟩ := hi
    · exact (List.getElem?_eq_some_iff.mp hi).1
    · exact (List.getElem?_eq_some_iff.mp hi).1
  have hthread : (c.setThread i (.answered ⟨accessToken, refreshToken, some user⟩)).threads[i]?
      = some (.answered ⟨accessToken, refreshToken, some user⟩) :=
    List.getElem?_set_self hlength
  have hkept := setCredentials_keeps
    (c.setThread i (.answered ⟨accessToken, refreshToken, some user⟩))
      accessToken ht (some user)
  rw [hanswered, Client.submitted, hthread]
  exact ⟨hkept.auth, hkept.access_token, hkept.refresh_token, hkept.user_info⟩

/-- The response of a refresh comes to `refreshQuery`. -/
theorem refresh_keeps {c : Client} {j : Nat} (hj : AwaitsRefresh c j)
    (accessToken refreshToken : String) :
    Keeps ((c.answerRefresh j
      (.success (some ⟨accessToken, refreshToken, none⟩))).continueRefresh
      j) accessToken refreshToken c.auth.user := by
  obtain ⟨sent, bearer, hj⟩ := hj
  have hlength : j < c.refreshes.length := (List.getElem?_eq_some_iff.mp hj).1
  rw [Client.answerRefresh, hj, Client.continueRefresh]
  dsimp only
  rw [List.getElem?_set_self hlength]
  exact ⟨rfl, rfl, rfl, rfl⟩

section Outcome

variable (parse : String → Option Json) (r : HttpRequest) (uuid timestamp : String)

/-- What the client receives of an outcome of the service. -/
def received (result : Except HttpError (AuthReply String)) : Response :=
  asResponse (exchange parse r uuid timestamp (outcome result))

/-- **The tokens of the service come to the store**, and a refusal comes as a 401.  A login
    that has returned leaves its tokens and its user in store and storage, a refresh its
    tokens beside the user that is there. -/
theorem received_outcome (result : Except HttpError (AuthReply String)) (c : Client) :
    received parse r uuid timestamp result = arrived result ∧
      (∀ accessToken refreshToken user i,
        result = .ok (.loggedIn accessToken refreshToken user) → refreshToken ≠ "" →
          AwaitsLogin c i →
            Keeps ((c.respond i (received parse r uuid timestamp result)).submitted i)
              accessToken refreshToken (some (asInfo user))) ∧
      (∀ accessToken refreshToken j, result = .ok (.refreshed accessToken refreshToken) →
        AwaitsRefresh c j →
          Keeps ((c.answerRefresh j (received parse r uuid timestamp result)).continueRefresh j)
            accessToken refreshToken c.auth.user) := by
  have hreceived : received parse r uuid timestamp result = arrived result :=
    asResponse_exchange result
  rw [hreceived]
  refine ⟨rfl, ?_, ?_⟩
  · rintro accessToken refreshToken user i rfl ht hi
    exact login_keeps hi accessToken ht (asInfo user)
  · rintro accessToken refreshToken j rfl hj
    exact refresh_keeps hj accessToken refreshToken

end Outcome

/-- The login form has been sent. -/
def submittedForm : Client := (Client.load {}).request .login

/-- A user as a reply shows him. -/
def bobsView : UserView := ⟨"b", "bob@x", "Bob", none, true⟩

theorem received_outcome_login :
    Keeps ((submittedForm.respond 0 (received (fun _ => none) ⟨"/api/v1/auth/login", none⟩
        "id" "now" (.ok (.loggedIn "access" "refresh" bobsView)))).submitted 0)
      "access" "refresh" (some (asInfo bobsView)) :=
  (received_outcome (fun _ => none) ⟨"/api/v1/auth/login", none⟩ "id" "now"
    (.ok (.loggedIn "access" "refresh" bobsView)) submittedForm).2.1 "access" "refresh" bobsView
    0 rfl (by decide) ⟨none, Or.inl rfl⟩

/-! ## The access token on its way to the guard -/

/-- `headers.authorization`, if there is a token. -/
def authorizationHeader (token : Option String) : Option String :=
  (truthy token).map fun token => "Bearer " ++ token

/-- `s.split(' ')`. -/
def splitBlank (s : String) : List String := (s.toList.splitOn ' ').map String.ofList

/-- `const [type, token] = request.headers.authorization?.split(' ') ?? []`. -/
def extractTokenFromHeader (authorization : Option String) : Option String :=
  let parts := (authorization.map splitBlank).getD []
  if parts[0]? = some "Bearer" then parts[1]? else none

section Guard

variable {Hash : Type} (lib : AuthLibrary String Hash)

/-- `canActivate` of `JwtAuthGuard`: the payload that it puts into the request. -/
def jwtAuthGuard (now : Nat) (authorization : Option String) : Except HttpError Payload :=
  match truthy (extractTokenFromHeader authorization) with
  | none => .error (.unauthorized "Access token is missing")
  | some token =>
      match lib.verifyAsync .access token now with
      | none => .error (.unauthorized "Invalid or expired access token")
      | some payload => .ok payload

/-- A token in the compact form of JWT is not empty and has no blanks. -/
def IsCompact (token : String) : Prop := token ≠ "" ∧ ' ' ∉ token.toList

theorem extractTokenFromHeader_bearer {token : String} (h : IsCompact token) :
    extractTokenFromHeader (authorizationHeader (some token)) = some token := by
  have hheader : authorizationHeader (some token) = some ("Bearer " ++ token) := by
    have htruthy : truthy (some token) = some token :=
      PlatformTasks.truthy_eq_some.mpr ⟨rfl, h.1⟩
    unfold authorizationHeader
    rw [htruthy]
    rfl
  have hsplit : splitBlank ("Bearer " ++ token) = ["Bearer", token] := by
    have hjoined : ("Bearer " ++ token).toList
        = [' '].intercalate ["Bearer".toList, token.toList] := by
      have hword : "Bearer ".toList = "Bearer".toList ++ [' '] := by decide
      rw [String.toList_append, hword, List.append_assoc]
      simp [List.intercalate]
    unfold splitBlank
    rw [hjoined, List.splitOn_intercalate]
    · rw [List.map_cons, List.map_cons, List.map_nil, String.ofList_toList,
        String.ofList_toList]
    · intro l hl
      rcases List.mem_cons.mp hl with rfl | hl
      · decide
      · rw [List.mem_singleton.mp hl]
        exact h.2
    · exact List.cons_ne_nil _ _
  have hparts : (((some ("Bearer " ++ token)).map splitBlank).getD []) = ["Bearer", token] :=
    hsplit
  unfold extractTokenFromHeader
  rw [hheader]
  dsimp only
  rw [hparts]
  exact if_pos rfl

/-- **The guard reads the token that the client holds**, and lets it pass until it expires. -/
theorem jwtAuthGuard_bearer {p : Payload} {iat : Nat}
    (h : IsCompact (lib.signAsync .access lib.accessExpiration p iat)) (now : Nat) :
    jwtAuthGuard lib now
        (authorizationHeader (some (lib.signAsync .access lib.accessExpiration p iat)))
      = if now < iat + lib.accessExpiration then .ok p
        else .error (.unauthorized "Invalid or expired access token") := by
  have htruthy : truthy (some (lib.signAsync .access lib.accessExpiration p iat))
      = some (lib.signAsync .access lib.accessExpiration p iat) :=
    PlatformTasks.truthy_eq_some.mpr ⟨rfl, h.1⟩
  unfold jwtAuthGuard
  rw [extractTokenFromHeader_bearer h, htruthy]
  dsimp only
  rw [lib.verify_sign]
  by_cases hnow : now < iat + lib.accessExpiration
  · rw [if_pos hnow, if_pos hnow]
  · rw [if_neg hnow, if_neg hnow]

end Guard

end PlatformHttp
