import TaskPlatform.EventRuns
import TaskPlatform.TaskTable

/-! # The web client: requests, token refresh, login and logout

    `baseQueryWithReauth` of `src/frontend/src/app/api/apiSlice.ts` with the reducers of
    `src/frontend/src/app/store/slices/authSlice.ts`, the submit handler of
    `src/frontend/src/pages/Login.tsx` and `handleLogout` of
    `src/frontend/src/components/layout/Navbar.tsx`.

    JavaScript switches only at an `await`, so each function is cut there: a `Thread` says
    at which `await` a request stands, a `Refresh` is one run of `refreshQuery` with the
    promise that it settles, and an event lets one of them go on. -/

namespace PlatformWeb

open PlatformTasks (truthy)

/-! ## Store and storage -/

/-- The user that the store shows. -/
structure UserInfo where
  id : String
  email : String
  name : String
  avatar : Option String := none
  isVerified : Bool
  deriving DecidableEq, Repr

/-- The items of `localStorage`; `user_info` is the JSON text of a user or of `null`. -/
structure LocalStorage where
  access_token : Option String := none
  refresh_token : Option String := none
  user_info : Option (Option UserInfo) := none
  active_workspace_id : Option String := none
  deriving DecidableEq, Repr

/-- The state of the auth slice. -/
structure AuthState where
  token : Option String
  user : Option UserInfo
  isAuthenticated : Bool
  deriving DecidableEq, Repr

/-- The state that the slice starts in, read from the storage. -/
def initialState (localStorage : LocalStorage) : AuthState where
  token := localStorage.access_token
  user := localStorage.user_info.join
  isAuthenticated := (truthy localStorage.access_token).isSome

/-- What `/auth/login` and `/auth/refresh` answer with. -/
structure Credentials where
  accessToken : String
  refreshToken : String
  user : Option UserInfo := none
  deriving DecidableEq, Repr

/-- A response as `baseQuery` hands it on. -/
inductive Response where
  | unauthorized
  | otherError
  | success (data : Option Credentials)
  deriving DecidableEq, Repr

/-! ## Requests in flight -/

/-- An endpoint, or the login that a submit handler waits for. -/
inductive Kind where
  | api
  | login
  deriving DecidableEq, Repr

/-- Where a run of `baseQueryWithReauth` stands; a login goes on to its submit handler. -/
inductive Thread where
  /-- `await baseQuery(args, ..)`, sent with this token. -/
  | requested (kind : Kind) (bearer : Option String)
  /-- `await refreshPromise`. -/
  | refreshing (kind : Kind) (promise : Nat)
  /-- The same request once more. -/
  | retried (kind : Kind) (bearer : Option String)
  /-- The response of a login, on its way to `onSubmit`. -/
  | answered (data : Credentials)
  | finished
  deriving DecidableEq, Repr

/-- A run of `refreshQuery`: the token in the body of its request, what the server has
    answered, and the value of its promise once it is settled. -/
structure Refresh where
  refreshToken : String
  bearer : Option String
  answer : Option Response := none
  value : Option (Option String) := none
  deriving DecidableEq, Repr

/-- The store, the storage and the requests of one page. -/
structure Client where
  auth : AuthState
  localStorage : LocalStorage
  refreshPromise : Option Nat := none
  refreshes : List Refresh := []
  threads : List Thread := []
  deriving DecidableEq, Repr

/-- The page is loaded. -/
def Client.load (localStorage : LocalStorage) : Client where
  auth := initialState localStorage
  localStorage := localStorage

namespace Client

/-! ## The reducers -/

/-- The reducer `setCredentials`; without a refresh token in the payload the stored one
    stays. -/
def setCredentials (c : Client) (token : String) (refreshToken : Option String)
    (user : Option UserInfo) : Client :=
  { c with
    auth := ⟨some token, user, true⟩
    localStorage := { c.localStorage with
      access_token := some token
      refresh_token :=
        match truthy refreshToken with
        | some refreshToken => some refreshToken
        | none => c.localStorage.refresh_token
      user_info := some user } }

/-- `updateUser({ name })`. -/
def updateUser (c : Client) (name : String) : Client :=
  match c.auth.user with
  | none => c
  | some user =>
      let user : UserInfo := { user with name := name }
      { c with
        auth := { c.auth with user := some user }
        localStorage := { c.localStorage with user_info := some (some user) } }

/-- The reducer `logout`. -/
def logout (c : Client) : Client :=
  { c with auth := ⟨none, none, false⟩, localStorage := {} }

/-! ## `baseQueryWithReauth` -/

/-- A request further on. -/
def setThread (c : Client) (i : Nat) (t : Thread) : Client :=
  { c with threads := c.threads.set i t }

/-- Up to the first `await`. -/
def request (c : Client) (kind : Kind) : Client :=
  { c with threads := c.threads ++ [.requested kind c.auth.token] }

/-- `refreshPromise = refreshQuery()`, up to the `await` of `refreshQuery`. -/
def refreshQuery (c : Client) (refreshToken : String) : Client :=
  { c with
    refreshes := c.refreshes ++ [⟨refreshToken, c.auth.token, none, none⟩]
    refreshPromise := some c.refreshes.length }

/-- After a 401, up to the next `await`. -/
def unauthorized (c : Client) (i : Nat) (kind : Kind) : Client :=
  match truthy c.localStorage.refresh_token with
  | none => c.logout.setThread i .finished
  | some refreshToken =>
      match c.refreshPromise with
      | some promise => c.setThread i (.refreshing kind promise)
      | none => (c.refreshQuery refreshToken).setThread i (.refreshing kind c.refreshes.length)

/-- The result is returned; that of a login goes to its submit handler. -/
def returned (c : Client) (i : Nat) : Kind → Response → Client
  | .login, .success (some data) => c.setThread i (.answered data)
  | _, _ => c.setThread i .finished

/-- A response arrives. -/
def respond (c : Client) (i : Nat) (response : Response) : Client :=
  match c.threads[i]? with
  | some (.requested kind _) =>
      match response with
      | .unauthorized => c.unauthorized i kind
      | response => c.returned i kind response
  | some (.retried kind _) => c.returned i kind response
  | _ => c

/-- The refresh is over, one way or the other: its promise has a value, and the next 401
    may start another. -/
def settle (c : Client) (j : Nat) (refresh : Refresh) (value : Option String) : Client :=
  { c with
    refreshes := c.refreshes.set j { refresh with value := some value }
    refreshPromise := none }

/-- `refreshQuery` from its `await` on. -/
def refreshed (c : Client) (j : Nat) (refresh : Refresh) : Response → Client
  | .success (some data) =>
      let c := c.setCredentials data.accessToken none (data.user <|> c.auth.user)
      let c := { c with
        localStorage := { c.localStorage with refresh_token := some data.refreshToken } }
      c.settle j refresh (some data.accessToken)
  | _ => c.settle j refresh none

/-- The server has answered a refresh. -/
def answerRefresh (c : Client) (j : Nat) (response : Response) : Client :=
  match c.refreshes[j]? with
  | some ⟨refreshToken, bearer, none, none⟩ =>
      { c with refreshes := c.refreshes.set j ⟨refreshToken, bearer, some response, none⟩ }
  | _ => c

/-- The answer arrives. -/
def continueRefresh (c : Client) (j : Nat) : Client :=
  match c.refreshes[j]? with
  | some ⟨refreshToken, bearer, some response, none⟩ =>
      c.refreshed j ⟨refreshToken, bearer, some response, none⟩ response
  | _ => c

/-- `const newToken = await refreshPromise`, once that is settled. -/
def resume (c : Client) (i : Nat) : Client :=
  match c.threads[i]? with
  | some (.refreshing kind promise) =>
      match (c.refreshes[promise]?).bind Refresh.value with
      | none => c
      | some newToken =>
          match truthy newToken with
          | some _ => c.setThread i (.retried kind c.auth.token)
          | none => c.logout.setThread i .finished
  | _ => c

/-- `onSubmit` after its `await`. -/
def submitted (c : Client) (i : Nat) : Client :=
  match c.threads[i]? with
  | some (.answered data) =>
      (c.setCredentials data.accessToken (some data.refreshToken) data.user).setThread i .finished
  | _ => c

end Client

/-! ## Events -/

/-- What may happen next. -/
inductive WebEvent where
  /-- An endpoint is called. -/
  | request
  /-- The user submits the login form. -/
  | submitLogin
  | respond (thread : Nat) (response : Response)
  | answerRefresh (refresh : Nat) (response : Response)
  | continueRefresh (refresh : Nat)
  | resume (thread : Nat)
  | submitted (thread : Nat)
  /-- `handleLogout`. -/
  | logout
  | updateUser (name : String)
  deriving DecidableEq, Repr

/-- One step. -/
def webStep (c : Client) : WebEvent → Client
  | .request => c.request .api
  | .submitLogin => c.request .login
  | .respond i response => c.respond i response
  | .answerRefresh j response => c.answerRefresh j response
  | .continueRefresh j => c.continueRefresh j
  | .resume i => c.resume i
  | .submitted i => c.submitted i
  | .logout => c.logout
  | .updateUser name => c.updateUser name

end PlatformWeb
