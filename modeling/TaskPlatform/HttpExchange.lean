import TaskPlatform.TaskTable

/-! # From a handler to the web client

    `CorrelationIdMiddleware`, `TransformInterceptor` and `GlobalExceptionFilter` of
    `src/common` on the way out of the server, `axiosBaseQuery` of
    `src/frontend/src/app/api/apiSlice.ts` on the way into the client.  Between the two
    stand NestJS, which sends an object as JSON and everything else as text, and axios,
    which reads a text as JSON where it can. -/

namespace PlatformHttp

open PlatformTasks (truthy)

/-- JSON values; the fields of an object have different names. -/
inductive Json where
  | null
  | bool (b : Bool)
  | num (n : Int)
  | str (s : String)
  | arr (items : List Json)
  | obj (fields : List (String × Json))

namespace Json

/-- `value.key`, and whether `key in value`. -/
def field (key : String) : Json → Option Json
  | .obj fields => fields.lookup key
  | _ => none

/-- The object has a field of the name. -/
def has (key : String) (v : Json) : Bool := (v.field key).isSome

/-- `String(value)` of a value that is no object. -/
def text : Json → String
  | .bool b => if b then "true" else "false"
  | .num n => toString n
  | .str s => s
  | _ => ""

/-- Whether the value counts as true. -/
def truthy : Json → Bool
  | .null => false
  | .bool b => b
  | .num n => n ≠ 0
  | .str s => s ≠ ""
  | .arr _ => true
  | .obj _ => true

/-- A field is no larger than its object. -/
theorem ne_of_field {key : String} {v w : Json} (h : v.field key = some w) : w ≠ v := by
  cases v with
  | obj fields =>
      obtain ⟨l₁, l₂, hfields, -⟩ := List.lookup_eq_some_iff.mp h
      have hmem : (key, w) ∈ fields := hfields ▸ List.mem_append_right _ (List.mem_cons_self ..)
      have hlt := List.sizeOf_lt_of_mem hmem
      rintro rfl
      simp only [Json.obj.sizeOf_spec, Prod.mk.sizeOf_spec] at hlt
      omega
  | _ => cases h

end Json

/-! ## The server -/

/-- A request as far as this side of it goes. -/
structure HttpRequest where
  url : String
  correlationIdHeader : Option String := none

/-- `CorrelationIdMiddleware`: the id of the request, and of the header of its response. -/
def correlationId (r : HttpRequest) (uuid : String) : String :=
  (truthy r.correlationIdHeader).getD uuid

/-- `path.includes(part)`. -/
def includes (path part : String) : Bool :=
  path.toList.tails.any fun rest => part.toList.isPrefixOf rest

/-- The routes whose results are not wrapped. -/
def bypassed (path : String) : Bool :=
  path = "/metrics" || path = "/api/v1/metrics" || includes path "/health"
    || includes path "/docs"

/-- `TransformInterceptor`; a handler's result is `none` where it is `undefined`. -/
def intercept (r : HttpRequest) (correlationId : String) (statusCode : Nat) (timestamp : String)
    (data : Option Json) : Option Json :=
  if bypassed r.url then data
  else if data.any fun v => v.has "success" && v.has "statusCode" then data
  else some (.obj
    [("success", .bool true), ("statusCode", .num statusCode), ("data", data.getD .null),
     ("timestamp", .str timestamp), ("correlationId", .str correlationId)])

/-- What goes over the wire. -/
inductive Body where
  | empty
  | text (s : String)
  | json (v : Json)

/-- How NestJS sends a result. -/
def reply : Option Json → Body
  | none => .empty
  | some .null => .empty
  | some (.arr items) => .json (.arr items)
  | some (.obj fields) => .json (.obj fields)
  | some v => .text v.text

/-- A response with its `x-correlation-id`. -/
structure HttpResponse where
  status : Nat
  correlationIdHeader : String
  body : Body

/-- The message of an exception: one text, or one for each field that is not valid. -/
inductive Message where
  | one (s : String)
  | many (l : List String)

/-- Neither missing nor empty; an array is always truthy. -/
def Message.truthy : Message → Bool
  | .one s => s ≠ ""
  | .many _ => true

/-- `getResponse()` of an exception: a text, or an object with these fields among
    others. -/
inductive ExceptionResponse where
  | text (s : String)
  | object (message : Option Message) (error : Option String)

/-- What a handler throws.  Without a status it is no `HttpException`. -/
structure Exception where
  http : Option (Nat × ExceptionResponse)
  message : String
  name : String

/-- `getStatus()` of an `HttpException`, else 500. -/
def Exception.status (e : Exception) : Nat := (e.http.map Prod.fst).getD 500

/-- `exceptionResponse`. -/
def Exception.response (e : Exception) : ExceptionResponse :=
  (e.http.map Prod.snd).getD (.object (some (.one "Internal server error")) none)

/-- The `message` of the body, joined if there are several. -/
def Exception.shown (e : Exception) : String :=
  match e.response with
  | .text s => if e.message ≠ "" then e.message else s
  | .object message _ =>
      match message.filter Message.truthy with
      | some (.one s) => s
      | some (.many l) => ", ".intercalate l
      | none => e.message

/-- The `error` of the body. -/
def Exception.errorName (e : Exception) : String :=
  let named := if e.name ≠ "" then e.name else "InternalServerError"
  match e.response with
  | .text _ => named
  | .object _ error => (truthy error).getD named

/-- `GlobalExceptionFilter.catch`. -/
def errorBody (e : Exception) (r : HttpRequest) (correlationId timestamp : String) : Json :=
  .obj
    [("success", .bool false), ("statusCode", .num e.status), ("message", .str e.shown),
     ("error", .str e.errorName), ("timestamp", .str timestamp), ("path", .str r.url),
     ("correlationId", .str correlationId)]

/-- What became of a handler: a result with the status of its route, or an exception. -/
abbrev Outcome := Except Exception (Nat × Option Json)

/-- The answer of the server. -/
def respond (r : HttpRequest) (uuid timestamp : String) : Outcome → HttpResponse
  | .ok (statusCode, data) =>
      let id := correlationId r uuid
      ⟨statusCode, id, reply (intercept r id statusCode timestamp data)⟩
  | .error e =>
      let id := correlationId r uuid
      ⟨e.status, id, .json (errorBody e r id timestamp)⟩

/-! ## The client -/

/-- `response.data` of axios, with `JSON.parse`. -/
def axiosData (parse : String → Option Json) : Body → Json
  | .empty => .str ""
  | .text s => if s = "" then .str "" else (parse s).getD (.str s)
  | .json v => v

/-- The envelope is taken off. -/
def unwrap (responseData : Json) : Json :=
  if responseData.has "success" && responseData.has "data" then
    (responseData.field "data").getD .null
  else responseData

/-- What an endpoint sees of its request. -/
inductive QueryResult where
  | data (v : Json)
  | error (status : Nat) (data : Json)

/-- What comes of a request: a response, or an error on the way. -/
abbrev Transport := Except String HttpResponse

/-- The `message` of the error that axios makes of a response. -/
def axiosMessage (status : Nat) : String := "Request failed with status code " ++ toString status

/-- `{ message: err.message }`. -/
def messageOnly (message : String) : Json := .obj [("message", .str message)]

/-- `axiosBaseQuery` from its `await` on. -/
def axiosBaseQuery (parse : String → Option Json) : Transport → QueryResult
  | .ok response =>
      let responseData := axiosData parse response.body
      if 200 ≤ response.status ∧ response.status < 300 then
        .data (unwrap responseData)
      else
        .error (if response.status ≠ 0 then response.status else 500)
          (if responseData.truthy then responseData else messageOnly (axiosMessage response.status))
  | .error message => .error 500 (messageOnly message)

/-! ## What the client sees -/

/-- NestJS sends it as JSON. -/
def IsObject : Option Json → Prop
  | some (.obj _) => True
  | some (.arr _) => True
  | _ => False

theorem reply_object {data : Option Json} (h : IsObject data) :
    ∃ v, data = some v ∧ reply data = .json v := by
  cases data with
  | none => exact h.elim
  | some v =>
      cases v with
      | obj fields => exact ⟨_, rfl, rfl⟩
      | arr items => exact ⟨_, rfl, rfl⟩
      | null => exact h.elim
      | bool b => exact h.elim
      | num n => exact h.elim
      | str s => exact h.elim

theorem isObject_of_has {key : String} {v : Json} (h : v.has key = true) :
    IsObject (some v) := by
  cases v with
  | obj fields => trivial
  | _ => cases h

/-- A result that the client takes for an envelope. -/
def Mistaken (r : HttpRequest) (v : Json) : Prop :=
  v.has "success" = true ∧ v.has "data" = true ∧
    (bypassed r.url = true ∨ v.has "statusCode" = true)

section Exchange

variable (parse : String → Option Json) (r : HttpRequest) (uuid timestamp : String)

/-- What the client makes of an outcome of the handler. -/
def exchange (outcome : Outcome) : QueryResult :=
  axiosBaseQuery parse (.ok (respond r uuid timestamp outcome))

variable {parse r uuid timestamp}

theorem unwrap_eq_self_iff (v : Json) :
    unwrap v = v ↔ ¬ (v.has "success" = true ∧ v.has "data" = true) := by
  unfold unwrap
  rw [← Bool.and_eq_true]
  by_cases h : (v.has "success" && v.has "data") = true
  · rw [if_pos h]
    have hdata : (v.field "data").isSome = true := (Bool.and_eq_true _ _ ▸ h).2
    obtain ⟨w, hw⟩ := Option.isSome_iff_exists.mp hdata
    rw [hw, Option.getD_some]
    exact ⟨fun heq => absurd heq (Json.ne_of_field hw), fun hno => absurd h hno⟩
  · rw [if_neg h]
    exact ⟨fun _ => h, fun _ => rfl⟩

theorem exchange_ok {statusCode : Nat} (h : 200 ≤ statusCode ∧ statusCode < 300)
    (data : Option Json) :
    exchange parse r uuid timestamp (.ok (statusCode, data)) =
      .data (unwrap (axiosData parse
        (reply (intercept r (correlationId r uuid) statusCode timestamp data)))) := by
  exact if_pos h

/-- **The result comes through.**  The client sees what the handler has returned, `null` for
    `undefined`, exactly if it is no envelope by itself. -/
theorem exchange_result {statusCode : Nat} (h : 200 ≤ statusCode ∧ statusCode < 300)
    {data : Option Json} (hobject : bypassed r.url = true → IsObject data) :
    exchange parse r uuid timestamp (.ok (statusCode, data)) = .data (data.getD .null) ↔
      ∀ v, data = some v → ¬ Mistaken r v := by
  rw [exchange_ok h]
  unfold intercept
  by_cases hpath : bypassed r.url = true
  · obtain ⟨v, rfl, hreply⟩ := reply_object (hobject hpath)
    rw [if_pos hpath, hreply]
    show QueryResult.data (unwrap v) = .data v ↔ _
    rw [QueryResult.data.injEq, unwrap_eq_self_iff]
    constructor
    · rintro hno w hw ⟨hs, hd, -⟩
      cases hw
      exact hno ⟨hs, hd⟩
    · exact fun hno hsd => hno v rfl ⟨hsd.1, hsd.2, Or.inl hpath⟩
  · rw [if_neg hpath]
    by_cases hwrapped : (data.any fun v => v.has "success" && v.has "statusCode") = true
    · rw [if_pos hwrapped]
      obtain ⟨v, rfl, hv⟩ := (Option.any_eq_true _ _).mp hwrapped
      obtain ⟨hs, hcode⟩ := (Bool.and_eq_true _ _).mp hv
      obtain ⟨w, hw, hreply⟩ := reply_object (isObject_of_has hs)
      cases hw
      rw [hreply]
      show QueryResult.data (unwrap v) = .data v ↔ _
      rw [QueryResult.data.injEq, unwrap_eq_self_iff]
      constructor
      · rintro hno w hw ⟨hs, hd, -⟩
        cases hw
        exact hno ⟨hs, hd⟩
      · exact fun hno hsd => hno v rfl ⟨hsd.1, hsd.2, Or.inr hcode⟩
    · rw [if_neg hwrapped]
      constructor
      · rintro - v rfl ⟨hs, -, hno⟩
        rcases hno with hno | hno
        · exact hpath hno
        · exact hwrapped (by simp [hs, hno])
      · exact fun _ => rfl

/-- A task that is read. -/
example : exchange (fun _ => none) ⟨"/api/v1/tasks/1", none⟩ "id" "now"
    (.ok (200, some (.obj [("id", .str "1"), ("title", .str "Write")])))
      = .data (.obj [("id", .str "1"), ("title", .str "Write")]) := by rfl

/-- **The exception comes through.**  Its status, its message and the id of the request. -/
theorem exchange_exception {e : Exception} (h : ¬ (200 ≤ e.status ∧ e.status < 300))
    (h0 : e.status ≠ 0) :
    ∃ body, exchange parse r uuid timestamp (.error e) = .error e.status body ∧
      body.field "message" = some (.str e.shown) ∧
      body.field "correlationId" = some (.str (correlationId r uuid)) := by
  refine ⟨errorBody e r (correlationId r uuid) timestamp, ?_, rfl, rfl⟩
  have hstatus : (if e.status ≠ 0 then e.status else 500) = e.status := if_pos h0
  refine (if_neg h).trans ?_
  show QueryResult.error (if e.status ≠ 0 then e.status else 500) _ = _
  rw [hstatus]
  rfl

/-- A task that is not found. -/
example : exchange (fun _ => none) ⟨"/api/v1/tasks/1", some "c"⟩ "id" "now"
    (.error ⟨some (404, .object (some (.one "Task not found")) (some "Not Found")),
      "Task not found", "NotFoundException"⟩)
      = .error 404 (.obj
          [("success", .bool false), ("statusCode", .num 404),
           ("message", .str "Task not found"), ("error", .str "Not Found"),
           ("timestamp", .str "now"), ("path", .str "/api/v1/tasks/1"),
           ("correlationId", .str "c")]) := by rfl

end Exchange

end PlatformHttp
