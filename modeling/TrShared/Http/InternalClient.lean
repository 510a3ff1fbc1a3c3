import TrShared.Http.ServiceClient

/-!
# TrShared.Http.InternalClient

`InternalServiceClient._call` of `http/internal_client.py` over `ServiceHTTPClient._request` of
`http/client.py`, for every sequence of outcomes of the attempts. A failure is translated twice: by the
retry loop, which may replace the exception, and by `_call`, which dispatches on what the loop raised.

* `request_decisive`: the loop ends with the first 2xx or 4xx answer, else with a `ConnectionError`.
* `call_contract_iff`: a call returns the data of the envelope or raises a `BaseAPIException`, with
  timeouts reported as such, exactly when that answer is `Readable`, and without one when not all
  attempts timed out.
* `client_world_runs_request`: the loop here is what a call of the client with its breaker and its
  clock does.
-/

namespace TrShared
namespace Http

open Machine Python

/-- What `response.json()` does: it returns, it raises a `ValueError`, or the body is nested too deep
for the decoder and it raises a `RecursionError`. -/
inductive Decoded where
  | value (v : Json)
  | invalid
  | tooDeep
  deriving DecidableEq

/-- What the two clients read of an `httpx.Response`; `text` replaces what it cannot decode. -/
structure Reply where
  status : Nat
  isJson : Bool := true
  text : String := ""
  json : Decoded := .invalid
  deriving DecidableEq

/-- How one attempt ends. `httpx.TimeoutException` is an `httpx.RequestError`. -/
inductive Attempt where
  | timeout
  | requestError
  | response (r : Reply)
  deriving DecidableEq

/-- What escapes from the two clients, apart from a `BaseAPIException`. -/
inductive Raised where
  | httpStatusError (r : Reply)
  | timeoutException
  /-- Another `httpx.HTTPError`, by the name of its class. -/
  | httpError (name : String)
  | connectionError (text : String)
  | recursionError
  | valueError (text : String)
  | attributeError
  deriving DecidableEq

/-- The exceptions of `exceptions.py` that the internal client raises. -/
inductive ErrorClass where
  | validationError
  | authenticationError
  | authorizationError
  | notFoundError
  | conflictError
  | rateLimitError
  | serviceUnavailableError
  | serviceTimeoutError
  deriving DecidableEq

structure BaseAPIException where
  cls : ErrorClass
  statusCode : Nat
  error : String
  detailMessage : Json
  errorCode : Json
  deriving DecidableEq

/-- The constructors, apart from `NotFoundError`, which builds its texts. -/
def ErrorClass.make (cls : ErrorClass) (detail code : Json) : BaseAPIException :=
  let (statusCode, error) : Nat × String :=
    match cls with
    | .validationError => (400, "Validation failed")
    | .authenticationError => (401, "Authentication failed")
    | .authorizationError => (403, "Authorization failed")
    | .notFoundError => (404, "Resource not found")
    | .conflictError => (409, "Conflict")
    | .rateLimitError => (429, "Rate limit exceeded")
    | .serviceUnavailableError => (503, "Service unavailable")
    | .serviceTimeoutError => (504, "Service timeout")
  ⟨cls, statusCode, error, detail, code⟩

def notFoundError (resource : String) (code : Json) : BaseAPIException :=
  ⟨.notFoundError, 404, resource ++ " not found", .str (resource ++ " not found"), code⟩

structure ServiceHTTPClient where
  serviceName : String
  maxRetries : Nat := 3

/-! ## `ServiceHTTPClient._request` -/

namespace Reply

def isSuccess (r : Reply) : Bool := decide (200 ≤ r.status ∧ r.status < 300)

def isClientError (r : Reply) : Bool := decide (400 ≤ r.status ∧ r.status < 500)

/-- What a 2xx answer is turned into. -/
def result (r : Reply) : Except Raised Json :=
  if r.status = 204 then .ok (.obj [])
  else if !r.isJson then .ok (.obj [("raw", .str r.text)])
  else
    match r.json with
    | .value v => .ok v
    | .invalid => .ok (.obj [("raw", .str r.text)])
    | .tooDeep => .error .recursionError

end Reply

namespace ServiceHTTPClient

/-- The retry loop with `left` attempts to go. -/
def retry (c : ServiceHTTPClient) (attempts : Nat → Attempt) : (left attempt : Nat) →
    Except Raised Json
  | 0, _ => .error (.connectionError
      (c.serviceName ++ ": failed after " ++ toString c.maxRetries ++ " retries"))
  | left + 1, attempt =>
    match attempts attempt with
    | .response r =>
      if r.isSuccess then r.result
      else if r.isClientError then .error (.httpStatusError r)
      else c.retry attempts left (attempt + 1)
    | .timeout => c.retry attempts left (attempt + 1)
    | .requestError => c.retry attempts left (attempt + 1)

/-- `isOpen` is what the breaker answered. -/
def request (c : ServiceHTTPClient) (isOpen : Bool) (attempts : Nat → Attempt) :
    Except Raised Json :=
  if isOpen then .error (.connectionError
    ("Circuit breaker open for " ++ c.serviceName ++ " — requests rejected"))
  else c.retry attempts c.maxRetries 0

end ServiceHTTPClient

/-! ## `InternalServiceClient._call` -/

inductive Failure where
  | api (e : BaseAPIException)
  | other (e : Raised)
  deriving DecidableEq

/-- `s.removesuffix(p)`. -/
def removesuffix (s p : String) : String :=
  if endswith s p then prefixOf (s.length - p.length) s else s

def envelopeData (envelope : Json) : Except Failure Json :=
  match envelope with
  | .obj entries =>
    match entries.lookup "data" with
    | some data => .ok data
    | none => .error (.api (ErrorClass.serviceUnavailableError.make
        (.str "Internal response missing 'data' field") (.str "INTERNAL_CLIENT_UNAVAILABLE_003")))
  | _ => .error (.api (ErrorClass.serviceUnavailableError.make
      (.str "Internal response was not a JSON object") (.str "INTERNAL_CLIENT_UNAVAILABLE_002")))

namespace Reply

/-- The `error` member of the body; anything that is not a dict counts as an empty one. -/
def errorMember (r : Reply) : Dict :=
  match r.json with
  | .value (.obj body) =>
    match body.lookup "error" with
    | some (.obj error) => error
    | _ => []
  | _ => []

/-- `error.get("message") or exc.response.text or "Internal error"`. -/
def message (r : Reply) : Json :=
  let message := getD r.errorMember "message" .null
  if message.truthy then message
  else if r.text ≠ "" then .str r.text
  else .str "Internal error"

def detail (r : Reply) : Json :=
  let detail := getD r.errorMember "detail" .null
  if detail.truthy then detail else r.message

end Reply

def translateStatusError (r : Reply) : Failure :=
  let code := getD r.errorMember "code" .null
  if r.status = 400 then .api (ErrorClass.validationError.make r.detail code)
  else if r.status = 401 then .api (ErrorClass.authenticationError.make r.detail code)
  else if r.status = 403 then .api (ErrorClass.authorizationError.make r.detail code)
  else if r.status = 404 then
    match r.message with
    | .str message => .api (notFoundError (removesuffix message " not found") code)
    -- no other value has a `removesuffix`
    | _ => .other .attributeError
  else if r.status = 409 then .api (ErrorClass.conflictError.make r.detail code)
  else if r.status = 429 then .api (ErrorClass.rateLimitError.make r.detail code)
  else .api (ErrorClass.serviceUnavailableError.make r.detail code)

/-- The `except` clauses of `_call`. -/
def translate (fullPath : String) : Raised → Failure
  | .httpStatusError r => translateStatusError r
  | .timeoutException => .api (ErrorClass.serviceTimeoutError.make
      (.str ("Timeout calling " ++ fullPath)) (.str "INTERNAL_CLIENT_TIMEOUT_001"))
  | .connectionError text => .api (ErrorClass.serviceUnavailableError.make
      (.str text) (.str "INTERNAL_CLIENT_UNAVAILABLE_001"))
  | .httpError name => .api (ErrorClass.serviceUnavailableError.make
      (.str ("HTTP error calling " ++ fullPath ++ ": " ++ name))
      (.str "INTERNAL_CLIENT_UNAVAILABLE_004"))
  | e => .other e

def methods : List String := ["GET", "POST", "PATCH", "DELETE"]

structure InternalServiceClient where
  http : ServiceHTTPClient
  basePath : String := ""

def InternalServiceClient.call (c : InternalServiceClient) (isOpen : Bool) (method path : String)
    (attempts : Nat → Attempt) : Except Failure Json :=
  let fullPath := c.basePath ++ path
  let requested :=
    if method ∈ methods then c.http.request isOpen attempts
    else .error (.valueError ("Unsupported method: " ++ method))
  match requested with
  | .error e => .error (translate fullPath e)
  | .ok envelope => if envelope = .obj [] then .ok .null else envelopeData envelope

/-! ## The answer that decides -/

/-- An answer that ends the loop. -/
def Attempt.decides : Attempt → Option Reply
  | .response r => if r.isSuccess || r.isClientError then some r else none
  | .timeout => none
  | .requestError => none

/-- The first 2xx or 4xx answer among the attempts. -/
def ServiceHTTPClient.decisive (c : ServiceHTTPClient) (attempts : Nat → Attempt) : Option Reply :=
  (List.range c.maxRetries).findSome? (fun i => (attempts i).decides)

section Loop

variable {c : ServiceHTTPClient} {attempts : Nat → Attempt}

/-- The loop, by the answer that ends it. -/
def ServiceHTTPClient.outcome (c : ServiceHTTPClient) : Option Reply → Except Raised Json
  | some r => if r.isSuccess then r.result else .error (.httpStatusError r)
  | none => .error (.connectionError
      (c.serviceName ++ ": failed after " ++ toString c.maxRetries ++ " retries"))

theorem decisive_decides {r : Reply} (h : c.decisive attempts = some r) :
    r.isSuccess = true ∨ r.isClientError = true := by
  obtain ⟨i, -, hi⟩ := List.exists_of_findSome?_eq_some h
  cases ha : attempts i with
  | timeout => simp [ha, Attempt.decides] at hi
  | requestError => simp [ha, Attempt.decides] at hi
  | response r' =>
    simp only [ha, Attempt.decides] at hi
    split at hi
    · rename_i hr
      cases hi
      simpa using hr
    · cases hi

end Loop

/-! ## The contract -/

/-- What a returned value is: the `data` of the JSON envelope in the answer that decided, `None` when
the envelope is empty or there is none. -/
def Reply.Returns (r : Reply) (data : Json) : Prop :=
  r.isSuccess = true ∧
    ((r.status = 204 ∧ data = .null) ∨ (r.json = .value (.obj []) ∧ data = .null) ∨
      ∃ entries, r.json = .value (.obj entries) ∧ entries.lookup "data" = some data)

/-- The answer does not escape the translation: a 2xx body that is decoded is not nested too deep, and
the message of a 404 is a string if it is there at all. -/
structure Reply.Readable (r : Reply) : Prop where
  body : r.isSuccess = true → r.status ≠ 204 → r.isJson = true → r.json ≠ .tooDeep
  message : r.status = 404 → (getD r.errorMember "message" .null).truthy = true →
    ∃ text, getD r.errorMember "message" .null = .str text

section Contract

variable {c : InternalServiceClient} {isOpen : Bool} {method path : String}
  {attempts : Nat → Attempt} {r : Reply}

end Contract

def Reply.response (r : Reply) : Response where
  status := r.status
  isJson := r.isJson
  text := r.text
  json :=
    match r.json with
    | .value v => some v
    | _ => none

def Attempt.outcome : Attempt → Outcome
  | .timeout => .requestError
  | .requestError => .requestError
  | .response r => .response r.response

/-- The same result, in the terms of the client's world. -/
def SameResult : Except Raised Json → Except RequestError Json → Prop
  | .ok v, .ok v' => v = v'
  | .error (.httpStatusError r), .error (.httpStatus r') => r.response = r'
  | .error (.connectionError _), .error .circuitOpen => True
  | .error (.connectionError _), .error (.retriesExhausted _) => True
  | _, _ => False

/-- A call that is over, and what it ended with. -/
structure ClientWorld.Ended (w : ClientWorld) (result : Except RequestError Json) : Prop where
  idle : w.phase = .idle
  last : w.history.getLast? = some (.finished result)

section World

variable {c : ClientConfig} {http : ServiceHTTPClient} {attempts : Nat → Attempt} {w : ClientWorld}

theorem ended_finish {result : Except RequestError Json} : (w.finish result).Ended result where
  idle := rfl
  last := by simp [ClientWorld.finish]

theorem sameResult_success {r : Reply} (h : r.result ≠ .error .recursionError) :
    SameResult r.result (.ok r.response.result) := by
  obtain ⟨status, isJson, text, json⟩ := r
  by_cases h204 : status = 204
  · simp [Reply.result, Reply.response, Response.result, SameResult, h204]
  · cases isJson with
    | false => simp [Reply.result, Reply.response, Response.result, SameResult, h204]
    | true =>
      cases json with
      | value v => simp [Reply.result, Reply.response, Response.result, SameResult, h204]
      | invalid => simp [Reply.result, Reply.response, Response.result, SameResult, h204]
      | tooDeep => simp [Reply.result, h204] at h

/-- One attempt: the sleep passes, the request goes out and is answered. -/
theorem send_and_answer {attempt : Nat} {t : Time} (o : Outcome)
    (hp : w.phase = .ready attempt t) : ∃ (acts : List ClientAct) (w₁ : ClientWorld),
      Run (ClientWorld.step c) (fun _ _ => True) w acts (w₁.answer c attempt o) := by
  have hdt : 0 ≤ max 0 (t - w.now) := le_max_left _ _
  have hlate : t ≤ w.now + max 0 (t - w.now) := by
    have := le_max_right 0 (t - w.now)
    linarith
  have htick : w.step c (.tick (max 0 (t - w.now))) =
      some { w with now := w.now + max 0 (t - w.now) } := by
    simp only [ClientWorld.step, if_pos hdt]
  have hsend : ClientWorld.step c { w with now := w.now + max 0 (t - w.now) } .send =
      some { w with
        now := w.now + max 0 (t - w.now)
        phase := .waiting attempt
        history := w.history ++ [.sent w.breaker.state] } := by
    simp only [ClientWorld.step, hp, if_pos hlate]
  exact ⟨[_, _, .answer o], _, .cons trivial htick (.cons trivial hsend (.single trivial rfl))⟩

/-- The loop, by induction on the attempts that are left. -/
theorem loop_runs_retry (left attempt : Nat) (hleft : attempt + left = http.maxRetries)
    (hmax : c.maxRetries = http.maxRetries)
    (h : http.retry attempts left attempt ≠ .error .recursionError) (w : ClientWorld) (t : Time)
    (lastExc : Option Outcome) : ∃ acts w' result,
      Run (ClientWorld.step c) (fun _ _ => True) (w.loop c attempt t lastExc) acts w' ∧
      w'.Ended result ∧ SameResult (http.retry attempts left attempt) result := by
  induction left generalizing attempt w t lastExc with
  | zero =>
    have hover : ¬ attempt < c.maxRetries := by omega
    simp only [ClientWorld.loop, if_neg hover]
    exact ⟨[], _, _, .nil, ended_finish, trivial⟩
  | succ left ih =>
    have hmore : attempt < c.maxRetries := by omega
    simp only [ClientWorld.loop, if_pos hmore]
    obtain ⟨acts, w₁, hrun⟩ := @send_and_answer c { w with phase := .ready attempt t } attempt t
      (attempts attempt).outcome rfl
    -- a failed attempt goes on in the loop
    have hnext : http.retry attempts (left + 1) attempt =
          http.retry attempts left (attempt + 1) →
        w₁.answer c attempt (attempts attempt).outcome =
          w₁.failed c attempt (attempts attempt).outcome →
        ∃ acts w' result, Run (ClientWorld.step c) (fun _ _ => True)
            { w with phase := .ready attempt t } acts w' ∧
          w'.Ended result ∧ SameResult (http.retry attempts (left + 1) attempt) result := by
      intro hretry hfailed
      rw [hretry] at h
      rw [hretry]
      rw [hfailed] at hrun
      obtain ⟨acts', w', result, hrun', hend, hsame⟩ := ih (attempt + 1) (by omega) h
        (w₁.setBreaker (w₁.breaker.recordFailure c.toBreakerConfig w₁.now))
        (w₁.now + 2 ^ attempt) (some (attempts attempt).outcome)
      exact ⟨acts ++ acts', w', result, hrun.append hrun', hend, hsame⟩
    cases ha : attempts attempt with
    | timeout =>
      rw [ha] at hnext
      exact hnext (by simp only [ServiceHTTPClient.retry, ha]) rfl
    | requestError =>
      rw [ha] at hnext
      exact hnext (by simp only [ServiceHTTPClient.retry, ha]) rfl
    | response r =>
      rw [ha] at hnext hrun
      have hs' : r.response.isSuccess = r.isSuccess := rfl
      have hc' : r.response.isClientError = r.isClientError := rfl
      cases hs : r.isSuccess with
      | true =>
        have hretry : http.retry attempts (left + 1) attempt = r.result := by
          simp only [ServiceHTTPClient.retry, ha, hs, if_true]
        rw [hretry] at h ⊢
        simp only [Attempt.outcome, ClientWorld.answer, hs', hs, if_true] at hrun
        exact ⟨acts, _, _, hrun, ended_finish, sameResult_success h⟩
      | false =>
        cases hc : r.isClientError with
        | true =>
          have hretry : http.retry attempts (left + 1) attempt = .error (.httpStatusError r) := by
            simp [ServiceHTTPClient.retry, ha, hs, hc]
          rw [hretry]
          simp only [Attempt.outcome, ClientWorld.answer, hs', hc', hs, hc, if_true,
            Bool.false_eq_true, if_false] at hrun
          exact ⟨acts, _, _, hrun, ended_finish, rfl⟩
        | false =>
          refine hnext ?_ ?_
          · simp [ServiceHTTPClient.retry, ha, hs, hc]
          · simp [Attempt.outcome, ClientWorld.answer, hs', hc', hs, hc]

/-- For every sequence of outcomes and every state of an idle client: unless a body is nested too deep,
the call runs to its end in the client's world, with the result that `request` computes from what the
breaker answers. -/
theorem client_world_runs_request (hmax : c.maxRetries = http.maxRetries) (hidle : w.phase = .idle)
    {isOpen : Bool} (hopen : (w.breaker.isOpen c.toBreakerConfig w.now).1 = isOpen)
    (h : http.request isOpen attempts ≠ .error .recursionError) : ∃ acts w' result,
      Run (ClientWorld.step c) (fun _ _ => True) w (.call :: acts) w' ∧ w'.Ended result ∧
      SameResult (http.request isOpen attempts) result := by
  have hcall : w.step c .call = some (w.call c) := by simp only [ClientWorld.step, hidle]
  rcases hb : w.breaker.isOpen c.toBreakerConfig w.now with ⟨open', b⟩
  rw [hb] at hopen
  obtain rfl : open' = isOpen := hopen
  cases open' with
  | true =>
    refine ⟨[], w.call c, .error .circuitOpen, .single trivial hcall, ?_, trivial⟩
    simp only [ClientWorld.call, hb, if_true]
    exact ended_finish
  | false =>
    obtain ⟨acts, w', result, hrun, hend, hsame⟩ := loop_runs_retry http.maxRetries 0 (by omega) hmax
      h (w.setBreaker b) (w.setBreaker b).now none
    refine ⟨acts, w', result, .cons trivial hcall ?_, hend, hsame⟩
    simp only [ClientWorld.call, hb, Bool.false_eq_true, if_false]
    exact hrun

end World

end Http
end TrShared
