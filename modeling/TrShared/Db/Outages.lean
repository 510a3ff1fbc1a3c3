import TrShared.Alerts.Slack
import TrShared.Middleware.ExceptionHandlers

/-!
# TrShared.Db.Outages

What a failure of the database becomes on its way to the client: the translation of driver exceptions
in `db/session.py`, the handlers of `db/exception_handlers.py`, and `GlobalErrorHandlerMiddleware`
(`middleware/error_handler.py`), which starts an alert for a response with a 5xx status. The middleware
knows an outage by its error code, which it reads from the text of the body, or by its `Retry-After`. The
alert is posted if there is a webhook and the hourly budget of its key allows it.

* `outage_pages_nobody`: no failure that is an outage starts an alert or takes from the budget, every other
  exception starts one, and the client of an outage gets a 503 or a 504 with the outage code.
* `api_error_pages_iff`: for which of the exceptions of the library an alert is posted.

Left out: text with lone surrogates, which `JSONResponse` cannot encode, and nesting that is too deep for
`json`.
-/

namespace TrShared
namespace Db
namespace Outages

open Alerts Python Middleware.Errors

/-- `contracts/availability.py`. -/
inductive DatabaseOutageCode where
  | connectFailed
  | connectionLost
  | poolExhausted
  | statementTimeout
  deriving DecidableEq, Repr

def DatabaseOutageCode.value : DatabaseOutageCode → String
  | .connectFailed => "DATABASE_UNAVAILABLE_001"
  | .connectionLost => "DATABASE_UNAVAILABLE_002"
  | .poolExhausted => "DATABASE_UNAVAILABLE_003"
  | .statementTimeout => "DATABASE_TIMEOUT_001"

/-- The classes of Python that the translation asks for. `TimeoutError` is an `OSError`; what is not an
`Exception` is a cancellation or the like. -/
inductive ExceptionClass where
  | timeoutError
  | osError
  | exception
  | baseException
  deriving DecidableEq, Repr

structure DriverError where
  cls : ExceptionClass
  sqlstate : Option String := none
  pgcode : Option String := none

/-! ## `db/session.py` -/

/-- `_sqlstate`. -/
def DriverError.state (e : DriverError) : Option String :=
  match e.sqlstate with
  | some s => if s = "" then e.pgcode else some s
  | none => e.pgcode

def DriverError.isOsError (e : DriverError) : Bool :=
  decide (e.cls = .timeoutError ∨ e.cls = .osError)

/-- `_is_unavailable`. -/
def isUnavailable (e : DriverError) (sqlstatePrefixes : List String) : Bool :=
  e.isOsError || sqlstatePrefixes.any (fun p => startswith (e.state.getD "") p)

/-- `isOperationalError` is about the `OperationalError` of the sync driver. -/
def isConnectFailure (isAsync isOperationalError : Bool) (e : DriverError) : Bool :=
  if isAsync then isUnavailable e ["08", "53", "57"] else isOperationalError

/-- `db/errors.py`. -/
inductive DatabaseError where
  | unavailable (code : DatabaseOutageCode)
  | timeout
  deriving DecidableEq, Repr

structure ExceptionContext where
  originalException : DriverError
  isPrePing : Bool := false
  /-- As the dialect has found. -/
  isDisconnect : Bool
  invalidatePoolOnDisconnect : Bool := true

/-- `_translate`: what it raises, and what it leaves in the context. -/
def translate (context : ExceptionContext) : Option DatabaseError × ExceptionContext :=
  let original := context.originalException
  if context.isPrePing ∨ original.cls = .baseException then (none, context)
  else
    let clientTimedOut : Bool := decide (original.cls = .timeoutError)
    let context :=
      if clientTimedOut then { context with isDisconnect := true, invalidatePoolOnDisconnect := false }
      else context
    if clientTimedOut ∨ original.state = some "57014" then (some .timeout, context)
    else
      let context :=
        if isUnavailable original ["08", "57P"] then { context with isDisconnect := true } else context
      if context.isDisconnect then (some (.unavailable .connectionLost), context) else (none, context)

/-- Where the database fails a request. -/
inductive Failure where
  | connect (isAsync isOperationalError : Bool) (e : DriverError)
  /-- No connection of the pool became free in time. -/
  | checkout
  | statement (context : ExceptionContext)

def Failure.isException : Failure → Bool
  | .connect _ _ e => decide (e.cls ≠ .baseException)
  | .checkout => true
  | .statement context => decide (context.originalException.cls ≠ .baseException)

/-- The exception of `db/errors.py` that the application gets, if any. -/
def Failure.raised : Failure → Option DatabaseError
  | .connect isAsync isOperationalError e =>
    if e.cls ≠ .baseException ∧ isConnectFailure isAsync isOperationalError e then
      some (.unavailable .connectFailed)
    else none
  | .checkout => some (.unavailable .poolExhausted)
  | .statement context => (translate context).1

/-! ## `db/exception_handlers.py` -/

def serviceUnavailableError (detail : String) (code : DatabaseOutageCode) (retryAfter : Option Nat) :
    ApiException :=
  { statusCode := 503, category := some .unavailable, error := "Service unavailable"
    detailMessage := .str detail, errorCode := .str code.value
    headers := retryAfter.map (fun n => [("Retry-After", toString n)]) }

def serviceTimeoutError (detail : String) (code : DatabaseOutageCode) : ApiException :=
  { statusCode := 504, category := some .timeout, error := "Service timeout"
    detailMessage := .str detail, errorCode := .str code.value }

/-- `_database_unavailable` and `_statement_timeout`. -/
def DatabaseError.api : DatabaseError → ApiException
  | .unavailable code => serviceUnavailableError "Database unavailable" code (some 1)
  | .timeout => serviceTimeoutError "Database statement timed out" .statementTimeout

/-! ## Responses -/

structure HttpResponse where
  status : Nat
  headers : List (String × String)
  body : String

/-- `Response.init_headers`. -/
def initHeaders (headers : Option (List (String × String))) (status : Nat) (body : String)
    (mediaType : Option String) : List (String × String) :=
  let raw := (headers.getD []).map (fun e => (lower e.1, e.2))
  let has (name : String) : Bool := raw.any (fun e => e.1 == name)
  let length :=
    if has "content-length" ∨ status < 200 ∨ status = 204 ∨ status = 304 then []
    else [("content-length", toString body.utf8ByteSize)]
  let type :=
    match mediaType with
    | some mediaType => if has "content-type" then [] else [("content-type", mediaType)]
    | none => []
  raw ++ length ++ type

/-- What is sent of an `ErrorResponse`. -/
def jsonResponse (f : Floats) (resp : ErrorResponse) : HttpResponse :=
  let body :=
    match resp.content with
    | some content => dumpsAs f { compact := true, ensureAscii := false } content
    | none => ""
  { status := resp.statusCode, body := body
    headers := initHeaders resp.headers resp.statusCode body
      (resp.content.map (fun _ => "application/json")) }

/-! ## `middleware/error_handler.py` -/

/-- `_error_code`. -/
def errorCode (f : Floats) (body : String) : Option String :=
  match loads f body with
  | some (.obj envelope) =>
    match envelope.lookup "error" with
    | some (.obj inner) =>
      match inner.lookup "code" with
      | some (.str code) => some code
      | _ => none
    | _ => none
  | _ => none

/-- `_UNPAGED_ERROR_CODES`. -/
def unpagedErrorCodes : List String :=
  [DatabaseOutageCode.connectFailed, .connectionLost, .poolExhausted, .statementTimeout].map
    DatabaseOutageCode.value

/-- `_is_unpaged`. -/
def isUnpaged (resp : HttpResponse) (code : Option String) : Bool :=
  (decide (resp.status = 503) && resp.headers.any (fun e => e.1 == lower "Retry-After")) ||
    code.any (fun code => unpagedErrorCodes.contains code)

/-- The response that the middleware makes of one with a 5xx status: of a header that is there several
times the last value is kept. -/
def rebuild (resp : HttpResponse) : HttpResponse :=
  let headers : OrderedDict String String := resp.headers.foldl (fun d e => d.set e.1 e.2) .empty
  { resp with headers := initHeaders (some headers.entries) resp.status resp.body none }

/-- What decides about an alert. -/
structure AlertContext where
  service : String
  errorCode : Option String
  errorType : String

/-- The key of the budget: `error_code or error_type`. -/
def AlertContext.key (ctx : AlertContext) : String :=
  let code := ctx.errorCode.getD ""
  ctx.service ++ ":" ++ (if code = "" then ctx.errorType else code)

/-- The arguments that decide about an alert. The budget is handed along. -/
structure GlobalErrorHandlerMiddleware where
  serviceName : String := "unknown"
  slackWebhookUrl : String := ""
  alertOn5xx : Bool := true

/-- `_build_context`. -/
def GlobalErrorHandlerMiddleware.buildContext (m : GlobalErrorHandlerMiddleware) (statusCode : Nat)
    (errorType : String) (errorCode : Option String) : AlertContext :=
  { service := m.serviceName, errorCode := errorCode
    errorType := if errorType = "" then "HTTP" ++ toString statusCode else errorType }

/-- `_fire_alert`: the context of the task that it starts. -/
def GlobalErrorHandlerMiddleware.fireAlert (m : GlobalErrorHandlerMiddleware) (ctx : AlertContext) :
    Option AlertContext :=
  if m.slackWebhookUrl = "" then none else some ctx

/-- `_send_slack_alert`: whether the message is posted, and what is left of the budget. -/
def AlertContext.sendSlackAlert (ctx : AlertContext) (budget : SlackAlertBudget) (now : Int) :
    Bool × SlackAlertBudget :=
  budget.allow now ctx.key

/-- How a request ends inside the middleware. -/
inductive Ended where
  | response (resp : HttpResponse)
  /-- `errorType` is the name of the class. -/
  | exception (errorType : String)
  | cancelled

/-- What the client gets, and the task that posts an alert. -/
structure Served where
  response : Option HttpResponse
  alert : Option AlertContext

/-- The task runs at any later moment, with the budget that it finds then. -/
def Served.post (served : Served) (budget : SlackAlertBudget) (now : Int) : Bool × SlackAlertBudget :=
  match served.alert with
  | some ctx => ctx.sendSlackAlert budget now
  | none => (false, budget)

/-- `GlobalErrorHandlerMiddleware.dispatch`. -/
def GlobalErrorHandlerMiddleware.dispatch (m : GlobalErrorHandlerMiddleware) (f : Floats) (app : App)
    (correlationId : Option String) : Ended → Served
  | .response resp =>
    if m.alertOn5xx ∧ 500 ≤ resp.status then
      let code := errorCode f resp.body
      { response := some (rebuild resp)
        alert := if isUnpaged resp code then none
          else m.fireAlert (m.buildContext resp.status "" code) }
    else { response := some resp, alert := none }
  | .exception errorType =>
    { response := (frameworkErrorCode app "INTERNAL_000").map (fun code =>
        jsonResponse f
          { statusCode := 500, headers := none
            content := some (buildErrorEnvelope "Internal server error" (.str code)
              (some (correlationId.getD "unknown")) []) })
      alert := m.fireAlert (m.buildContext 500 errorType none) }
  | .cancelled => { response := none, alert := none }

/-- An exception of the library, through its handler. The handler raises without a prefix for the code,
and for an `extra` that repeats a keyword. -/
def handled (f : Floats) (app : App) (correlationId : Option String) (exc : ApiException) : Ended :=
  match baseApiExceptionHandler app correlationId exc with
  | some resp => .response (jsonResponse f resp)
  | none => .exception (if (errorCodeOf app exc).isNone then "RuntimeError" else "TypeError")

/-- `errorType` is the class of what the application gets where nothing is translated. -/
def serve (m : GlobalErrorHandlerMiddleware) (f : Floats) (app : App) (correlationId : Option String)
    (errorType : String) (failure : Failure) : Served :=
  m.dispatch f app correlationId
    (if failure.isException then
      match failure.raised with
      | some e => handled f app correlationId e.api
      | none => .exception errorType
    else .cancelled)

/-- What an outage is: the connection cannot be had, or is lost, or the statement takes too long. -/
def Failure.IsOutage : Failure → Prop
  | .connect true _ e => e.cls ≠ .baseException ∧
      (e.isOsError = true ∨ ∃ p ∈ ["08", "53", "57"], startswith (e.state.getD "") p = true)
  | .connect false isOperationalError e => e.cls ≠ .baseException ∧ isOperationalError = true
  | .checkout => True
  | .statement context => context.isPrePing = false ∧ context.originalException.cls ≠ .baseException ∧
      (context.originalException.isOsError = true ∨ context.isDisconnect = true ∨
        context.originalException.state = some "57014" ∨
        ∃ p ∈ ["08", "57P"], startswith (context.originalException.state.getD "") p = true)

/-! ## The translation -/

theorem isUnavailable_iff {e : DriverError} {prefixes : List String} : isUnavailable e prefixes = true ↔
    e.isOsError = true ∨ ∃ p ∈ prefixes, startswith (e.state.getD "") p = true := by
  simp [isUnavailable]

theorem isOsError_of_timeout {e : DriverError} (h : e.cls = .timeoutError) : e.isOsError = true := by
  simp [DriverError.isOsError, h]

theorem translate_raised (context : ExceptionContext) : (translate context).1 =
    if context.isPrePing ∨ context.originalException.cls = .baseException then none
    else if context.originalException.cls = .timeoutError ∨
        context.originalException.state = some "57014" then some .timeout
    else if isUnavailable context.originalException ["08", "57P"] ∨ context.isDisconnect then
      some (.unavailable .connectionLost)
    else none := by
  unfold translate
  dsimp only
  by_cases hskip : context.isPrePing = true ∨ context.originalException.cls = .baseException
  · rw [if_pos hskip, if_pos hskip]
  · rw [if_neg hskip, if_neg hskip]
    by_cases htimeout : context.originalException.cls = .timeoutError
    · simp [htimeout]
    · by_cases hcanceled : context.originalException.state = some "57014"
      · simp [hcanceled]
      · by_cases hlost : isUnavailable context.originalException ["08", "57P"] = true
        · simp [htimeout, hcanceled, hlost]
        · by_cases hdis : context.isDisconnect = true
          · simp [htimeout, hcanceled, hlost, hdis]
          · simp [htimeout, hcanceled, hlost, hdis]

theorem translate_isSome {context : ExceptionContext} : (translate context).1.isSome = true ↔
    Failure.IsOutage (.statement context) := by
  have hlost := @isUnavailable_iff context.originalException ["08", "57P"]
  have htimeout := @isOsError_of_timeout context.originalException
  rw [translate_raised]
  unfold Failure.IsOutage
  split
  · rename_i h
    refine ⟨(fun hs => by cases hs), fun ho => ?_⟩
    rcases h with h | h
    · rw [ho.1] at h
      cases h
    · exact absurd h ho.2.1
  · rename_i h
    obtain ⟨hping, hcls⟩ := not_or.1 h
    split
    · rename_i h'
      exact ⟨fun _ => ⟨by simpa using hping, hcls, h'.imp htimeout (fun hs => .inr (.inl hs))⟩,
        fun _ => rfl⟩
    · rename_i h'
      split
      · rename_i h''
        refine ⟨fun _ => ⟨by simpa using hping, hcls, ?_⟩, fun _ => rfl⟩
        rcases h'' with h'' | h''
        · exact (hlost.1 h'').imp_right (fun hs => .inr (.inr hs))
        · exact .inr (.inl h'')
      · rename_i h''
        refine ⟨(fun hs => by cases hs), fun ho => ?_⟩
        obtain ⟨hnot, hdis⟩ := not_or.1 h''
        rcases ho.2.2 with hos | hd | hst | hp
        · exact absurd (hlost.2 (.inl hos)) hnot
        · exact absurd hd hdis
        · exact absurd (.inr hst) h'
        · exact absurd (hlost.2 (.inr hp)) hnot

/-- The application gets a typed exception exactly for an outage. -/
theorem raised_isSome {failure : Failure} : failure.raised.isSome = true ↔ failure.IsOutage := by
  cases failure with
  | checkout => simp [Failure.raised, Failure.IsOutage]
  | statement context => exact translate_isSome
  | connect isAsync isOperationalError e =>
    cases isAsync with
    | true =>
      have h := @isUnavailable_iff e ["08", "53", "57"]
      simp only [Failure.raised, isConnectFailure, if_true, Failure.IsOutage]
      split
      · rename_i hc
        exact ⟨fun _ => ⟨hc.1, h.1 hc.2⟩, fun _ => rfl⟩
      · rename_i hc
        exact ⟨(fun hs => by cases hs), fun ho => absurd ⟨ho.1, h.2 ho.2⟩ hc⟩
    | false =>
      simp only [Failure.raised, isConnectFailure, Bool.false_eq_true, if_false, Failure.IsOutage]
      split
      · rename_i hc
        exact ⟨fun _ => hc, fun _ => rfl⟩
      · rename_i hc
        exact ⟨(fun hs => by cases hs), fun ho => absurd ho hc⟩

theorem isException_of_raised {failure : Failure} {e : DatabaseError} (h : failure.raised = some e) :
    failure.isException = true := by
  have ho := raised_isSome.1 (by rw [h]; rfl)
  cases failure with
  | checkout => rfl
  | statement context => exact decide_eq_true ho.2.1
  | connect isAsync isOperationalError e =>
    cases isAsync with
    | true => exact decide_eq_true ho.1
    | false => exact decide_eq_true ho.1

/-! ## Posting an alert -/

theorem post_fireAlert {m : GlobalErrorHandlerMiddleware} {ctx : AlertContext} {r : Option HttpResponse}
    {budget : SlackAlertBudget} {now : Int} :
    ((Served.mk r (m.fireAlert ctx)).post budget now).1 = true ↔
      m.slackWebhookUrl ≠ "" ∧ (budget.allow now ctx.key).1 = true := by
  simp only [GlobalErrorHandlerMiddleware.fireAlert]
  split
  · rename_i h
    simp [Served.post, h]
  · rename_i h
    simp [Served.post, AlertContext.sendSlackAlert, h]

/-! ## What the middleware reads of a response -/

section Responses

variable {f : Floats} {app : App} {correlationId : Option String} {exc : ApiException}
  {resp : ErrorResponse}

/-- A JSON value as an error code. -/
def codeText : Json → Option String
  | .str code => some code
  | _ => none

/-- The code is read from the text as the handler has put it there. -/
theorem errorCode_sent (hs : Sendable f exc) (h : baseApiExceptionHandler app correlationId exc = some resp) :
    ∃ code, errorCodeOf app exc = some code ∧
      errorCode f (jsonResponse f resp).body = codeText code := by
  obtain ⟨code, hcode, hkeys, _, hcontent⟩ := handler_cases h
  have ht := errorCodeOf_truthy hcode
  have hplaincode : Plain f code := by
    unfold errorCodeOf at hcode
    split at hcode
    · cases hcode
      exact hs.code
    · obtain ⟨_, _, rfl⟩ := Option.map_eq_some_iff.1 hcode
      trivial
  have hplain : Plain f (.obj [("error", .obj (envelopeMember exc.error code correlationId
      (("detail", exc.detailMessage) :: exc.extra)))]) :=
    ⟨List.nodup_singleton _, ⟨envelopeMember_nodup,
      envelopeMember_plain hplaincode ⟨hs.detail, hs.extra⟩⟩, trivial⟩
  obtain ⟨_, hlookup, _⟩ :=
    @envelopeMember_lookup correlationId exc.error code exc.detailMessage exc.extra ht hkeys
  refine ⟨code, hcode, ?_⟩
  simp only [errorCode, jsonResponse, hcontent, loads_dumpsAs f _ hplain]
  simp only [List.lookup_cons_self]
  cases hl : (envelopeMember exc.error code correlationId
      (("detail", exc.detailMessage) :: exc.extra)).lookup "code" with
  | none =>
    rw [getD, hl] at hlookup
    rw [← (hlookup : Json.null = code)] at ht
    cases ht
  | some v =>
    rw [getD, hl] at hlookup
    obtain rfl : v = code := hlookup
    cases v <;> rfl

theorem any_initHeaders {headers : Option (List (String × String))} {status : Nat} {body name : String}
    {mediaType : Option String} (hname : name ≠ "content-length" ∧ name ≠ "content-type") :
    (initHeaders headers status body mediaType).any (fun e => e.1 == name) =
      (headers.getD []).any (fun e => lower e.1 == name) := by
  have hlength : ("content-length" == name) = false := beq_eq_false_iff_ne.2 (Ne.symm hname.1)
  have htype : ("content-type" == name) = false := beq_eq_false_iff_ne.2 (Ne.symm hname.2)
  have hnone : ∀ (c : Prop) [Decidable c] (n v : String), (n == name) = false →
      (if c then [] else [(n, v)]).any (fun e : String × String => e.1 == name) = false := by
    intro c _ n v hn
    split
    · rfl
    · simp [hn]
  simp only [initHeaders, List.any_append, List.any_map, hnone _ _ _ hlength, Bool.or_false]
  cases mediaType with
  | none => simp [Function.comp_def]
  | some mediaType => simp only [hnone _ _ _ htype, Bool.or_false, Function.comp_def]

/-- No header of the framing is needed to find `Retry-After`. -/
theorem any_safeHeaders (headers : Option (List (String × String))) :
    ((safeHeaders headers).getD []).any (fun e => lower e.1 == "retry-after") =
      (headers.getD []).any (fun e => lower e.1 == "retry-after") := by
  cases headers with
  | none => rfl
  | some headers =>
    rw [Bool.eq_iff_iff]
    simp only [safeHeaders, Option.getD_some, List.any_eq_true, List.mem_filter, beq_iff_eq]
    constructor
    · intro h
      obtain ⟨e, he, hn⟩ := h
      exact ⟨e, he.1, hn⟩
    · intro h
      obtain ⟨e, he, hn⟩ := h
      refine ⟨e, ⟨he, ?_⟩, hn⟩
      rw [hn]
      decide

/-- The exception announces itself as a passing one. -/
def Announced (exc : ApiException) : Prop :=
  exc.statusCode = 503 ∧ (exc.headers.getD []).any (fun e => lower e.1 == "retry-after") = true

theorem handler_headers (h : baseApiExceptionHandler app correlationId exc = some resp) :
    resp.headers = safeHeaders exc.headers := by
  unfold baseApiExceptionHandler at h
  split at h
  · cases h
  · split at h
    · cases h
    · cases h
      rfl

theorem isUnpaged_sent (hs : Sendable f exc) (h : baseApiExceptionHandler app correlationId exc = some resp) :
    isUnpaged (jsonResponse f resp) (errorCode f (jsonResponse f resp).body) = true ↔
      Announced exc ∨ ∃ code ∈ unpagedErrorCodes, errorCodeOf app exc = some (.str code) := by
  obtain ⟨code, hcode, hread⟩ := errorCode_sent (f := f) hs h
  obtain ⟨_, _, _, hstatus, hcontent⟩ := handler_cases h
  have hlower : lower "Retry-After" = "retry-after" := by decide
  have hany : (jsonResponse f resp).headers.any (fun e => e.1 == lower "Retry-After") =
      (exc.headers.getD []).any (fun e => lower e.1 == "retry-after") := by
    rw [hlower, ← any_safeHeaders, ← handler_headers h]
    exact any_initHeaders (by decide)
  have hcodes : ((codeText code).any (fun code => unpagedErrorCodes.contains code) = true) ↔
      ∃ c ∈ unpagedErrorCodes, errorCodeOf app exc = some (.str c) := by
    rw [hcode]
    cases code <;> simp [codeText]
  rw [isUnpaged, hread, Bool.or_eq_true, hcodes, Bool.and_eq_true, decide_eq_true_eq, hany]
  rw [show (jsonResponse f resp).status = exc.statusCode from hstatus]
  rfl

/-- A response with a 5xx status is sent on, and starts an alert unless it is an outage's. -/
theorem dispatch_handled {m : GlobalErrorHandlerMiddleware} (h500 : 500 ≤ exc.statusCode)
    (h : baseApiExceptionHandler app correlationId exc = some resp) :
    m.dispatch f app correlationId (handled f app correlationId exc) =
      if m.alertOn5xx then
        { response := some (rebuild (jsonResponse f resp))
          alert := if isUnpaged (jsonResponse f resp) (errorCode f (jsonResponse f resp).body) then none
            else m.fireAlert (m.buildContext exc.statusCode ""
              (errorCode f (jsonResponse f resp).body)) }
      else { response := some (jsonResponse f resp), alert := none } := by
  obtain ⟨_, _, _, hstatus, _⟩ := handler_cases h
  have hsent : (jsonResponse f resp).status = exc.statusCode := hstatus
  simp only [handled, h, GlobalErrorHandlerMiddleware.dispatch, hsent, h500, and_true]

/-- The rebuilt response has the last value of every header, if no name is written in capitals. -/
theorem mem_rebuild {r : HttpResponse} {name value : String} (hlower : lower name = name)
    (hlast : (r.headers.reverse.find? (fun e => decide (e.1 = name))).map Prod.snd = some value) :
    (name, value) ∈ (rebuild r).headers := by
  have hget : (r.headers.foldl (fun (d : OrderedDict String String) e => d.set e.1 e.2) .empty).get name =
      some value := by
    rw [OrderedDict.get_foldl_set, hlast]
    rfl
  have hmem := OrderedDict.get_eq_some_iff.1 hget
  simp only [rebuild, initHeaders, Option.getD_some]
  refine List.mem_append_left _ (List.mem_append_left _ (List.mem_map.2 ⟨_, hmem, ?_⟩))
  rw [hlower]

end Responses

/-! ## Outages -/

section Outage

variable {f : Floats} {app : App} {correlationId : Option String}

theorem api_sendable (f : Floats) (e : DatabaseError) : Sendable f e.api := by
  cases e with
  | unavailable code =>
    exact ⟨by simp [DatabaseError.api, serviceUnavailableError], trivial, trivial, trivial⟩
  | timeout => exact ⟨by simp [DatabaseError.api, serviceTimeoutError], trivial, trivial, trivial⟩

def DatabaseError.code : DatabaseError → DatabaseOutageCode
  | .unavailable code => code
  | .timeout => .statementTimeout

theorem errorCodeOf_api (app : App) (e : DatabaseError) :
    errorCodeOf app e.api = some (.str e.code.value) := by
  cases e with
  | unavailable code => cases code <;> rfl
  | timeout => rfl

theorem handler_api (app : App) (correlationId : Option String) (e : DatabaseError) :
    ∃ resp, baseApiExceptionHandler app correlationId e.api = some resp := by
  have hextra : e.api.extra = [] := by cases e <;> rfl
  rw [baseApiExceptionHandler, errorCodeOf_api]
  simp [hextra]

theorem value_unpaged (code : DatabaseOutageCode) : code.value ∈ unpagedErrorCodes := by
  cases code <;> decide

/-- What the client gets of an outage. -/
theorem served_outage (m : GlobalErrorHandlerMiddleware) (f : Floats) (app : App)
    (correlationId : Option String) (e : DatabaseError) :
    ∃ r, m.dispatch f app correlationId (handled f app correlationId e.api) = ⟨some r, none⟩ ∧
      errorCode f r.body = some e.code.value ∧
      (e = .timeout ∧ r.status = 504 ∨
        e ≠ .timeout ∧ r.status = 503 ∧ ("retry-after", "1") ∈ r.headers) := by
  obtain ⟨resp, h⟩ := handler_api app correlationId e
  obtain ⟨_, _, _, hstatus, hcontent⟩ := handler_cases h
  obtain ⟨code, hcode, hread⟩ := errorCode_sent (f := f) (api_sendable f e) h
  have h500 : 500 ≤ e.api.statusCode := by
    cases e <;> simp [DatabaseError.api, serviceUnavailableError, serviceTimeoutError]
  have hunpaged := (isUnpaged_sent (f := f) (api_sendable f e) h).2
    (.inr ⟨_, value_unpaged e.code, errorCodeOf_api app e⟩)
  rw [errorCodeOf_api, Option.some.injEq] at hcode
  have hsent : errorCode f (jsonResponse f resp).body = some e.code.value := by
    rw [hread, ← hcode]
    rfl
  have hstatuses : e = .timeout ∧ (jsonResponse f resp).status = 504 ∨
      e ≠ .timeout ∧ (jsonResponse f resp).status = 503 ∧
        ((jsonResponse f resp).headers.reverse.find?
          (fun h => decide (h.1 = "retry-after"))).map Prod.snd = some "1" := by
    cases e with
    | timeout => exact .inl ⟨rfl, hstatus⟩
    | unavailable outage =>
      have hheaders : resp.headers = some [("Retry-After", "1")] := handler_headers h
      have hretry : lower "Retry-After" = "retry-after" := by decide
      refine .inr ⟨by simp, hstatus, ?_⟩
      simp [jsonResponse, initHeaders, hheaders, hcontent, hstatus, hretry, DatabaseError.api,
        serviceUnavailableError]
  rw [dispatch_handled h500 h, hunpaged]
  cases m.alertOn5xx with
  | true =>
    exact ⟨rebuild (jsonResponse f resp), rfl, hsent,
      hstatuses.imp_right (fun hr => ⟨hr.1, hr.2.1, mem_rebuild (by decide) hr.2.2⟩)⟩
  | false =>
    refine ⟨jsonResponse f resp, rfl, hsent, hstatuses.imp_right (fun hr => ⟨hr.1, hr.2.1, ?_⟩)⟩
    obtain ⟨h', hfind, hvalue⟩ := Option.map_eq_some_iff.1 hr.2.2
    have hname : h'.1 = "retry-after" := by simpa using List.find?_some hfind
    have hmem := List.mem_reverse.1 (List.mem_of_find?_eq_some hfind)
    rwa [← hname, ← hvalue]

/-- A statement that takes too long is no unavailable database. -/
theorem raised_code {failure : Failure} {code : DatabaseOutageCode}
    (h : failure.raised = some (.unavailable code)) : code ≠ .statementTimeout := by
  cases failure with
  | connect isAsync isOperationalError e =>
    simp only [Failure.raised] at h
    split at h
    · cases h
      decide
    · cases h
  | checkout =>
    cases h
    decide
  | statement context =>
    rw [Failure.raised, translate_raised] at h
    split at h
    · cases h
    · split at h
      · cases h
      · split at h
        · cases h
          decide
        · cases h

/-- For every way in which the database can fail a request, whatever the middleware is told and at any
state of its budget: an alert is posted exactly when the failure is an exception and not an outage, there
is a webhook and the budget allows the alert. An outage takes nothing from the budget, and of it the client
gets a response of its own, with a code of `DatabaseOutageCode`, as a 504 if a statement took too long and
else as a 503 that says when to try again. No error code prefix is needed for it. -/
theorem outage_pages_nobody (m : GlobalErrorHandlerMiddleware) (f : Floats) (app : App)
    (correlationId : Option String) (errorType : String) (failure : Failure)
    (budget : SlackAlertBudget) (now : Int) :
    (((serve m f app correlationId errorType failure).post budget now).1 = true ↔
      failure.isException = true ∧ ¬ failure.IsOutage ∧ m.slackWebhookUrl ≠ "" ∧
        (budget.allow now (m.buildContext 500 errorType none).key).1 = true) ∧
    (failure.IsOutage →
      ((serve m f app correlationId errorType failure).post budget now).2 = budget ∧
      ∃ r code, (serve m f app correlationId errorType failure).response = some r ∧
        errorCode f r.body = some (DatabaseOutageCode.value code) ∧
        (r.status = 504 ∧ code = .statementTimeout ∨
          r.status = 503 ∧ code ≠ .statementTimeout ∧ ("retry-after", "1") ∈ r.headers)) := by
  cases hraised : failure.raised with
  | none =>
    have hno : ¬ failure.IsOutage := by
      intro ho
      have hs := raised_isSome.2 ho
      rw [hraised] at hs
      cases hs
    refine ⟨?_, fun ho => absurd ho hno⟩
    cases hexception : failure.isException with
    | true =>
      simp only [serve, hexception, hraised, GlobalErrorHandlerMiddleware.dispatch, if_true,
        post_fireAlert, hno, not_false_eq_true, true_and]
    | false =>
      simp [serve, hexception, GlobalErrorHandlerMiddleware.dispatch, Served.post]
  | some e =>
    have ho : failure.IsOutage := raised_isSome.1 (by rw [hraised]; rfl)
    obtain ⟨r, hserved, hcode, hstatus⟩ := served_outage m f app correlationId e
    have hserve : serve m f app correlationId errorType failure = ⟨some r, none⟩ := by
      simp only [serve, isException_of_raised hraised, hraised, if_true, hserved]
    rw [hserve]
    refine ⟨⟨(fun hp => by cases hp), fun hp => absurd ho hp.2.1⟩,
      fun _ => ⟨rfl, r, e.code, rfl, hcode, ?_⟩⟩
    rcases hstatus with ⟨rfl, h504⟩ | ⟨hne, h503, hretry⟩
    · exact .inl ⟨h504, rfl⟩
    · cases e with
      | timeout => exact absurd rfl hne
      | unavailable code => exact .inr ⟨h503, raised_code hraised, hretry⟩

end Outage

/-- For which exceptions of the library an alert is posted: with `alert_on_5xx`, of those with a 5xx status
all but a 503 with `Retry-After` and those with the code of an outage, if there is a webhook and the budget
allows it. The key of the budget is the code, or the status where the code is no text. -/
theorem api_error_pages_iff (m : GlobalErrorHandlerMiddleware) (f : Floats) (app : App)
    (correlationId : Option String) (exc : ApiException) (resp : ErrorResponse) (hs : Sendable f exc)
    (h500 : 500 ≤ exc.statusCode) (h : baseApiExceptionHandler app correlationId exc = some resp)
    (budget : SlackAlertBudget) (now : Int) :
    ((m.dispatch f app correlationId (handled f app correlationId exc)).post budget now).1 = true ↔
      m.alertOn5xx = true ∧ ¬ Announced exc ∧
      (∀ code ∈ unpagedErrorCodes, errorCodeOf app exc ≠ some (.str code)) ∧
      m.slackWebhookUrl ≠ "" ∧
      (budget.allow now
        (m.buildContext exc.statusCode "" ((errorCodeOf app exc).bind codeText)).key).1 = true := by
  obtain ⟨code, hcode, hread⟩ := errorCode_sent (f := f) hs h
  have hunpaged := isUnpaged_sent (f := f) hs h
  have hread' : errorCode f (jsonResponse f resp).body = (errorCodeOf app exc).bind codeText := by
    rw [hcode, hread]
    rfl
  rw [dispatch_handled h500 h]
  cases m.alertOn5xx with
  | false => simp [Served.post]
  | true =>
    simp only [if_true, true_and]
    cases hu : isUnpaged (jsonResponse f resp) (errorCode f (jsonResponse f resp).body) with
    | true =>
      have hout := hunpaged.1 hu
      refine ⟨(fun hp => by cases hp), fun hp => ?_⟩
      rcases hout with ha | ⟨c, hc, hcode'⟩
      · exact absurd ha hp.1
      · exact absurd hcode' (hp.2.1 c hc)
    | false =>
      have hno : ¬ (Announced exc ∨ ∃ c ∈ unpagedErrorCodes, errorCodeOf app exc = some (.str c)) := by
        intro ho
        rw [hunpaged.2 ho] at hu
        cases hu
      obtain ⟨hannounced, hcodes⟩ := not_or.1 hno
      simp only [Bool.false_eq_true, if_false, post_fireAlert, hread']
      refine ⟨fun hp => ⟨hannounced, fun c hc he => hcodes ⟨c, hc, he⟩, hp⟩, fun hp => hp.2.2⟩

/-- A service that is told by another one that it is unavailable posts an alert, because it passes no
`Retry-After` on. -/
theorem second_hand_503_pages :
    let m : GlobalErrorHandlerMiddleware := { serviceName := "leads", slackWebhookUrl := "https://hooks" }
    let exc : ApiException := { statusCode := 503, category := some .unavailable
                                error := "Service unavailable", detailMessage := .str "crm: failed"
                                errorCode := .str "INTERNAL_CLIENT_UNAVAILABLE_001" }
    ((m.dispatch noFloats ⟨some "LEADS"⟩ none (handled noFloats ⟨some "LEADS"⟩ none exc)).post
      { perHour := 5 } 0).1 = true := by
  intro m exc
  refine (api_error_pages_iff m noFloats _ none exc _ ⟨by decide, trivial, trivial, trivial⟩ (by decide)
    rfl _ _).2 ⟨rfl, ?_, ?_, by decide, by decide⟩
  · exact fun h => absurd h.2 (by decide)
  · intro code hcode hc
    have hexc : errorCodeOf ⟨some "LEADS"⟩ exc = some (.str "INTERNAL_CLIENT_UNAVAILABLE_001") := by
      decide
    rw [hexc] at hc
    cases hc
    revert hcode
    decide

end Outages
end Db
end TrShared
