import TrShared.Http.InternalClient
import TrShared.Python.JsonRoundTrip

/-!
# TrShared.Middleware.ExceptionHandlers

How an exception becomes a response: `build_error_envelope` (`schemas/error_envelope.py`) and the
handlers of `middleware/exception_handlers.py`. `none` is an exception in the handler itself: an
application without an error code prefix, or an `extra` that repeats a keyword of the envelope.

* `handler_cases`, `envelopeMember_lookup`: what a response holds for the internal client to read.
* `safeHeaders_transport`: no header of an exception can speak about the framing of the body.
-/

namespace TrShared
namespace Middleware
namespace Errors

open Python Http

/-- `ErrorCategory` of `contracts/errors.py`. -/
inductive ErrorCategory where
  | validation
  | auth
  | forbidden
  | notFound
  | conflict
  | contentTooLarge
  | rateLimit
  | database
  | internal
  | badGateway
  | unavailable
  | timeout
  deriving DecidableEq, Repr

def ErrorCategory.value : ErrorCategory → String
  | .validation => "VALIDATION"
  | .auth => "AUTH"
  | .forbidden => "FORBIDDEN"
  | .notFound => "NOT_FOUND"
  | .conflict => "CONFLICT"
  | .contentTooLarge => "CONTENT_TOO_LARGE"
  | .rateLimit => "RATE_LIMIT"
  | .database => "DATABASE"
  | .internal => "INTERNAL"
  | .badGateway => "BAD_GATEWAY"
  | .unavailable => "UNAVAILABLE"
  | .timeout => "TIMEOUT"

/-- A `BaseAPIException` of any class, as the handler reads it. -/
structure ApiException where
  statusCode : Nat
  category : Option ErrorCategory := none
  error : String
  detailMessage : Json := .null
  errorCode : Json := .null
  headers : Option (List (String × String)) := none
  extra : Dict := []

structure ErrorResponse where
  statusCode : Nat
  headers : Option (List (String × String))
  /-- `none` for a response without a body. -/
  content : Option Json

/-- `app.state.error_code_prefix`. -/
structure App where
  errorCodePrefix : Option String

/-! ## The envelope -/

/-- The loop over `extra`, which leaves out the values that are `None`. -/
def addExtra (inner extra : Dict) : Dict :=
  extra.foldl (fun inner p => if p.2 = .null then inner else setItem inner p.1 p.2) inner

def envelopeMember (message : String) (code : Json) (correlationId : Option String) (extra : Dict) :
    Dict :=
  let inner : Dict := [("message", .str message)]
  let inner := if code = .null then inner else setItem inner "code" code
  let inner := match correlationId with
    | none => inner
    | some c => setItem inner "correlation_id" (.str c)
  addExtra inner extra

/-- `build_error_envelope`. -/
def buildErrorEnvelope (message : String) (code : Json) (correlationId : Option String)
    (extra : Dict) : Json :=
  .obj [("error", .obj (envelopeMember message code correlationId extra))]

/-- `framework_error_code`. -/
def frameworkErrorCode (app : App) (suffix : String) : Option String :=
  app.errorCodePrefix.map (fun p => p ++ "_" ++ suffix)

/-! ## The handlers -/

def transportHeaders : List String :=
  ["content-length", "content-type", "transfer-encoding", "connection"]

/-- `str.lower` of a header name, which is sent as ASCII. -/
def lower (s : String) : String := String.ofList (s.toList.map Char.toLower)

/-- `_safe_headers`. -/
def safeHeaders : Option (List (String × String)) → Option (List (String × String))
  | none => none
  | some headers => some (headers.filter (fun h => !transportHeaders.contains (lower h.1)))

/-- `_default_code_suffix`. -/
def defaultCodeSuffix (exc : ApiException) : String :=
  match exc.category with
  | some c => c.value ++ "_000"
  | none => "HTTP_" ++ toString exc.statusCode

/-- The keywords that `base_api_exception_handler` passes beside `**exc.extra`. -/
def envelopeKeywords : List String := ["message", "code", "correlation_id", "detail"]

def errorCodeOf (app : App) (exc : ApiException) : Option Json :=
  if exc.errorCode.truthy then some exc.errorCode
  else (frameworkErrorCode app (defaultCodeSuffix exc)).map .str

def baseApiExceptionHandler (app : App) (correlationId : Option String) (exc : ApiException) :
    Option ErrorResponse :=
  match errorCodeOf app exc with
  | none => none
  | some code =>
    if exc.extra.any (fun p => envelopeKeywords.contains p.1) then none
    else
      some { statusCode := exc.statusCode
             content := some (buildErrorEnvelope exc.error code correlationId
               (("detail", exc.detailMessage) :: exc.extra))
             headers := safeHeaders exc.headers }

/-- `detail` is `str(exc.detail)`, `isBodyAllowed` is `is_body_allowed_for_status_code`. -/
def httpExceptionHandler (isBodyAllowed : Nat → Bool) (app : App) (correlationId : Option String)
    (statusCode : Nat) (detail : String) (headers : Option (List (String × String))) :
    Option ErrorResponse :=
  if isBodyAllowed statusCode then
    (frameworkErrorCode app ("HTTP_" ++ toString statusCode)).map (fun code =>
      { statusCode := statusCode
        content := some (buildErrorEnvelope detail (.str code) correlationId [])
        headers := safeHeaders headers })
  else some { statusCode := statusCode, headers := safeHeaders headers, content := none }

/-- `fields` is `jsonable_encoder(exc.errors())`. -/
def validationExceptionHandler (app : App) (correlationId : Option String) (fields : Json) :
    Option ErrorResponse :=
  (frameworkErrorCode app "VALIDATION_000").map (fun code =>
    { statusCode := 422
      content := some (buildErrorEnvelope "Validation failed" (.str code) correlationId
        [("fields", fields)])
      headers := none })

/-- No header of an exception says how the body is framed, in whatever case it is written. -/
theorem safeHeaders_transport {headers safe : List (String × String)}
    (h : safeHeaders (some headers) = some safe) :
    (∀ p ∈ safe, lower p.1 ∉ transportHeaders) ∧
      ∀ p ∈ headers, lower p.1 ∉ transportHeaders → p ∈ safe := by
  cases h
  refine ⟨fun p hp => ?_, fun p hp hn => List.mem_filter.2 ⟨hp, by simpa using hn⟩⟩
  have hq := (List.mem_filter.1 hp).2
  simpa using hq

/-! ## What the envelope holds -/

theorem addExtra_lookup {inner extra : Dict} {k : String} (h : k ∉ extra.map Prod.fst) :
    (addExtra inner extra).lookup k = inner.lookup k := by
  induction extra generalizing inner with
  | nil => rfl
  | cons p extra ih =>
    rw [List.map_cons, List.mem_cons, not_or] at h
    simp only [addExtra, List.foldl_cons] at ih ⊢
    rw [ih h.2]
    split
    · rfl
    · rw [lookup_setItem, if_neg h.1]

theorem addExtra_nodup {inner extra : Dict} (h : (inner.map Prod.fst).Nodup) :
    ((addExtra inner extra).map Prod.fst).Nodup := by
  induction extra generalizing inner with
  | nil => exact h
  | cons p extra ih =>
    simp only [addExtra, List.foldl_cons] at ih ⊢
    split
    · exact ih h
    · exact ih (keys_setItem_nodup h _ _)

theorem addExtra_plain {f : Floats} {inner extra : Dict} (h : PlainEntries f inner)
    (he : PlainEntries f extra) : PlainEntries f (addExtra inner extra) := by
  induction extra generalizing inner with
  | nil => exact h
  | cons p extra ih =>
    obtain ⟨k, v⟩ := p
    simp only [addExtra, List.foldl_cons] at ih ⊢
    split
    · exact ih h he.2
    · exact ih (plainEntries_setItem h _ he.1) he.2

/-- What the internal client needs of an exception to read it back. -/
structure Sendable (f : Floats) (exc : ApiException) : Prop where
  error : exc.error ≠ ""
  detail : Plain f exc.detailMessage
  code : Plain f exc.errorCode
  extra : PlainEntries f exc.extra

section Handler

variable {app : App} {correlationId : Option String} {exc : ApiException} {resp : ErrorResponse}

/-- What a response of `base_api_exception_handler` holds. -/
theorem handler_cases (h : baseApiExceptionHandler app correlationId exc = some resp) :
    ∃ code, errorCodeOf app exc = some code ∧ (∀ k ∈ envelopeKeywords, k ∉ exc.extra.map Prod.fst) ∧
      resp.statusCode = exc.statusCode ∧
      resp.content = some (.obj [("error", .obj (envelopeMember exc.error code correlationId
        (("detail", exc.detailMessage) :: exc.extra)))]) := by
  unfold baseApiExceptionHandler at h
  split at h
  · cases h
  · rename_i code hcode
    split at h
    · cases h
    · rename_i hkeys
      cases h
      refine ⟨code, hcode, ?_, rfl, rfl⟩
      intro k hk hm
      obtain ⟨p, hp, rfl⟩ := List.mem_map.1 hm
      exact hkeys (List.any_eq_true.2 ⟨p, hp, by simpa using hk⟩)

theorem errorCodeOf_truthy {code : Json} (h : errorCodeOf app exc = some code) :
    code.truthy = true := by
  unfold errorCodeOf at h
  split at h
  · rename_i ht
    cases h
    exact ht
  · simp only [frameworkErrorCode, Option.map_map, Option.map_eq_some_iff] at h
    obtain ⟨p, _, rfl⟩ := h
    have hne : p ++ "_" ++ defaultCodeSuffix exc ≠ "" := by
      intro he
      have := congrArg String.length he
      simp [String.length_append] at this
    simp [Json.truthy, hne]

theorem envelopeMember_nodup {message : String} {code : Json} {extra : Dict} :
    ((envelopeMember message code correlationId extra).map Prod.fst).Nodup := by
  unfold envelopeMember
  refine addExtra_nodup ?_
  have hmessage : (([("message", Json.str message)] : Dict).map Prod.fst).Nodup :=
    List.nodup_singleton _
  have hcode : ((if code = .null then [("message", Json.str message)]
      else setItem [("message", Json.str message)] "code" code).map Prod.fst).Nodup := by
    split
    · exact hmessage
    · exact keys_setItem_nodup hmessage _ _
  cases correlationId with
  | none => exact hcode
  | some c => exact keys_setItem_nodup hcode _ _

/-- The members that the internal client reads. -/
theorem envelopeMember_lookup {message : String} {code detail : Json} {extra : Dict}
    (hcode : code.truthy = true) (hkeys : ∀ k ∈ envelopeKeywords, k ∉ extra.map Prod.fst) :
    getD (envelopeMember message code correlationId (("detail", detail) :: extra)) "message" .null =
      .str message ∧
    getD (envelopeMember message code correlationId (("detail", detail) :: extra)) "code" .null =
      code ∧
    getD (envelopeMember message code correlationId (("detail", detail) :: extra)) "detail" .null =
      detail := by
  have hne : code ≠ .null := by
    rintro rfl
    cases hcode
  have hfold : ∀ inner k, k ∈ envelopeKeywords →
      (addExtra inner (("detail", detail) :: extra)).lookup k =
        (if detail = .null then inner else setItem inner "detail" detail).lookup k := by
    intro inner k hk
    exact addExtra_lookup (hkeys k hk)
  have hset : ∀ (d : Dict) (v : Json) (k : String), k ≠ "detail" →
      (if v = .null then d else setItem d "detail" v).lookup k = d.lookup k := by
    intro d v k hk
    split
    · rfl
    · rw [lookup_setItem, if_neg hk]
  simp only [envelopeMember, if_neg hne, getD]
  refine ⟨?_, ?_, ?_⟩
  · rw [hfold _ _ (by decide), hset _ _ _ (by decide)]
    cases correlationId <;> simp [lookup_setItem]
  · rw [hfold _ _ (by decide), hset _ _ _ (by decide)]
    cases correlationId <;> simp [lookup_setItem]
  · rw [hfold _ _ (by decide)]
    split
    · rename_i hd
      rw [hd]
      cases correlationId <;> simp [lookup_setItem, List.lookup_cons]
    · simp [lookup_setItem]

theorem envelopeMember_plain {f : Floats} {message : String} {code : Json} {extra : Dict}
    (hcode : Plain f code) (hextra : PlainEntries f extra) :
    PlainEntries f (envelopeMember message code correlationId extra) := by
  unfold envelopeMember
  refine addExtra_plain ?_ hextra
  have hmessage : PlainEntries f [("message", Json.str message)] := ⟨trivial, trivial⟩
  have hinner : PlainEntries f (if code = .null then [("message", Json.str message)]
      else setItem [("message", Json.str message)] "code" code) := by
    split
    · exact hmessage
    · exact plainEntries_setItem hmessage _ hcode
  cases correlationId with
  | none => exact hinner
  | some c => exact plainEntries_setItem hinner _ trivial

end Handler

end Errors
end Middleware
end TrShared
