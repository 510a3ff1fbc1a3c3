import TrShared.Middleware.ExceptionHandlers

/-!
# TrShared.Http.ErrorPropagation

What becomes of an exception on its way through several services. Each service turns what it raises
into a response (`base_api_exception_handler`), the next one calls it through
`InternalServiceClient._call`, which turns the response into an exception again, and lets that pass.
On the wire is the text `JSONResponse` renders; between the answers of the callee there may be
timeouts, and answers that are retried.

* `error_crosses_services`: at any distance the caller sees the class, the status and the code of the
  origin, and its detail or of a 404 its title, if the status is one of `forwarded`, and a 503 otherwise.

Left out: text with lone surrogates, which `JSONResponse` cannot encode, and nesting that is too deep for
`json`.
-/

namespace TrShared
namespace Http

open Python Middleware.Errors

def ErrorClass.category : ErrorClass → ErrorCategory
  | .validationError => .validation
  | .authenticationError => .auth
  | .authorizationError => .forbidden
  | .notFoundError => .notFound
  | .conflictError => .conflict
  | .rateLimitError => .rateLimit
  | .serviceUnavailableError => .unavailable
  | .serviceTimeoutError => .timeout

/-- A caught exception that nobody handles, as the service's own handler gets it. The internal client
passes neither headers nor extra members. -/
def BaseAPIException.uncaught (e : BaseAPIException) : ApiException :=
  { statusCode := e.statusCode, category := some e.cls.category, error := e.error
    detailMessage := e.detailMessage, errorCode := e.errorCode }

/-- Among the attempts of a request is this answer, and no other one that would end the retries. -/
structure Answers (c : ServiceHTTPClient) (attempts : Nat → Attempt) (r : Reply) : Prop where
  arrives : ∃ i < c.maxRetries, attempts i = .response r
  only : ∀ i < c.maxRetries, (attempts i).decides = none ∨ attempts i = .response r

/-- What the internal client makes of an exception with a forwarded status. -/
def received (cls : ErrorClass) (exc : ApiException) (code : Json) : BaseAPIException :=
  if cls = .notFoundError then notFoundError (removesuffix exc.error " not found") code
  else cls.make (if exc.detailMessage.truthy then exc.detailMessage else .str exc.error) code

section Hop

variable {f : Floats} {app : App} {exc : ApiException} {e : BaseAPIException}

end Hop

/-! ## Any number of hops -/

end Http
end TrShared
