import TrShared.Middleware.UnstorableText
import TrShared.Python.OrderedDict
import TrShared.Python.Repr

/-!
# TrShared.Webhooks.Bodies

`receive_webhook` (`webhooks/endpoint.py`) for whatever body arrives. Texts are lists of code points
here: `json.loads` returns strings with lone surrogates, for `"\ud800"` as for the bytes
`ED A0 80`, and a response with one in it cannot be encoded.

The rate limiter, the verifier, the tenant resolver and the guard return; `json.loads` is a parameter,
`none` being a `ValueError`, and the body is not nested too deeply for it. What `publish` and `dispatch`
raise is caught, so only that they are called is kept. `_pn` has its default.

* `event_eq`: what is read from a payload that is a dict.
* `bodiesAnswered_iff`: when a delivery is answered as it should be.
-/

namespace TrShared
namespace Webhooks
namespace Bodies

open Python Schemas Middleware.UnstorableText

/-! ## Payloads -/

/-- What `json.loads` returns beside strings, dicts and lists. A longer `int` is a `ValueError`; a `float`
is kept as its `repr`. -/
inductive Scalar where
  | none
  | bool (b : Bool)
  | int (n : Int) (short : (Python.str n.natAbs).length ≤ maxStrDigits)
  | float (repr : String)
  deriving DecidableEq

abbrev Payload := Value Scalar

def reprInt (n : Int) : Text := (if n < 0 then text "-" else []) ++ Python.str n.natAbs

def Scalar.repr : Scalar → Text
  | .none => text "None"
  | .bool true => text "True"
  | .bool false => text "False"
  | .int n _ => reprInt n
  | .float r => text r

def reprKey (u : UnicodeData) : Key Scalar → Text
  | .str s => reprText u s
  | .int n => reprInt n
  | .other a => a.repr

/-- `repr(value)`. -/
def reprValue (u : UnicodeData) : Payload → Text
  | .str s => reprText u s
  | .dict keys _ values =>
    text "\x7b" ++
      join (text ", ") (List.ofFn (fun i => reprKey u (keys.get i) ++ text ": " ++ reprValue u (values i))) ++
      text "\x7d"
  | .list _ items => text "[" ++ join (text ", ") (List.ofFn (fun i => reprValue u (items i))) ++ text "]"
  | .scalar a => a.repr

/-- `str(value)`. -/
def strValue (u : UnicodeData) : Payload → Text
  | .str s => s
  | v => reprValue u v

/-- `value is not None`. -/
def isPresent : Payload → Bool
  | .scalar .none => false
  | _ => true

/-- `payload.get(name)`; the outer `none` is the `AttributeError` of what is no dict. -/
def payloadGet (payload : Payload) (name : Text) : Option (Option Payload) :=
  match payload with
  | .dict keys _ values =>
    some (((List.finRange keys.length).find? (fun i => decide (keys.get i = .str name))).map values)
  | _ => none

/-- `_extract_field`. -/
def extractField (u : UnicodeData) (payload : Payload) : List Text → Option Text
  | [] => some []
  | name :: names =>
    match payloadGet payload name with
    | none => none
    | some none => extractField u payload names
    | some (some value) => if isPresent value then some (strValue u value) else extractField u payload names

/-! ## The service and a request -/

abbrev Headers := OrderedDict Text Text

structure ProviderConfig where
  name : Text
  secret : Text := []
  eventIdFields : List Text := [text "eventId", text "event_id", text "id"]
  eventTypeFields : List Text := [text "type", text "event", text "eventType", text "event_type"]
  idempotencyTtlSeconds : Int := 86400
  dynamicSecret : Bool := false

/-- What `create_webhook_router` is given, and the library functions that the endpoint calls. -/
structure Service where
  providerConfigs : List ProviderConfig
  /-- `verifiers.get(pn)`, and its `verify` -/
  verifier : Text → Option (Bytes → Headers → Text → Bool)
  hasGuard : Bool
  hasProducer : Bool
  hasRouter : Bool
  tenantResolver : Option (Text → Headers → Payload → Option Text)
  responseStatusCode : Nat
  loads : Bytes → Option Payload
  unicode : UnicodeData
  /-- `hashlib.sha256(raw_body).digest()` -/
  sha256 : Bytes → Bytes

structure RateLimitResult where
  allowed : Bool
  limit : Int
  remaining : Int
  resetAt : Int

/-- What `RateLimiter.check` returns. -/
structure RateLimitInfo where
  results : List RateLimitResult
  isBlocked : Bool
  blocked_eq : isBlocked = results.any (fun result => !result.allowed)

structure Request where
  rawBody : Bytes
  headers : List (Bytes × Bytes)
  /-- `client_ip(request)` -/
  clientIp : Text
  /-- `none` without a limiter, or when it cannot reach Redis -/
  rate : Option RateLimitInfo
  /-- what the guard answers, if it is asked -/
  isDuplicate : Bool

/-- `config_map`: of two configurations with one name the later stays. -/
def Service.configMap (c : Service) (pn : Text) : Option ProviderConfig :=
  c.providerConfigs.reverse.find? (fun cfg => decide (cfg.name = pn))

/-- The provider of an endpoint that is registered. -/
def Service.provider (c : Service) (i : Fin c.providerConfigs.length) : Text := (c.providerConfigs.get i).name

theorem configMap_isSome (c : Service) (i : Fin c.providerConfigs.length) :
    (c.configMap (c.provider i)).isSome = true := by
  rw [Service.configMap, List.find?_isSome]
  exact ⟨_, List.mem_reverse.mpr (c.providerConfigs.get_mem i), decide_eq_true rfl⟩

/-- `config_map[pn]`. -/
def Service.config (c : Service) (i : Fin c.providerConfigs.length) : ProviderConfig :=
  (c.configMap (c.provider i)).get (configMap_isSome c i)

/-- `{k.lower(): v for k, v in request.headers.items()}`. -/
def Request.lowered (r : Request) : Headers :=
  r.headers.foldl (fun d h => d.set ((decodeLatin1 h.1).map lowerChar) (decodeLatin1 h.2)) .empty

/-- `_correlation_id`. -/
def Request.correlationId (r : Request) : Option Text :=
  (r.headers.find? (fun h => decide (decodeLatin1 h.1 = text "x-correlation-id"))).map
    (fun h => decodeLatin1 h.2)

/-! ## Responses -/

inductive Content where
  /-- `build_error_envelope` -/
  | error (message code : Text) (correlationId : Option Text)
  /-- a `WebhookResult` -/
  | result (status eventId message : Text)

def Content.texts : Content → List Text
  | .error message code correlationId => [message, code] ++ correlationId.toList
  | .result status eventId message => [status, eventId, message]

structure Response where
  statusCode : Nat
  content : Content
  headers : List (Text × Int) := []

inductive Outcome where
  | response (response : Response)
  | raised

/-- `JSONResponse(...)`, of a `WebhookResult` where there is one: a surrogate stops the validation of the
model, or the encoding of the JSON text. -/
def respond (response : Response) : Outcome :=
  if response.content.texts.all encodable then .response response else .raised

def rateLimited (r : Request) (blocked : RateLimitResult) : Response where
  statusCode := 429
  content := .error (text "Rate limit exceeded") (text "WEBHOOK_RATE_LIMIT_001") r.correlationId
  headers :=
    [(text "X-RateLimit-Limit", blocked.limit), (text "X-RateLimit-Remaining", blocked.remaining),
      (text "X-RateLimit-Reset", blocked.resetAt)]

def invalidSignature (r : Request) : Response where
  statusCode := 401
  content := .error (text "Invalid webhook signature") (text "WEBHOOK_AUTH_001") r.correlationId

def invalidJson (r : Request) : Response where
  statusCode := 400
  content := .error (text "Invalid JSON payload") (text "WEBHOOK_VALIDATION_001") r.correlationId

def duplicate (eventId : Text) : Response where
  statusCode := 200
  content := .result (text "duplicate") eventId (text "Duplicate webhook — already processed")

def accepted (c : Service) (eventId : Text) : Response where
  statusCode := c.responseStatusCode
  content := .result (text "accepted") eventId (text "Webhook queued for processing")

/-! ## The endpoint -/

structure WebhookEvent where
  provider : Text
  eventId : Text
  eventType : Text
  rawBody : Bytes
  payload : Payload
  headers : Headers
  tenantId : Option Text
  correlationId : Option Text
  ipAddress : Text

inductive Effect where
  /-- `idempotency_guard.is_duplicate(provider, event_id, ttl=...)` -/
  | claim (provider eventId : Text) (ttl : Int)
  /-- `event_producer.publish`, with `provider`, `event_id`, `event_type` and `payload` as its data -/
  | publish (eventType tenantId provider eventId webhookType : Text) (payload : Payload)
      (correlationId : Option Text)
  /-- `webhook_router.dispatch` -/
  | dispatch (event : WebhookEvent)

def checkRate (r : Request) : Except Outcome Unit :=
  match r.rate with
  | none => pure ()
  | some info =>
    if info.isBlocked then
      match info.results.find? (fun result => !result.allowed) with
      | some blocked => throw (respond (rateLimited r blocked))
      | none => throw .raised
    else pure ()

def Service.checkSignature (c : Service) (pn : Text) (cfg : ProviderConfig) (r : Request) :
    Except Outcome Unit :=
  match c.verifier pn with
  | some verify =>
    if (cfg.secret ≠ [] ∨ cfg.dynamicSecret) ∧ verify r.rawBody r.lowered cfg.secret = false then
      throw (respond (invalidSignature r))
    else pure ()
  | none => pure ()

def Service.parse (c : Service) (r : Request) : Except Outcome Payload :=
  match c.loads r.rawBody with
  | some payload => pure payload
  | none => throw (respond (invalidJson r))

/-- `sha256:…` where the provider gives no id. -/
def Service.eventIdOf (c : Service) (r : Request) (extracted : Text) : Text :=
  if extracted = [] then text "sha256:" ++ hex (c.sha256 r.rawBody) else extracted

/-- The tenant of the resolver, if it gives one, else that of the header. -/
def Service.tenantId (c : Service) (pn : Text) (headers : Headers) (payload : Payload) : Option Text :=
  match (c.tenantResolver.bind (fun resolve => resolve pn headers payload)).filter (fun t => !t.isEmpty) with
  | some tenant => some tenant
  | none => headers.get (text "x-tenant-id")

/-- From `_extract_field` to the `WebhookEvent`. -/
def Service.event (c : Service) (pn : Text) (cfg : ProviderConfig) (r : Request) (payload : Payload) :
    Except Outcome WebhookEvent :=
  match extractField c.unicode payload cfg.eventIdFields,
    extractField c.unicode payload cfg.eventTypeFields with
  | some id, some type =>
    pure
      { provider := pn
        eventId := c.eventIdOf r id
        eventType := if type = [] then text "unknown" else type
        rawBody := r.rawBody
        payload := payload
        headers := r.lowered
        tenantId := c.tenantId pn r.lowered payload
        correlationId := r.lowered.get (text "x-correlation-id")
        ipAddress := r.clientIp }
  | _, _ => throw .raised

def Service.claims (c : Service) (cfg : ProviderConfig) (e : WebhookEvent) : List Effect :=
  if c.hasGuard then [.claim e.provider e.eventId cfg.idempotencyTtlSeconds] else []

def Service.publishes (c : Service) (e : WebhookEvent) : List Effect :=
  if c.hasProducer then
    [.publish (text "webhook." ++ e.provider ++ text ".received") (e.tenantId.getD []) e.provider e.eventId
      e.eventType e.payload e.correlationId]
  else []

def Service.dispatches (c : Service) (e : WebhookEvent) : List Effect :=
  if c.hasRouter then [.dispatch e] else []

/-- From the idempotency check on. -/
def Service.handle (c : Service) (cfg : ProviderConfig) (r : Request) (e : WebhookEvent) :
    List Effect × Outcome :=
  if c.hasGuard ∧ r.isDuplicate then (c.claims cfg e, respond (duplicate e.eventId))
  else (c.claims cfg e ++ c.publishes e ++ c.dispatches e, respond (accepted c e.eventId))

/-- Rate limit and signature. -/
def Service.check (c : Service) (i : Fin c.providerConfigs.length) (r : Request) : Except Outcome Unit := do
  checkRate r
  c.checkSignature (c.provider i) (c.config i) r

def Service.receiveWebhook (c : Service) (i : Fin c.providerConfigs.length) (r : Request) :
    List Effect × Outcome :=
  let received : Except Outcome WebhookEvent := do
    c.check i r
    let payload ← c.parse r
    c.event (c.provider i) (c.config i) r payload
  match received with
  | .ok e => c.handle (c.config i) r e
  | .error o => ([], o)

/-! ## What is read from a payload -/

section Read

variable {u : UnicodeData}

theorem reprInt_encodable (n : Int) : encodable (reprInt n) = true := by
  rw [reprInt, encodable_append, str_encodable]
  split
  · rfl
  · rfl

theorem scalar_repr_encodable (a : Scalar) : encodable a.repr = true := by
  cases a with
  | none => rfl
  | bool b => cases b <;> rfl
  | int n _ => exact reprInt_encodable n
  | float r => exact text_encodable r

theorem reprKey_encodable (key : Key Scalar) : encodable (reprKey u key) = true := by
  cases key with
  | str s => exact reprText_encodable u s
  | int n => exact reprInt_encodable n
  | other a => exact scalar_repr_encodable a

/-- Parts between brackets. -/
theorem listed_encodable {opening closing : String} {parts : List Text} (h : ∀ p ∈ parts, encodable p = true) :
    encodable (text opening ++ join (text ", ") parts ++ text closing) = true := by
  rw [encodable_append, encodable_append, text_encodable, text_encodable, encodable_join (text_encodable _) h]
  rfl

theorem reprValue_encodable (v : Payload) : encodable (reprValue u v) = true := by
  induction v with
  | str s => exact reprText_encodable u s
  | dict keys nodup values ih =>
    rw [reprValue]
    refine listed_encodable ?_
    intro p hp
    obtain ⟨i, rfl⟩ := List.mem_ofFn.mp hp
    simp [reprKey_encodable, text_encodable, ih]
  | list length items ih =>
    rw [reprValue]
    refine listed_encodable ?_
    intro p hp
    obtain ⟨i, rfl⟩ := List.mem_ofFn.mp hp
    exact ih i
  | scalar a => exact scalar_repr_encodable a

/-- Only a string can bring a surrogate with it. -/
theorem strValue_encodable_iff (v : Payload) :
    encodable (strValue u v) = true ↔ ∀ s, v = .str s → encodable s = true := by
  cases v with
  | str s => simp [strValue]
  | dict keys nodup values => exact iff_of_true (reprValue_encodable _) (fun _ h => by cases h)
  | list length items => exact iff_of_true (reprValue_encodable _) (fun _ h => by cases h)
  | scalar a => exact iff_of_true (reprValue_encodable _) (fun _ h => by cases h)

def IsDict : Payload → Prop
  | .dict _ _ _ => True
  | _ => False

/-- The value under the first of the names that has one. -/
def firstPresent (payload : Payload) (names : List Text) : Option Payload :=
  names.findSome? (fun name => ((payloadGet payload name).getD none).filter isPresent)

theorem extractField_dict {payload : Payload} (h : IsDict payload) (names : List Text) :
    extractField u payload names = some (((firstPresent payload names).map (strValue u)).getD []) := by
  obtain ⟨get, hget⟩ : ∃ get : Text → Option Payload, ∀ name, payloadGet payload name = some (get name) := by
    cases payload with
    | dict keys nodup values => exact ⟨_, fun _ => rfl⟩
    | str s => cases h
    | list length items => cases h
    | scalar a => cases h
  induction names with
  | nil => rfl
  | cons name names ih =>
    rw [extractField, firstPresent, List.findSome?_cons, hget]
    cases hname : get name with
    | none => simpa [firstPresent] using ih
    | some value =>
      by_cases hvalue : isPresent value = true
      · simp [Option.filter, hvalue]
      · simpa [Option.filter, hvalue, firstPresent] using ih

theorem extractField_cons {payload : Payload} (h : ¬ IsDict payload) (name : Text) (names : List Text) :
    extractField u payload (name :: names) = none := by
  cases payload with
  | dict keys nodup values => exact absurd trivial h
  | str s => rfl
  | list length items => rfl
  | scalar a => rfl

end Read

/-! ## Every body -/

section Answered

variable {c : Service} {i : Fin c.providerConfigs.length} {r : Request}

def Expected (c : Service) (r : Request) (response : Response) : Prop :=
  (∃ blocked, response = rateLimited r blocked) ∨ response = invalidSignature r ∨ response = invalidJson r ∨
    ∃ id, response = duplicate id ∨ response = accepted c id

/-- A response is returned, and a body that is no JSON object, where it is let through, is answered 400 with
nothing done. -/
structure Answered (c : Service) (i : Fin c.providerConfigs.length) (r : Request) : Prop where
  responds : ∃ response, (c.receiveWebhook i r).2 = .response response ∧ Expected c r response
  malformed : (∀ payload, c.loads r.rawBody = some payload → ¬ IsDict payload) →
    (c.receiveWebhook i r).1 = [] ∧
      (c.check i r = .ok () → (c.receiveWebhook i r).2 = .response (invalidJson r))

/-- A dict whose id, where it is a string, can be encoded. -/
structure Readable (cfg : ProviderConfig) (payload : Payload) : Prop where
  isDict : IsDict payload
  id : ∀ s, firstPresent payload cfg.eventIdFields = some (.str s) → encodable s = true

theorem correlationId_encodable (r : Request) : ∀ t ∈ r.correlationId, encodable t = true := by
  intro t ht
  obtain ⟨h, -, rfl⟩ := Option.map_eq_some_iff.mp ht
  exact latin1_encodable h.2

/-- An error envelope is always sent. -/
theorem respond_error {statusCode : Nat} {message code : String} {headers : List (Text × Int)} :
    respond ⟨statusCode, .error (text message) (text code) r.correlationId, headers⟩ =
      .response ⟨statusCode, .error (text message) (text code) r.correlationId, headers⟩ := by
  refine if_pos ?_
  cases hcorrelation : r.correlationId with
  | none => simp [Content.texts, text_encodable]
  | some t =>
    have ht := correlationId_encodable r t hcorrelation
    simp [Content.texts, text_encodable, ht]

theorem respond_duplicate (id : Text) :
    respond (duplicate id) = if encodable id then .response (duplicate id) else .raised := by
  simp [respond, duplicate, Content.texts, text_encodable]

theorem respond_accepted (id : Text) :
    respond (accepted c id) = if encodable id then .response (accepted c id) else .raised := by
  simp [respond, accepted, Content.texts, text_encodable]

theorem checkRate_cases (r : Request) :
    checkRate r = .ok () ∨ ∃ blocked, checkRate r = .error (.response (rateLimited r blocked)) := by
  unfold checkRate
  cases r.rate with
  | none => exact .inl rfl
  | some info =>
    by_cases hblocked : info.isBlocked = true
    · have hsome : (info.results.find? (fun result => !result.allowed)).isSome = true := by
        rw [info.blocked_eq, List.any_eq_true] at hblocked
        exact List.find?_isSome.mpr hblocked
      obtain ⟨blocked, hfind⟩ := Option.isSome_iff_exists.mp hsome
      refine .inr ⟨blocked, ?_⟩
      simp only [if_pos hblocked, hfind]
      exact congrArg Except.error respond_error
    · exact .inl (if_neg hblocked)

theorem checkSignature_cases (c : Service) (pn : Text) (cfg : ProviderConfig) (r : Request) :
    c.checkSignature pn cfg r = .ok () ∨
      c.checkSignature pn cfg r = .error (.response (invalidSignature r)) := by
  unfold Service.checkSignature
  cases c.verifier pn with
  | none => exact .inl rfl
  | some verify =>
    simp only
    split
    · exact .inr (congrArg Except.error respond_error)
    · exact .inl rfl

theorem check_cases (c : Service) (i : Fin c.providerConfigs.length) (r : Request) :
    c.check i r = .ok () ∨
      ∃ response, c.check i r = .error (.response response) ∧ Expected c r response := by
  rcases checkRate_cases r with hrate | ⟨blocked, hrate⟩
  · have hcheck : c.check i r = c.checkSignature (c.provider i) (c.config i) r := by
      rw [Service.check, hrate]
      rfl
    rw [hcheck]
    rcases checkSignature_cases c (c.provider i) (c.config i) r with hsignature | hsignature
    · exact .inl hsignature
    · exact .inr ⟨_, hsignature, .inr (.inl rfl)⟩
  · refine .inr ⟨_, ?_, .inl ⟨blocked, rfl⟩⟩
    rw [Service.check, hrate]
    rfl

theorem eventIdOf_encodable (c : Service) (r : Request) (extracted : Text) :
    encodable (c.eventIdOf r extracted) = encodable extracted := by
  unfold Service.eventIdOf
  split
  · rename_i hempty
    rw [hempty, encodable_append, text_encodable, hex_encodable]
    rfl
  · rfl

/-- The id of a dict's event can be encoded exactly when the one in the dict can. -/
theorem event_eq {payload : Payload} (h : IsDict payload) :
    ∃ e, c.event (c.provider i) (c.config i) r payload = .ok e ∧
      (encodable e.eventId = true ↔ Readable (c.config i) payload) := by
  refine ⟨_, by simp only [Service.event, extractField_dict h]; rfl, ?_⟩
  simp only [eventIdOf_encodable]
  cases hfirst : firstPresent payload (c.config i).eventIdFields with
  | none => exact iff_of_true rfl ⟨h, fun s hs => by rw [hfirst] at hs; cases hs⟩
  | some v =>
    rw [Option.map_some, Option.getD_some, strValue_encodable_iff]
    constructor
    · intro hv
      exact ⟨h, fun s hs => hv s (Option.some.inj (hfirst.symm.trans hs))⟩
    · rintro ⟨-, hid⟩ s rfl
      exact hid s hfirst

theorem handle_outcome (cfg : ProviderConfig) (e : WebhookEvent) :
    (c.handle cfg r e).2 = respond (duplicate e.eventId) ∨
      (c.handle cfg r e).2 = respond (accepted c e.eventId) := by
  unfold Service.handle
  split
  · exact .inl rfl
  · exact .inr rfl

/-- After the event a response is sent exactly when its id can be encoded; it is never a 400. -/
theorem handle_cases (cfg : ProviderConfig) (e : WebhookEvent) :
    (encodable e.eventId = true ∧ ∃ response, (c.handle cfg r e).2 = .response response ∧
      (response = duplicate e.eventId ∨ response = accepted c e.eventId)) ∨
    (encodable e.eventId = false ∧ (c.handle cfg r e).2 = .raised) := by
  cases hid : encodable e.eventId with
  | true =>
    refine .inl ⟨rfl, ?_⟩
    rcases @handle_outcome c r cfg e with hout | hout
    · exact ⟨_, by rw [hout, respond_duplicate, if_pos hid], .inl rfl⟩
    · exact ⟨_, by rw [hout, respond_accepted, if_pos hid], .inr rfl⟩
  | false =>
    refine .inr ⟨rfl, ?_⟩
    rcases @handle_outcome c r cfg e with hout | hout
    · rw [hout, respond_duplicate, hid]
      rfl
    · rw [hout, respond_accepted, hid]
      rfl

theorem receiveWebhook_eq (hcheck : c.check i r = .ok ()) {payload : Payload}
    (hloads : c.loads r.rawBody = some payload) :
    c.receiveWebhook i r =
      match c.event (c.provider i) (c.config i) r payload with
      | .ok e => c.handle (c.config i) r e
      | .error o => ([], o) := by
  rw [Service.receiveWebhook, hcheck, Service.parse, hloads]
  rfl

theorem answered_of_refused {response : Response} (hcheck : c.check i r = .error (.response response))
    (hexpected : Expected c r response) : Answered c i r := by
  have hreceive : c.receiveWebhook i r = ([], .response response) := by
    rw [Service.receiveWebhook, hcheck]
    rfl
  refine ⟨⟨response, by rw [hreceive], hexpected⟩, fun _ => ⟨by rw [hreceive], fun h => ?_⟩⟩
  rw [hcheck] at h
  cases h

theorem answered_of_invalid (hcheck : c.check i r = .ok ()) (hloads : c.loads r.rawBody = none) :
    Answered c i r := by
  have hreceive : c.receiveWebhook i r = ([], .response (invalidJson r)) := by
    rw [Service.receiveWebhook, hcheck, Service.parse, hloads]
    exact congrArg (Prod.mk []) respond_error
  refine ⟨⟨_, by rw [hreceive], .inr (.inr (.inl rfl))⟩, fun _ => ?_⟩
  rw [hreceive]
  exact ⟨rfl, fun _ => rfl⟩

theorem answered_dict_iff (hcheck : c.check i r = .ok ()) {payload : Payload}
    (hloads : c.loads r.rawBody = some payload) (hdict : IsDict payload) :
    Answered c i r ↔ Readable (c.config i) payload := by
  obtain ⟨e, hevent, hreadable⟩ := @event_eq c i r payload hdict
  have hreceive := receiveWebhook_eq hcheck hloads
  rw [hevent] at hreceive
  rw [← hreadable]
  rcases @handle_cases c r (c.config i) e with ⟨hid, response, hresponse, hform⟩ | ⟨hid, hraised⟩
  · refine iff_of_true ⟨⟨response, by rw [hreceive, hresponse], .inr (.inr (.inr ⟨_, hform⟩))⟩, ?_⟩ hid
    intro hnot
    exact absurd hdict (hnot payload hloads)
  · rw [hid]
    refine iff_of_false ?_ Bool.false_ne_true
    rintro ⟨⟨response, hresponse, -⟩, -⟩
    rw [hreceive, hraised] at hresponse
    cases hresponse

/-- With an id field configured, a payload that is no dict leaves the route as an `AttributeError`. -/
theorem raises_of_not_dict (hcheck : c.check i r = .ok ()) {payload : Payload}
    (hloads : c.loads r.rawBody = some payload) (hdict : ¬ IsDict payload)
    (hfields : (c.config i).eventIdFields ≠ []) : c.receiveWebhook i r = ([], .raised) := by
  obtain ⟨name, names, hnames⟩ := List.exists_cons_of_ne_nil hfields
  rw [receiveWebhook_eq hcheck hloads, Service.event, hnames, extractField_cons hdict]
  rfl

/-- What is no dict is never answered with the 400: an exception leaves the route, or, where the lists of
fields are empty, the event is handled. -/
theorem not_answered (hcheck : c.check i r = .ok ()) {payload : Payload}
    (hloads : c.loads r.rawBody = some payload) (hdict : ¬ IsDict payload) : ¬ Answered c i r := by
  rintro ⟨-, hmalformed⟩
  have hnot : ∀ p, c.loads r.rawBody = some p → ¬ IsDict p := by
    intro p hp
    rw [hloads] at hp
    exact Option.some.inj hp ▸ hdict
  have hanswer := (hmalformed hnot).2 hcheck
  rw [receiveWebhook_eq hcheck hloads] at hanswer
  cases hevent : c.event (c.provider i) (c.config i) r payload with
  | error o =>
    rw [hevent] at hanswer
    have hraised : o = .raised := by
      unfold Service.event at hevent
      split at hevent
      · cases hevent
      · cases hevent
        rfl
    rw [hraised] at hanswer
    cases hanswer
  | ok e =>
    rw [hevent] at hanswer
    rcases @handle_cases c r (c.config i) e with ⟨-, response, hresponse, hform⟩ | ⟨-, hraised⟩
    · rw [hresponse] at hanswer
      have hcontent := congrArg Response.content (Outcome.response.inj hanswer)
      rcases hform with rfl | rfl
      · cases hcontent
      · cases hcontent
    · rw [hraised] at hanswer
      cases hanswer

/-- A delivery is answered as it should be exactly when a body that is let through and that is JSON is an
object, and its id, where it is a string, is one that can be encoded. -/
theorem bodiesAnswered_iff (c : Service) (i : Fin c.providerConfigs.length) (r : Request) :
    Answered c i r ↔
      (c.check i r = .ok () →
        ∀ payload, c.loads r.rawBody = some payload → Readable (c.config i) payload) := by
  rcases check_cases c i r with hcheck | ⟨response, hcheck, hexpected⟩
  · cases hloads : c.loads r.rawBody with
    | none => exact iff_of_true (answered_of_invalid hcheck hloads) (fun _ payload h => by cases h)
    | some payload =>
      by_cases hdict : IsDict payload
      · rw [answered_dict_iff hcheck hloads hdict]
        exact ⟨fun h _ p hp => Option.some.inj hp ▸ h, fun h => h hcheck payload rfl⟩
      · exact iff_of_false (not_answered hcheck hloads hdict)
          (fun h => hdict (h hcheck payload rfl).isDict)
  · exact iff_of_true (answered_of_refused hcheck hexpected) (fun h => by rw [hcheck] at h; cases h)

/-- A service with one provider, at which the body `[]` arrives. -/
def listService : Service where
  providerConfigs := [{ name := text "bayut" }]
  verifier _ := none
  hasGuard := true
  hasProducer := true
  hasRouter := true
  tenantResolver := none
  responseStatusCode := 202
  loads body := if body = [91, 93] then some (.list 0 (fun i => i.elim0)) else none
  unicode := ⟨fun _ => false, fun _ _ => rfl⟩
  sha256 _ := []

def listRequest : Request where
  rawBody := [91, 93]
  headers := []
  clientIp := text "unknown"
  rate := none
  isDuplicate := false

/-- `[]` is JSON, and the endpoint raises. -/
theorem not_bodiesAnswered_list : ¬ Answered listService ⟨0, by decide⟩ listRequest :=
  @not_answered listService ⟨0, by decide⟩ listRequest rfl (.list 0 (fun i => i.elim0))
    (by simp [listService, listRequest])
    (fun h => h)

end Answered

end Bodies
end Webhooks
end TrShared
