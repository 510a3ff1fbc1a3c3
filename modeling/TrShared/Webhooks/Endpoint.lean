import TrShared.Events.Producer
import TrShared.Machine.Expiring
import TrShared.Machine.Run
import TrShared.Machine.Shared

/-!
# TrShared.Webhooks.Endpoint

`receive_webhook` (`tr_shared/webhooks/endpoint.py`) with its `WebhookIdempotencyGuard`
(`tr_shared/webhooks/idempotency.py`): any number of deliveries, whose awaits interleave.

`receive` is the part before the first await that matters: rate limit, signature, JSON, the event
id. The delivery then claims the event (`SET NX EX`), publishes it to the event stream and dispatches
it to the handler of the service, each with an await at which Redis can fail or the process can die.
`Phase` is where it stands. Redis keeps `"1"` under a claimed key; here it is the delivery and event
the claim is for, which only the theorems look at.

A response is kept as what the provider reads of it: the status code, and the error or the
`WebhookResult`. `raised` is an exception that leaves the route.
-/

namespace TrShared
namespace Webhooks

open Python Machine Events

abbrev DeliveryId := Nat

abbrev Headers := List (String × String)

/-! ## Configuration -/

structure ProviderConfig where
  name : String
  secret : String := ""
  eventIdFields : List String := ["eventId", "event_id", "id"]
  eventTypeFields : List String := ["type", "event", "eventType", "event_type"]
  idempotencyTtlSeconds : Int := 86400
  dynamicSecret : Bool := false

/-- How `json.loads` ends on a body: a value, a `ValueError`, or another exception (a body nested
too deeply). -/
inductive Loaded where
  | value (j : Json)
  | invalid
  | raised

structure WebhookIdempotencyGuard where
  keyPrefix : String := ""
  defaultTtl : Int := 86400

/-- What `create_webhook_router` is given, and the library functions the endpoint calls. `verify`
and `tenantResolver` belong to the service: `none` is an exception. -/
structure Service where
  providerConfigs : List ProviderConfig
  verifiers : List (String × (List UInt8 → Headers → String → Option Bool)) := []
  guard : WebhookIdempotencyGuard := {}
  eventProducer : EventProducer
  tenantResolver : Option (String → Headers → Json → Option (Option String)) := none
  responseStatusCode : Nat := 202
  lib : Stdlib
  /-- `json.loads` of the raw body -/
  loads : List UInt8 → Loaded
  /-- `str(value)` of a value that is not a string -/
  text : Json → String
  /-- `hashlib.sha256(raw_body).hexdigest()` -/
  sha256 : List UInt8 → String

/-- `config_map[pn]`: of two configurations with one name the later stays. -/
def Service.config (c : Service) (pn : String) : Option ProviderConfig :=
  c.providerConfigs.reverse.find? (fun cfg => cfg.name == pn)

/-! ## A request and what is read from it -/

structure Request where
  provider : String
  rawBody : List UInt8
  headers : Headers := []
  /-- `client_ip(request)` -/
  clientIp : String := "unknown"

/-- How the rate limit check ends. A limiter that is absent or cannot reach Redis allows. -/
inductive RateCheck where
  | allowed
  | blocked
  | raised
  deriving DecidableEq, Repr

structure WebhookEvent where
  provider : String
  eventId : String
  eventType : String
  rawBody : List UInt8
  payload : Json
  headers : Headers
  tenantId : Option String
  correlationId : Option String
  receivedAt : String := ""
  ipAddress : String

structure WebhookResult where
  status : String
  eventId : String
  message : String
  deriving DecidableEq, Repr

inductive Answer where
  | error (statusCode : Nat) (message code : String) (correlationId : Option String)
  | result (statusCode : Nat) (result : WebhookResult)
  | raised
  deriving DecidableEq, Repr

/-- `{k.lower(): v for k, v in request.headers.items()}`. -/
def lowered (headers : Headers) : Headers :=
  headers.foldl (fun d p => setItem d p.1.toLower p.2) []

/-- `_correlation_id`: `request.headers.get`, which takes the first header of that name in any
case. -/
def Request.errorCorrelationId (r : Request) : Option String :=
  (r.headers.find? (fun p => p.1.toLower == "x-correlation-id")).map Prod.snd

/-- `str(value)`. -/
def Service.str (c : Service) : Json → String
  | .str s => s
  | v => c.text v

/-- `payload.get(name)` is not `None`; `none` when `payload` has no `get`. -/
def payloadGet (payload : Json) (name : String) : Option (Option Json) :=
  match payload with
  | .obj d =>
    match d.lookup name with
    | none | some .null => some none
    | some v => some (some v)
  | _ => none

/-- `_extract_field`; `none` is the `AttributeError` of a payload that is not an object. -/
def Service.extractField (c : Service) (payload : Json) : List String → Option String
  | [] => some ""
  | name :: names =>
    match payloadGet payload name with
    | none => none
    | some (some v) => some (c.str v)
    | some none => c.extractField payload names

/-- The verifier is asked and does not accept the signature; `none` when it raises. -/
def Service.rejects (c : Service) (cfg : ProviderConfig) (r : Request) : Option Bool :=
  match c.verifiers.lookup r.provider with
  | some verify =>
    if cfg.secret != "" || cfg.dynamicSecret then
      (verify r.rawBody (lowered r.headers) cfg.secret).map (fun accepted => !accepted)
    else some false
  | none => some false

/-- The id the provider sent, or one derived from the body. -/
def Service.eventId (c : Service) (cfg : ProviderConfig) (r : Request) (payload : Json) :
    Option String :=
  (c.extractField payload cfg.eventIdFields).map
    (fun id => if id = "" then "sha256:" ++ c.sha256 r.rawBody else id)

def Service.eventType (c : Service) (cfg : ProviderConfig) (payload : Json) : Option String :=
  (c.extractField payload cfg.eventTypeFields).map (fun t => if t = "" then "unknown" else t)

/-- The resolver's tenant if it gives one, else the header's; `none` when the resolver raises. -/
def Service.tenantId (c : Service) (pn : String) (headers : Headers) (payload : Json) :
    Option (Option String) :=
  let resolved :=
    match c.tenantResolver with
    | some resolve => resolve pn headers payload
    | none => some none
  resolved.map fun tenant =>
    match tenant with
    | some t => if t = "" then headers.lookup "x-tenant-id" else some t
    | none => headers.lookup "x-tenant-id"

/-- An exception where there is no value. -/
def orRaise {α : Type} : Option α → Except Answer α
  | some v => .ok v
  | none => .error .raised

def checkRate (r : Request) : RateCheck → Except Answer Unit
  | .allowed => pure ()
  | .blocked =>
    throw (.error 429 "Rate limit exceeded" "WEBHOOK_RATE_LIMIT_001" r.errorCorrelationId)
  | .raised => throw .raised

def Service.checkSignature (c : Service) (cfg : ProviderConfig) (r : Request) :
    Except Answer Unit := do
  if ← orRaise (c.rejects cfg r) then
    throw (.error 401 "Invalid webhook signature" "WEBHOOK_AUTH_001" r.errorCorrelationId)

def Service.parse (c : Service) (r : Request) : Except Answer Json :=
  match c.loads r.rawBody with
  | .value j => pure j
  | .invalid =>
    throw (.error 400 "Invalid JSON payload" "WEBHOOK_VALIDATION_001" r.errorCorrelationId)
  | .raised => throw .raised

def Service.event (c : Service) (cfg : ProviderConfig) (r : Request) (payload : Json) :
    Except Answer WebhookEvent := do
  let headers := lowered r.headers
  let eventId ← orRaise (c.eventId cfg r payload)
  let eventType ← orRaise (c.eventType cfg payload)
  let tenantId ← orRaise (c.tenantId r.provider headers payload)
  pure
    { provider := r.provider
      eventId := eventId
      eventType := eventType
      rawBody := r.rawBody
      payload := payload
      headers := headers
      tenantId := tenantId
      correlationId := headers.lookup "x-correlation-id"
      ipAddress := r.clientIp }

/-- `receive_webhook` up to the idempotency check: the answer it gives at once, or the event. -/
def Service.receive (c : Service) (cfg : ProviderConfig) (r : Request) (rate : RateCheck) :
    Except Answer WebhookEvent := do
  checkRate r rate
  c.checkSignature cfg r
  let payload ← c.parse r
  c.event cfg r payload

/-! ## Claim and publication -/

/-- `build_key`. -/
def WebhookIdempotencyGuard.buildKey (g : WebhookIdempotencyGuard) (provider eventId : String) :
    String :=
  ":".intercalate
    ([g.keyPrefix, "webhook", provider, eventId, "processed"].filter (fun p => p != ""))

def Service.key (c : Service) (e : WebhookEvent) : String := c.guard.buildKey e.provider e.eventId

/-- `ttl or self._default_ttl`. -/
def WebhookIdempotencyGuard.effectiveTtl (g : WebhookIdempotencyGuard) (ttl : Int) : Int :=
  if ttl = 0 then g.defaultTtl else ttl

/-- The claim a key stands for. -/
structure Claim where
  delivery : DeliveryId
  provider : String
  eventId : String
  deriving DecidableEq, Repr

def receivedType (pn : String) : String := "webhook." ++ pn ++ ".received"

/-- The `data` of the published event. -/
def receivedData (provider eventId eventType : String) (payload : Json) : Json :=
  .obj [("provider", .str provider), ("event_id", .str eventId), ("event_type", .str eventType),
    ("payload", payload)]

def publishArgs (e : WebhookEvent) : PublishArgs where
  eventType := receivedType e.provider
  tenantId := e.tenantId.getD ""
  data := receivedData e.provider e.eventId e.eventType e.payload
  correlationId := (e.correlationId.map Json.str).getD .null

inductive Phase where
  | idle
  /-- before `is_duplicate`, with the TTL it is given -/
  | claiming (ttl : Int) (e : WebhookEvent)
  /-- before the `XADD` -/
  | publishing (e : WebhookEvent)
  /-- before the handler of the service returns or raises -/
  | dispatching (e : WebhookEvent)
  /-- the provider whose endpoint answered, and its answer -/
  | answered (provider : String) (a : Answer)
  | crashed

structure World where
  now : Nat := 0
  redis : Expiring String Claim := {}
  stream : List WireEvent := []
  phase : DeliveryId → Phase := fun _ => .idle

def World.goto (w : World) (i : DeliveryId) (ph : Phase) : World :=
  { w with phase := Function.update w.phase i ph }

inductive Act where
  | tick (dt : Nat)
  /-- Redis loses a key before its time. -/
  | lose (key : String)
  | arrive (i : DeliveryId) (r : Request) (rate : RateCheck)
  /-- `is_duplicate`; `client` says whether there is a Redis client. -/
  | claim (i : DeliveryId) (client : Bool) (reply : Reply)
  /-- `event_producer.publish`, with the event id it draws. -/
  | publish (i : DeliveryId) (reply : Reply) (uuid : String)
  /-- `webhook_router.dispatch`, however the handler ends -/
  | dispatch (i : DeliveryId)
  /-- The process that serves the delivery dies at the await it stands at. -/
  | crash (i : DeliveryId)

/-- `is_duplicate`: its result, and Redis after it. -/
def isDuplicate (c : Service) (w : World) (i : DeliveryId) (ttl : Int) (e : WebhookEvent)
    (client : Bool) (reply : Reply) : Bool × Expiring String Claim :=
  -- Redis refuses an expiry that is not positive, whether the key is there or not
  if e.eventId = "" ∨ client = false ∨ c.guard.effectiveTtl ttl ≤ 0 then (false, w.redis)
  else
    match w.redis.get w.now (c.key e) with
    | some _ => (reply.returned, w.redis)
    | none =>
      (false,
        if reply.took then
          w.redis.set w.now (c.key e) ⟨i, e.provider, e.eventId⟩
            ((c.guard.effectiveTtl ttl).toNat * 1000)
        else w.redis)

/-- The stream after `publish`: longer by the event, unless `publish` raised before the `XADD` or
the `XADD` was refused. -/
def published (c : Service) (w : World) (e : WebhookEvent) (reply : Reply) (uuid : String) :
    List WireEvent :=
  match c.eventProducer.wireEvent c.lib (publishArgs e) uuid (w.now * 1000) with
  | .ok event => if reply.took then w.stream ++ [event] else w.stream
  | .error _ => w.stream

def duplicateAnswer (e : WebhookEvent) : Answer :=
  .result 200 ⟨"duplicate", e.eventId, "Duplicate webhook — already processed"⟩

def acceptedAnswer (c : Service) (e : WebhookEvent) : Answer :=
  .result c.responseStatusCode ⟨"accepted", e.eventId, "Webhook queued for processing"⟩

def step (c : Service) (w : World) : Act → Option World
  | .tick dt => some { w with now := w.now + dt }
  | .lose key => some { w with redis := w.redis.del key }
  | .arrive i r rate =>
    match w.phase i, c.config r.provider with
    | .idle, some cfg =>
      match c.receive cfg r rate with
      | .ok e => some (w.goto i (.claiming cfg.idempotencyTtlSeconds e))
      | .error a => some (w.goto i (.answered r.provider a))
    | _, _ => none
  | .claim i client reply =>
    match w.phase i with
    | .claiming ttl e =>
      let check := isDuplicate c w i ttl e client reply
      some ({ w with redis := check.2 }.goto i
        (if check.1 then .answered e.provider (duplicateAnswer e)
         else .publishing { e with receivedAt := c.lib.isoformat (w.now * 1000) }))
    | _ => none
  | .publish i reply uuid =>
    match w.phase i with
    | .publishing e =>
      some ({ w with stream := published c w e reply uuid }.goto i (.dispatching e))
    | _ => none
  | .dispatch i =>
    match w.phase i with
    | .dispatching e => some (w.goto i (.answered e.provider (acceptedAnswer c e)))
    | _ => none
  | .crash i =>
    match w.phase i with
    | .claiming _ _ | .publishing _ | .dispatching _ => some (w.goto i .crashed)
    | _ => none

/-! ## What a step can do -/

variable {c : Service} {w w' : World} {a : Act}

theorem goto_phase (w : World) (i : DeliveryId) (ph : Phase) (j : DeliveryId) :
    (j = i ∧ (w.goto i ph).phase j = ph) ∨ (j ≠ i ∧ (w.goto i ph).phase j = w.phase j) :=
  update_cases w.phase i ph j

theorem isDuplicate_cases (c : Service) (w : World) (i : DeliveryId) (ttl : Int) (e : WebhookEvent)
    (client : Bool) (reply : Reply) :
    (∃ t, isDuplicate c w i ttl e client reply = (true, w.redis) ∧ client = true ∧ reply = .ok ∧
      w.redis.get w.now (c.key e) = some t) ∨
    isDuplicate c w i ttl e client reply = (false, w.redis) ∨
    ∃ ms, isDuplicate c w i ttl e client reply =
      (false, w.redis.set w.now (c.key e) ⟨i, e.provider, e.eventId⟩ ms) := by
  simp only [isDuplicate]
  split
  · exact .inr (.inl rfl)
  · rename_i hask
    have hclient : client = true := by
      by_contra hno
      exact hask (.inr (.inl (by simpa using hno)))
    split
    · rename_i t hget
      cases reply with
      | ok => exact .inl ⟨t, rfl, hclient, rfl, hget⟩
      | lost | refused => exact .inr (.inl rfl)
    · cases reply with
      | ok | lost => exact .inr (.inr ⟨_, rfl⟩)
      | refused => exact .inr (.inl rfl)

inductive Stepped (c : Service) (w : World) : Act → World → Prop where
  | tick (dt : Nat) : Stepped c w (.tick dt) { w with now := w.now + dt }
  | lose (key : String) : Stepped c w (.lose key) { w with redis := w.redis.del key }
  | taken {i : DeliveryId} {r : Request} {rate : RateCheck} {cfg : ProviderConfig}
      {e : WebhookEvent} (h : w.phase i = .idle) (hr : c.receive cfg r rate = .ok e)
      (hcfg : c.config r.provider = some cfg) :
      Stepped c w (.arrive i r rate) (w.goto i (.claiming cfg.idempotencyTtlSeconds e))
  | refused {i : DeliveryId} {r : Request} {rate : RateCheck} {cfg : ProviderConfig} {a : Answer}
      (h : w.phase i = .idle) (hr : c.receive cfg r rate = .error a)
      (hcfg : c.config r.provider = some cfg) :
      Stepped c w (.arrive i r rate) (w.goto i (.answered r.provider a))
  | duplicate {i : DeliveryId} {ttl : Int} {e : WebhookEvent} {t : Timed Claim}
      (h : w.phase i = .claiming ttl e) (hget : w.redis.get w.now (c.key e) = some t) :
      Stepped c w (.claim i true .ok) (w.goto i (.answered e.provider (duplicateAnswer e)))
  | unclaimed {i : DeliveryId} {client : Bool} {reply : Reply} {ttl : Int} {e : WebhookEvent}
      (h : w.phase i = .claiming ttl e) :
      Stepped c w (.claim i client reply)
        (w.goto i (.publishing { e with receivedAt := c.lib.isoformat (w.now * 1000) }))
  | claimed {i : DeliveryId} {client : Bool} {reply : Reply} {ttl : Int} {e : WebhookEvent}
      {ms : Nat} (h : w.phase i = .claiming ttl e) :
      Stepped c w (.claim i client reply)
        ({ w with redis := w.redis.set w.now (c.key e) ⟨i, e.provider, e.eventId⟩ ms }.goto i
          (.publishing { e with receivedAt := c.lib.isoformat (w.now * 1000) }))
  | publish {i : DeliveryId} {reply : Reply} {uuid : String} {e : WebhookEvent}
      (h : w.phase i = .publishing e) :
      Stepped c w (.publish i reply uuid)
        ({ w with stream := published c w e reply uuid }.goto i (.dispatching e))
  | dispatch {i : DeliveryId} {e : WebhookEvent} (h : w.phase i = .dispatching e) :
      Stepped c w (.dispatch i) (w.goto i (.answered e.provider (acceptedAnswer c e)))
  | crash (i : DeliveryId) : Stepped c w (.crash i) (w.goto i .crashed)

theorem step_cases (hs : step c w a = some w') : Stepped c w a w' := by
  cases a with
  | tick dt => cases hs; exact .tick dt
  | lose key => cases hs; exact .lose key
  | arrive i r rate =>
    simp only [step] at hs
    split at hs
    · split at hs
      · cases hs; exact .taken ‹_› ‹_› ‹_›
      · cases hs; exact .refused ‹_› ‹_› ‹_›
    · cases hs
  | claim i client reply =>
    simp only [step] at hs
    split at hs
    · rename_i ttl e hph
      cases hs
      rcases isDuplicate_cases c w i ttl e client reply with ⟨t, hd, rfl, rfl, hget⟩ | hd | ⟨ms, hd⟩
      · rw [hd]; exact .duplicate hph hget
      · rw [hd]; exact .unclaimed hph
      · rw [hd]; exact .claimed hph
    · cases hs
  | publish i reply uuid =>
    simp only [step] at hs
    split at hs
    · cases hs; exact .publish ‹_›
    · cases hs
  | dispatch i =>
    simp only [step] at hs
    split at hs
    · cases hs; exact .dispatch ‹_›
    · cases hs
  | crash i =>
    simp only [step] at hs
    split at hs
    all_goals cases hs
    all_goals exact .crash i

end Webhooks
end TrShared
