import TrShared.Machine.Expiring
import TrShared.Machine.Run
import TrShared.Machine.Shared
import TrShared.Python.Json

/-!
# TrShared.Middleware.Idempotency

`APIIdempotencyMiddleware` (`tr_shared/middleware/idempotency.py`): the cache key of a request, the
cached documents, and any number of requests whose awaits interleave.

A request goes through `dispatch`: the Redis client, `SET NX EX` of the processing sentinel, then
`_handle_duplicate` (`GET`) or `_process_and_cache` (the handler, then `SET EX` of the answer or
`DELETE`). `Phase` is the await it stands at. A Redis command may fail; the middleware is fail-open,
so the handler then runs without a claim (`unguarded`). A cached document is kept as the JSON value
it parses to, together with the request that wrote it, which only the theorems look at.
-/

namespace TrShared
namespace Middleware
namespace Idempotency

open Python Machine

abbrev RequestId := Nat

/-! ## The cache key -/

structure Request where
  method : String
  /-- `request.state.tenant_id` as text, if there is one; a falsy value is `""`. -/
  stateTenant : Option String := none
  headers : List (String × String) := []

structure Config where
  serviceName : String := ""
  ttl : Nat := 86400
  maxResponseSize : Nat := 1048576

/-- `sep.join(parts)`. -/
def join (sep : String) : List String → String
  | [] => ""
  | [p] => p
  | p :: q :: parts => p ++ sep ++ join sep (q :: parts)

def buildKey (serviceName tenantId idempotencyKey : String) : String :=
  join ":" ([serviceName, "idempotency", tenantId, idempotencyKey].filter (fun p => p != ""))

/-- `request.state.tenant_id or request.headers.get("X-Tenant-ID", "global")`. -/
def Request.tenantId (r : Request) : String :=
  match r.stateTenant with
  | some t => if t = "" then getD r.headers "X-Tenant-ID" "global" else t
  | none => getD r.headers "X-Tenant-ID" "global"

def Request.idempotencyKey (r : Request) : String := getD r.headers "X-Idempotency-Key" ""

/-- The middleware does something: a POST with an idempotency key. -/
def Request.guarded (r : Request) : Bool := r.method == "POST" && r.idempotencyKey != ""

def Request.cacheKey (c : Config) (r : Request) : String :=
  buildKey c.serviceName r.tenantId r.idempotencyKey

/-! ## Answers and cached documents -/

structure Response where
  statusCode : Nat
  body : List UInt8
  contentType : String := "application/json"

inductive Answer where
  | response (r : Response)
  | raised
  | replayed (writer : RequestId) (statusCode content mediaType : Json)
  | conflict (message : String)

structure Document where
  writer : RequestId
  value : Json

def processingSentinel : Json := .obj [("s", .str "processing")]

def processingTtlSeconds : Nat := 300

def uncachedStatuses : List Nat := [401, 403, 429]

/-- `decode` is `bytes.decode("utf-8", errors="replace")`. -/
def completed (decode : List UInt8 → String) (r : Response) : Json :=
  .obj [("s", .str "completed"), ("sc", .num r.statusCode 0), ("b", .str (decode r.body)),
    ("ct", .str r.contentType)]

/-- `_store_completed` stores the response. -/
def cacheable (c : Config) (r : Response) : Bool :=
  decide (r.statusCode < 500) && !uncachedStatuses.contains r.statusCode &&
    decide (r.body.length ≤ c.maxResponseSize)

def processingMessage : String :=
  "A request with this idempotency key is currently being processed"

def unverifiedMessage : String := "Unable to verify idempotency status"

/-- `_handle_duplicate` after a `GET` that returned. -/
def duplicateAnswer : Option Document → Answer
  | none => .conflict processingMessage
  | some d =>
    match d.value with
    | .obj data =>
      if getD data "s" .null = .str "completed" then
        match data.lookup "b", data.lookup "sc" with
        | some b, some sc => .replayed d.writer sc b (getD data "ct" (.str "application/json"))
        | _, _ => .conflict unverifiedMessage
      else .conflict processingMessage
    | _ => .conflict unverifiedMessage

/-! ## The requests -/

/-- Before the Redis client; before `SET NX`; before `GET`; in the handler with a claim; before
`SET EX` of the response; before `DELETE`, with the response or an exception to go on with; in the
handler without a claim; done. `deadline` is the moment the claim expires. -/
inductive Phase where
  | arrived
  | connected
  | duplicate
  | executing (deadline : Nat)
  | storing (deadline : Nat) (r : Response)
  | releasing (deadline : Nat) (r : Option Response)
  | unguarded
  | answered (a : Answer)

structure World where
  now : Nat := 0
  redis : Expiring String Document := {}
  phase : RequestId → Phase := fun _ => .arrived

inductive Act where
  | tick (dt : Nat)
  | dispatch (i : RequestId) (client : Bool)
  | setNx (i : RequestId) (reply : Reply)
  | get (i : RequestId) (reply : Reply)
  | handler (i : RequestId) (result : Option Response)
  | store (i : RequestId) (reply : Reply)
  | release (i : RequestId) (reply : Reply)
  | cancel (i : RequestId)

def World.goto (w : World) (i : RequestId) (ph : Phase) : World :=
  { w with phase := Function.update w.phase i ph }

def milliseconds (seconds : Nat) : Nat := seconds * 1000

def World.claim (w : World) (i : RequestId) (k : String) : World :=
  { w with redis := w.redis.set w.now k ⟨i, processingSentinel⟩ (milliseconds processingTtlSeconds) }

def World.complete (w : World) (c : Config) (decode : List UInt8 → String) (i : RequestId)
    (k : String) (r : Response) : World :=
  { w with redis := w.redis.set w.now k ⟨i, completed decode r⟩ (milliseconds c.ttl) }

def World.delete (w : World) (k : String) : World := { w with redis := w.redis.del k }

/-- Where the handler's answer takes a request with a claim. -/
def afterHandler (c : Config) (deadline : Nat) : Option Response → Phase
  | some r => if cacheable c r then .storing deadline r else .releasing deadline (some r)
  | none => .releasing deadline none

def finalAnswer : Option Response → Answer
  | some r => .response r
  | none => .raised

def step (c : Config) (decode : List UInt8 → String) (requests : RequestId → Request) (w : World) :
    Act → Option World
  | .tick dt => some { w with now := w.now + dt }
  | .dispatch i client =>
    match w.phase i with
    | .arrived => some (w.goto i (if (requests i).guarded && client then .connected else .unguarded))
    | _ => none
  | .setNx i reply =>
    match w.phase i with
    | .connected =>
      match w.redis.get w.now ((requests i).cacheKey c) with
      | some _ => some (w.goto i (if reply.returned then .duplicate else .unguarded))
      | none =>
        some ((if reply.took then w.claim i ((requests i).cacheKey c) else w).goto i
          (if reply.returned then .executing (w.now + milliseconds processingTtlSeconds)
           else .unguarded))
    | _ => none
  | .get i reply =>
    match w.phase i with
    | .duplicate =>
      some (w.goto i (.answered
        (if reply.returned then
          duplicateAnswer ((w.redis.get w.now ((requests i).cacheKey c)).map Timed.value)
         else .conflict unverifiedMessage)))
    | _ => none
  | .handler i result =>
    match w.phase i with
    | .executing deadline => some (w.goto i (afterHandler c deadline result))
    | .unguarded => some (w.goto i (.answered (finalAnswer result)))
    | _ => none
  | .store i reply =>
    match w.phase i with
    | .storing deadline r =>
      some ((if reply.took then w.complete c decode i ((requests i).cacheKey c) r else w).goto i
        (if reply.returned then .answered (.response r) else .releasing deadline (some r)))
    | _ => none
  | .release i reply =>
    match w.phase i with
    | .releasing _ r =>
      some ((if reply.took then w.delete ((requests i).cacheKey c) else w).goto i
        (.answered (finalAnswer r)))
    | _ => none
  | .cancel i =>
    -- a cancelled handler is `handler i none`; at any other await the request just ends
    match w.phase i with
    | .executing _ | .answered _ => none
    | _ => some (w.goto i (.answered .raised))

/-! ## What a step can do -/

variable {c : Config} {decode : List UInt8 → String} {requests : RequestId → Request}

inductive Stepped (c : Config) (decode : List UInt8 → String) (requests : RequestId → Request)
    (w : World) : Act → World → Prop where
  | tick (dt : Nat) : Stepped c decode requests w (.tick dt) { w with now := w.now + dt }
  | dispatch {i : RequestId} {client : Bool} (h : w.phase i = .arrived) :
      Stepped c decode requests w (.dispatch i client)
        (w.goto i (if (requests i).guarded && client then .connected else .unguarded))
  | taken {i : RequestId} {reply : Reply} {t : Timed Document} (h : w.phase i = .connected)
      (hget : w.redis.get w.now ((requests i).cacheKey c) = some t) :
      Stepped c decode requests w (.setNx i reply)
        (w.goto i (if reply.returned then .duplicate else .unguarded))
  | claim {i : RequestId} {reply : Reply} (h : w.phase i = .connected)
      (hget : w.redis.get w.now ((requests i).cacheKey c) = none) :
      Stepped c decode requests w (.setNx i reply)
        ((if reply.took then w.claim i ((requests i).cacheKey c) else w).goto i
          (if reply.returned then .executing (w.now + milliseconds processingTtlSeconds)
           else .unguarded))
  | get {i : RequestId} {reply : Reply} (h : w.phase i = .duplicate) :
      Stepped c decode requests w (.get i reply)
        (w.goto i (.answered
          (if reply.returned then
            duplicateAnswer ((w.redis.get w.now ((requests i).cacheKey c)).map Timed.value)
           else .conflict unverifiedMessage)))
  | handler {i : RequestId} {result : Option Response} {deadline : Nat}
      (h : w.phase i = .executing deadline) :
      Stepped c decode requests w (.handler i result) (w.goto i (afterHandler c deadline result))
  | unguarded {i : RequestId} {result : Option Response} (h : w.phase i = .unguarded) :
      Stepped c decode requests w (.handler i result) (w.goto i (.answered (finalAnswer result)))
  | store {i : RequestId} {reply : Reply} {deadline : Nat} {r : Response}
      (h : w.phase i = .storing deadline r) :
      Stepped c decode requests w (.store i reply)
        ((if reply.took then w.complete c decode i ((requests i).cacheKey c) r else w).goto i
          (if reply.returned then .answered (.response r) else .releasing deadline (some r)))
  | release {i : RequestId} {reply : Reply} {deadline : Nat} {r : Option Response}
      (h : w.phase i = .releasing deadline r) :
      Stepped c decode requests w (.release i reply)
        ((if reply.took then w.delete ((requests i).cacheKey c) else w).goto i
          (.answered (finalAnswer r)))
  | cancel {i : RequestId} : Stepped c decode requests w (.cancel i) (w.goto i (.answered .raised))

theorem step_cases {w w' : World} {a : Act} (h : step c decode requests w a = some w') :
    Stepped c decode requests w a w' := by
  cases a with
  | tick dt => cases h; exact .tick dt
  | dispatch i client =>
    simp only [step] at h
    split at h
    · cases h; exact .dispatch ‹_›
    · cases h
  | setNx i reply =>
    simp only [step] at h
    split at h
    · split at h
      · cases h; exact .taken ‹_› ‹_›
      · cases h; exact .claim ‹_› ‹_›
    · cases h
  | get i reply =>
    simp only [step] at h
    split at h
    · cases h; exact .get ‹_›
    · cases h
  | handler i result =>
    simp only [step] at h
    split at h
    · cases h; exact .handler ‹_›
    · cases h; exact .unguarded ‹_›
    · cases h
  | store i reply =>
    simp only [step] at h
    split at h
    · cases h; exact .store ‹_›
    · cases h
  | release i reply =>
    simp only [step] at h
    split at h
    · cases h; exact .release ‹_›
    · cases h
  | cancel i =>
    simp only [step] at h
    split at h
    · cases h
    · cases h
    · cases h; exact .cancel

@[simp] theorem goto_redis (w : World) (i : RequestId) (ph : Phase) : (w.goto i ph).redis = w.redis :=
  rfl

@[simp] theorem goto_now (w : World) (i : RequestId) (ph : Phase) : (w.goto i ph).now = w.now := rfl

theorem goto_phase (w : World) (i : RequestId) (ph : Phase) (j : RequestId) :
    (j = i ∧ (w.goto i ph).phase j = ph) ∨ (j ≠ i ∧ (w.goto i ph).phase j = w.phase j) :=
  update_cases w.phase i ph j

end Idempotency
end Middleware
end TrShared
