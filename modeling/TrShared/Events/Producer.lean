import TrShared.Python.Json

/-!
# TrShared.Events.Producer

`EventProducer.publish` (`tr_shared/events/producer.py`) up to its `XADD`: the checks that raise
before anything is sent, and the fields that are sent. The event id is the `uuid4()` drawn by this
call, so it is an argument here.
-/

namespace TrShared
namespace Events

open Python

/-- What one `XADD` puts on the stream. -/
structure WireEvent where
  eventId : String
  eventType : String
  version : String
  tenantId : String
  timestamp : String
  sourceService : String
  actorId : String
  data : String
  metadata : String
  deriving DecidableEq, Repr

/-- The `XADD` field map. -/
def WireEvent.fields (e : WireEvent) : List (String × String) :=
  [("event_id", e.eventId), ("event_type", e.eventType), ("version", e.version),
   ("tenant_id", e.tenantId), ("timestamp", e.timestamp), ("source_service", e.sourceService),
   ("actor_id", e.actorId), ("data", e.data), ("metadata", e.metadata)]

structure EventProducer where
  sourceService : String
  maxDataBytes : Nat := 1048576
  deriving DecidableEq, Repr

/-- The arguments of `publish`. `data` is whatever the caller passes as the payload, `metadata` a
dict or `None`, `correlationId` any value read from a dict. -/
structure PublishArgs where
  eventType : String
  tenantId : String
  data : Json
  actorId : Option String := none
  metadata : Option Dict := none
  correlationId : Json := .null
  strictMode : Bool := false

/-- `field in data`, for the payload the caller passed. -/
def hasField (data : Json) (field : String) : Bool :=
  match data with
  | .obj d => (d.lookup field).isSome
  | _ => false

/-- The fields strict mode asks for; the first one missing is named in the error. -/
def strictFields : List String := ["entity_id", "entity_type", "action"]

def missingField (a : PublishArgs) : Option String :=
  if a.strictMode then strictFields.find? (fun f => !hasField a.data f) else none

/-- `metadata.copy() if metadata else {}`, then the correlation id when it is truthy. -/
def eventMetadata (a : PublishArgs) : Dict :=
  if a.correlationId.truthy then
    setItem (a.metadata.getD []) "correlation_id" a.correlationId
  else a.metadata.getD []

/-- The size check, when it raises. -/
def oversized (p : EventProducer) (lib : Stdlib) (a : PublishArgs) : Bool :=
  p.maxDataBytes != 0 && decide (p.maxDataBytes < (lib.dumps a.data).utf8ByteSize)

/-- `publish` up to the `XADD`: the message of the `ValueError`, or the event to send. -/
def EventProducer.wireEvent (p : EventProducer) (lib : Stdlib) (a : PublishArgs)
    (eventId : String) (now : Int) : Except String WireEvent :=
  match missingField a with
  | some f => .error ("data must contain '" ++ f ++ "'")
  | none =>
    if oversized p lib a then
      .error ("Event data is " ++ toString (lib.dumps a.data).utf8ByteSize ++
        " bytes, exceeds limit of " ++ toString p.maxDataBytes ++ " bytes")
    else
      .ok { eventId := eventId
            eventType := a.eventType
            version := "1.0"
            tenantId := a.tenantId
            timestamp := lib.isoformat now
            sourceService := p.sourceService
            actorId := a.actorId.getD ""
            data := lib.dumps a.data
            metadata := lib.dumps (.obj (eventMetadata a)) }

/-- What every event that gets as far as the `XADD` carries. -/
theorem wireEvent_ok {p : EventProducer} {lib : Stdlib} {a : PublishArgs} {eventId : String}
    {now : Int} {e : WireEvent} (h : p.wireEvent lib a eventId now = .ok e) :
    e.eventId = eventId ∧ e.eventType = a.eventType ∧ e.tenantId = a.tenantId ∧
      e.actorId = a.actorId.getD "" ∧ e.data = lib.dumps a.data ∧
      e.metadata = lib.dumps (.obj (eventMetadata a)) := by
  simp only [EventProducer.wireEvent] at h
  split at h
  · cases h
  · split at h
    · cases h
    · cases h; exact ⟨rfl, rfl, rfl, rfl, rfl, rfl⟩

end Events
end TrShared
