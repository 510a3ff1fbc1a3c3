import TrShared.Python.Json

/-!
# TrShared.Events.Envelope

`EventEnvelope` (`tr_shared/events/envelope.py`) and its two parsers. `from_flat` reads string
fields, so its scalar members are strings; `from_payload_wrapper` reads them from a JSON value and
checks none of their types, so every member is a `Json` here. `none` stands for a raised exception.
-/

namespace TrShared
namespace Events

open Python

abbrev MsgId := Nat

abbrev Fields := List (String × String)

structure EventEnvelope where
  eventId : Json
  eventType : Json
  version : Json
  tenantId : Json
  timestamp : Json
  sourceService : Json
  actorId : Json
  data : Json
  metadata : Json
  rawMessageId : MsgId

def EventEnvelope.fromFlat (lib : Stdlib) (messageId : MsgId) (fields : Fields) :
    Option EventEnvelope :=
  match lib.loads (getD fields "data" "\x7b\x7d"), lib.loads (getD fields "metadata" "\x7b\x7d") with
  | some data, some metadata =>
    some { eventId := .str (getD fields "event_id" "")
           eventType := .str (getD fields "event_type" "")
           version := .str (getD fields "version" "1.0")
           tenantId := .str (getD fields "tenant_id" "")
           timestamp := .str (getD fields "timestamp" "")
           sourceService := .str (getD fields "source_service" "")
           actorId :=
             if getD fields "actor_id" "" = "" then .null else .str (getD fields "actor_id" "")
           data := data
           metadata := metadata
           rawMessageId := messageId }
  | _, _ => none

def EventEnvelope.fromPayloadWrapper (lib : Stdlib) (messageId : MsgId) (fields : Fields) :
    Option EventEnvelope :=
  if getD fields "payload" "" = "" then none
  else
    match lib.loads (getD fields "payload" "") with
    | some (.obj payload) =>
      some { eventId := getD payload "event_id" (.str "")
             eventType := getD payload "event_type" (.str "")
             version := getD payload "version" (.str "1.0")
             tenantId := getD payload "tenant_id" (.str "")
             timestamp := getD payload "timestamp" (.str "")
             sourceService := getD payload "source" (getD payload "source_service" (.str ""))
             actorId := getD payload "actor_id" .null
             data := getD payload "data" (.obj [])
             metadata := getD payload "metadata" (.obj [])
             rawMessageId := messageId }
    | _ => none

inductive ParseMode where
  | flat
  | payload
  deriving DecidableEq, Repr

/-- `EventConsumer._parse`. -/
def parse (mode : ParseMode) (lib : Stdlib) (messageId : MsgId) (fields : Fields) :
    Option EventEnvelope :=
  match mode with
  | .payload => EventEnvelope.fromPayloadWrapper lib messageId fields
  | .flat => EventEnvelope.fromFlat lib messageId fields

/-- The event id a flat message is deduplicated by is its `event_id` field. -/
theorem fromFlat_eventId {lib : Stdlib} {messageId : MsgId} {fields : Fields}
    {env : EventEnvelope} (h : EventEnvelope.fromFlat lib messageId fields = some env) :
    env.eventId = .str (getD fields "event_id" "") := by
  simp only [EventEnvelope.fromFlat] at h
  split at h
  · cases h; rfl
  · cases h

end Events
end TrShared
