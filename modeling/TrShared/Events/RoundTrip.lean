import TrShared.Events.Envelope
import TrShared.Events.OutboxDelivery
import TrShared.Python.JsonRoundTrip

/-!
# TrShared.Events.RoundTrip

What `EventEnvelope.from_flat` reads out of a stream entry is what the publisher was given: on the
direct route through `EventProducer.publish`, and on the one through the outbox, where the row is
written by `DurableEventPublisher.publish`, read back and decoded by `drain_outbox`, and encoded a
second time.

A JSONB column gives back an equal dict, as a dict or as a text that `json.loads` reads as one; its
keys may have changed places (`SameValue`). That `json.loads` undoes `json.dumps` is asked only of
the dicts of the event in question (`Lossless`).
-/

namespace TrShared
namespace Events

open Python Machine

/-- Equality of Python values: a dict does not depend on the order of its entries. -/
inductive SameValue : Json → Json → Prop where
  | refl (v : Json) : SameValue v v
  | arr {items items' : List Json} :
      List.Forall₂ SameValue items items' → SameValue (.arr items) (.arr items')
  | obj {d d' : Dict} :
      (∀ k, Option.Rel SameValue (d.lookup k) (d'.lookup k)) → SameValue (.obj d) (.obj d')

def Lossless (lib : Stdlib) (d : Dict) : Prop := lib.loads (lib.dumps (.obj d)) = some (.obj d)

/-- An actor id as `from_flat` returns it: `""` becomes `None`. -/
def actorValue : Option String → Json
  | none => .null
  | some a => if a = "" then .null else .str a

/-- `from_flat` accepts the entry and reads these values from it. -/
def Restores (lib : Stdlib) (fields : Fields) (eventType tenantId : String)
    (actorId : Option String) (data metadata : Dict) : Prop :=
  ∀ messageId, ∃ env, EventEnvelope.fromFlat lib messageId fields = some env ∧
    env.eventType = .str eventType ∧ env.tenantId = .str tenantId ∧
    env.actorId = actorValue actorId ∧ env.data = .obj data ∧ env.metadata = .obj metadata

/-- The `XADD` field map keeps every member apart. -/
theorem restores_wire {lib : Stdlib} {e : WireEvent} {actorId : Option String}
    {data metadata : Dict} (ha : e.actorId = actorId.getD "")
    (hd : e.data = lib.dumps (.obj data)) (hm : e.metadata = lib.dumps (.obj metadata))
    (hld : Lossless lib data) (hlm : Lossless lib metadata) :
    Restores lib e.fields e.eventType e.tenantId actorId data metadata := by
  intro messageId
  have hdata : getD e.fields "data" "\x7b\x7d" = lib.dumps (.obj data) := by
    simp [WireEvent.fields, getD, List.lookup_cons, hd]
  have hmeta : getD e.fields "metadata" "\x7b\x7d" = lib.dumps (.obj metadata) := by
    simp [WireEvent.fields, getD, List.lookup_cons, hm]
  have hactor : getD e.fields "actor_id" "" = actorId.getD "" := by
    simp [WireEvent.fields, getD, List.lookup_cons, ha]
  simp only [EventEnvelope.fromFlat, hdata, hmeta, hactor]
  rw [hld, hlm]
  refine ⟨_, rfl, ?_, ?_, ?_, rfl, rfl⟩
  · simp [WireEvent.fields, getD, List.lookup_cons]
  · simp [WireEvent.fields, getD, List.lookup_cons]
  · cases actorId with
    | none => simp [actorValue]
    | some a => simp [actorValue]

/-! ## `EventProducer.publish` -/

/-- A correlation id as the caller passes it. -/
def correlationValue : Option String → Json
  | none => .null
  | some c => .str c

/-- The metadata with the correlation id, when it is not empty. -/
def withCorrelation (metadata : Option Dict) : Option String → Dict
  | none => metadata.getD []
  | some c =>
    if c = "" then metadata.getD [] else setItem (metadata.getD []) "correlation_id" (.str c)

theorem eventMetadata_eq {a : PublishArgs} {correlationId : Option String}
    (h : a.correlationId = correlationValue correlationId) :
    eventMetadata a = withCorrelation a.metadata correlationId := by
  cases correlationId with
  | none => simp [eventMetadata, h, correlationValue, Json.truthy, withCorrelation]
  | some c =>
    by_cases hc : c = ""
    · simp [eventMetadata, h, correlationValue, Json.truthy, withCorrelation, hc]
    · simp [eventMetadata, h, correlationValue, Json.truthy, withCorrelation, hc]

theorem publish_restores {p : EventProducer} {lib : Stdlib} {a : PublishArgs} {eventId : String}
    {now : Int} {data : Dict} {correlationId : Option String} (hd : a.data = .obj data)
    (hc : a.correlationId = correlationValue correlationId) (hstrict : missingField a = none)
    (hsize : oversized p lib a = false) (hld : Lossless lib data)
    (hlm : Lossless lib (withCorrelation a.metadata correlationId)) :
    ∃ e, p.wireEvent lib a eventId now = .ok e ∧
      Restores lib e.fields a.eventType a.tenantId a.actorId data
        (withCorrelation a.metadata correlationId) := by
  simp only [EventProducer.wireEvent, hstrict, hsize]
  refine ⟨_, rfl, ?_⟩
  refine restores_wire rfl ?_ ?_ hld hlm
  · rw [hd]
  · rw [eventMetadata_eq hc]

/-! ## Through the outbox -/

namespace Outbox

variable {cfg : DrainId → DrainConfig} {lib : Stdlib}

/-- What a JSONB column returns for a dict equal to `d`. -/
def Column (lib : Stdlib) (d : Dict) (v : Json) : Prop :=
  v = .obj d ∨ ∃ text, v = .str text ∧ lib.loads text = some (.obj d)

/-- The row holds the event given to `DurableEventPublisher.publish`; `data` and `metadata` are the
dicts its columns return. -/
structure Stores (lib : Stdlib) (args : DurableArgs) (data metadata : Dict) (r : Row) : Prop where
  eventType : r.eventType = args.eventType
  tenantId : r.tenantId = args.tenantId
  actorId : r.actorId = args.actorId
  dataColumn : Column lib data r.data
  metadataColumn : Column lib metadata r.metadata
  sameData : SameValue (.obj args.data) (.obj data)
  sameMetadata : SameValue (.obj (args.metadata.getD [])) (.obj metadata)

theorem Column.decodeData {d : Dict} {v : Json} (h : Column lib d v) :
    decodeData lib v = some (.obj d) := by
  rcases h with rfl | ⟨text, rfl, ht⟩
  · rfl
  · exact ht

/-- A text that is JSON is not empty, so `or` does not replace it. -/
theorem Column.decodeMetadata (hempty : lib.loads "" = none) {d : Dict} {v : Json}
    (h : Column lib d v) : decodeMetadata lib v = some d := by
  rcases h with rfl | ⟨text, rfl, ht⟩
  · rfl
  · have hne : text ≠ "" := by
      rintro rfl
      rw [hempty] at ht
      cases ht
    simp [Outbox.decodeMetadata, Json.truthy, hne, ht]

theorem Column.of_jsonb {d : Dict} (h : Lossless lib d) (asText : Bool) :
    Column lib d (jsonb lib asText d) := by
  cases asText with
  | false => exact .inl rfl
  | true => exact .inr ⟨_, rfl, h⟩

theorem Stores.of_event {args : DurableArgs} {data metadata : Dict} {r r' : Row}
    (h : Stores lib args data metadata r) (he : r'.snapshot.event = r.snapshot.event) :
    Stores lib args data metadata r' := by
  simp only [Row.snapshot, Snapshot.event, Snapshot.mk.injEq] at he
  obtain ⟨-, h1, h2, h3, h4, h5, -⟩ := he
  exact { h with
    eventType := h1.trans h.eventType
    tenantId := h2.trans h.tenantId
    actorId := h3.trans h.actorId
    dataColumn := h4 ▸ h.dataColumn
    metadataColumn := h5 ▸ h.metadataColumn }

theorem row_stores {args : DurableArgs} {asText inTransaction : Bool} {id : RowId} {now : Int}
    {row : Row} (h : args.row lib asText inTransaction id now = some row)
    (hd : Lossless lib args.data) (hm : Lossless lib (args.metadata.getD [])) :
    Stores lib args args.data (args.metadata.getD []) row := by
  simp only [DurableArgs.row] at h
  split at h
  · cases h
    exact { eventType := rfl, tenantId := rfl, actorId := rfl
            dataColumn := .of_jsonb hd asText
            metadataColumn := .of_jsonb hm asText
            sameData := .refl _
            sameMetadata := .refl _ }
  · cases h

theorem step_insert {s s' : World} {args : DurableArgs} {asText inTransaction : Bool} {id : RowId}
    (h : step cfg lib s (.insert args asText inTransaction id) = some s') :
    ∃ row, args.row lib asText inTransaction id s.now = some row ∧
      s'.table.find id = some row := by
  cases step_cases h with
  | @insert _ _ _ _ row hrow hnew =>
    have hid : row.id = id := by
      simp only [DurableArgs.row] at hrow
      split at hrow
      · cases hrow; rfl
      · cases hrow
    refine ⟨row, hrow, ?_⟩
    rw [Table.find_insert, if_pos hid.symm]

/-- An inserted row is in the table to the end, with its event. -/
theorem run_insert {ok : World → Act → Prop} {s s' : World} {as : List Act}
    (h : Run (step cfg lib) ok s as s') {args : DurableArgs} {asText inTransaction : Bool}
    {id : RowId} (hin : .insert args asText inTransaction id ∈ as) :
    ∃ r now row, s'.table.find id = some r ∧
      args.row lib asText inTransaction id now = some row ∧
      r.snapshot.event = row.snapshot.event := by
  induction h with
  | nil => cases hin
  | @cons s s₁ s' a as ho hs hrun ih =>
    rcases List.mem_cons.mp hin with rfl | hin
    · obtain ⟨row, hrow, hfind⟩ := step_insert hs
      obtain ⟨r, hr, he⟩ := run_keeps_row hrun hfind
      exact ⟨r, s.now, row, hr, hrow, he⟩
    · exact ih hin

/-- Every stream entry was built from a stored row. -/
theorem run_committed {ok : World → Act → Prop} {table : Table Row.id} {now : Int}
    {as : List Act} {s : World} (h : Run (step cfg lib) ok (start table now) as s) :
    ∀ a ∈ s.stream, ∃ r, s.table.find a.row = some r ∧ Carries lib a.event r := by
  refine (h.invariant (I := fun s => Known s ∧
    ∀ a ∈ s.stream, ∃ r, s.table.find a.row = some r ∧ Carries lib a.event r) ?_ ?_).2
  · rintro s a s' ⟨hk, hc⟩ _ hs
    refine ⟨hk.step hs, ?_⟩
    cases step_cases hs with
    | tick dt => exact hc
    | insert hrow hnew =>
      intro a ha
      obtain ⟨r, hr, hcar⟩ := hc a ha
      exact ⟨r, Table.find_insert_of_find hnew hr, hcar⟩
    | select _ _ => exact hc
    | drain hm _ => exact hk.committed_drain hc hm
  · refine ⟨.start table now, ?_⟩
    intro a ha
    cases ha

theorem entry_restores (hempty : lib.loads "" = none) {e : WireEvent} {r : Row}
    {args : DurableArgs} {data metadata : Dict} (hc : Carries lib e r)
    (h : Stores lib args data metadata r) (hld : Lossless lib data) (hlm : Lossless lib metadata) :
    Restores lib e.fields args.eventType args.tenantId args.actorId data metadata := by
  obtain ⟨h1, h2, h3, h4, h5⟩ := hc.decoded h.dataColumn.decodeData
    (h.metadataColumn.decodeMetadata hempty)
  have := restores_wire (h.actorId ▸ h3) h4 h5 hld hlm
  rwa [h1, h2, h.eventType, h.tenantId] at this

/-- A stream entry of a row that holds the event. -/
theorem stored_restores (hempty : lib.loads "" = none) {ok : World → Act → Prop} {table : Table Row.id}
    {now : Int} {as : List Act} {s : World} (h : Run (step cfg lib) ok (start table now) as s)
    {entry : Accepted} (hentry : entry ∈ s.stream) {r : Row} {args : DurableArgs} {data metadata : Dict}
    (hr : s.table.find entry.row = some r) (hst : Stores lib args data metadata r)
    (hld : Lossless lib data) (hlm : Lossless lib metadata) :
    Restores lib entry.event.fields args.eventType args.tenantId args.actorId data metadata := by
  obtain ⟨r', hr', hcar⟩ := run_committed h entry hentry
  rw [hr] at hr'
  cases hr'
  exact entry_restores hempty hcar hst hld hlm

/-- A stream entry of a row that was inserted during the run. -/
theorem inserted_restores (hempty : lib.loads "" = none) {ok : World → Act → Prop}
    {table : Table Row.id} {now : Int} {as : List Act} {s : World}
    (h : Run (step cfg lib) ok (start table now) as s) {entry : Accepted} (hentry : entry ∈ s.stream)
    {args : DurableArgs} {asText inTransaction : Bool}
    (hin : .insert args asText inTransaction entry.row ∈ as) (hld : Lossless lib args.data)
    (hlm : Lossless lib (args.metadata.getD [])) :
    Restores lib entry.event.fields args.eventType args.tenantId args.actorId args.data
      (args.metadata.getD []) := by
  obtain ⟨r, now', row, hr, hrow, he⟩ := run_insert h hin
  have hst : Stores lib args args.data (args.metadata.getD []) r := (row_stores hrow hld hlm).of_event he
  exact stored_restores hempty h hentry hr hst hld hlm

end Outbox

open Outbox in
/-- Both routes give the consumer what the publisher was given. The first part is about the event
`publish` sends, the second about every stream entry of every run of the outbox, whether its row was
inserted during the run or holds the event in the columns' own representation. -/
theorem wire_round_trip (lib : Stdlib) (hempty : lib.loads "" = none) :
    (∀ (p : EventProducer) (a : PublishArgs) (data : Dict) (correlationId : Option String)
        (eventId : String) (now : Int),
      a.data = .obj data → a.correlationId = correlationValue correlationId →
      missingField a = none → oversized p lib a = false →
      Lossless lib data → Lossless lib (withCorrelation a.metadata correlationId) →
      ∃ e, p.wireEvent lib a eventId now = .ok e ∧
        Restores lib e.fields a.eventType a.tenantId a.actorId data
          (withCorrelation a.metadata correlationId)) ∧
    (∀ (cfg : DrainId → DrainConfig) (table : Table Row.id) (now : Int) (as : List Act) (s : World),
      Run (step cfg lib) (fun _ _ => True) (start table now) as s →
      ∀ entry ∈ s.stream, ∀ args : DurableArgs,
        (∀ asText inTransaction, .insert args asText inTransaction entry.row ∈ as →
          Lossless lib args.data → Lossless lib (args.metadata.getD []) →
          Restores lib entry.event.fields args.eventType args.tenantId args.actorId args.data
            (args.metadata.getD [])) ∧
        (∀ r data metadata, s.table.find entry.row = some r → Stores lib args data metadata r →
          Lossless lib data → Lossless lib metadata →
          Restores lib entry.event.fields args.eventType args.tenantId args.actorId data
            metadata)) := by
  refine ⟨?_, ?_⟩
  · intro p a data correlationId eventId now hd hc hstrict hsize hld hlm
    exact publish_restores hd hc hstrict hsize hld hlm
  · intro cfg table now as s h entry hentry args
    refine ⟨?_, ?_⟩
    · intro asText inTransaction hin hld hlm
      exact inserted_restores hempty h hentry hin hld hlm
    · intro r data metadata hr hst hld hlm
      exact stored_restores hempty h hentry hr hst hld hlm

/-! ## The standard library -/

/-- The standard library; `f` is its floats, `isoformat` its moments. -/
def pythonLib (f : Floats) (isoformat : Int → String) : Stdlib := ⟨dumps f, loads f, isoformat⟩

section PythonLib

variable {f : Floats} {isoformat : Int → String}

theorem lossless_of_plain {d : Dict} (h : Plain f (.obj d)) : Lossless (pythonLib f isoformat) d :=
  loads_dumps f h

theorem loads_empty : (pythonLib f isoformat).loads "" = none := rfl

end PythonLib

/-- The floats of a price. -/
def priceFloats : Floats :=
  ⟨fun m e => if m = 125 ∧ e = -1 then "12.5".toList else [],
    fun s => if s = "12.5".toList then .num 125 (-1) else .null⟩

theorem price_exact : priceFloats.Exact 125 (-1) where
  parse := by decide
  text := ⟨false, 12, ".5".toList, [], by decide, .inr ⟨['5'], by decide, by simp; decide, rfl⟩, .inl rfl,
    .inl (by decide)⟩

def listingData : Dict :=
  [("title", .str "Zoë's \"loft\""), ("price", .num 125 (-1)), ("rooms", .arr [.num (-3) 0, .null]),
    ("agent", .obj [])]

theorem listingData_plain : Plain priceFloats (.obj listingData) := by
  have hsmall : Plain priceFloats (.num (-3) 0) := by
    have hlt : (-3 : Int).natAbs < 10 ^ intMaxStrDigits :=
      Nat.lt_of_lt_of_le (by decide : (3 : Nat) < 10 ^ 1) (Nat.pow_le_pow_right (by decide) (by decide))
    rw [Plain, if_pos rfl]
    exact hlt
  exact ⟨by decide, trivial, price_exact, ⟨hsmall, trivial, trivial⟩, ⟨List.nodup_nil, trivial⟩, trivial⟩

def listingMetadata : Dict := [("source", .str "import")]

theorem listingMetadata_plain : Plain priceFloats (.obj listingMetadata) := ⟨by decide, trivial, trivial⟩

def listingLib : Stdlib := pythonLib priceFloats (fun _ => "2026-01-01T00:00:00+00:00")

def listingEvent : PublishArgs where
  eventType := "listing.created"
  tenantId := "tenant"
  data := .obj listingData
  actorId := some "agent"
  metadata := some listingMetadata
  correlationId := correlationValue (some "request")

def listingArgs : Outbox.DurableArgs where
  eventType := "listing.created"
  tenantId := "tenant"
  data := listingData
  actorId := some ""
  metadata := some listingMetadata

open Outbox in
/-- The row of `listingArgs`, in columns that return text. -/
def listingRow : Row where
  id := "row"
  eventType := "listing.created"
  tenantId := "tenant"
  actorId := some ""
  data := .str (listingLib.dumps (.obj listingData))
  metadata := .str (listingLib.dumps (.obj listingMetadata))
  nextRetryAt := 0

open Outbox in
/-- A listing, published directly by an agent and with a correlation id, and through the outbox with an empty
actor. -/
theorem listing_round_trip :
    (∃ e, ({ sourceService := "crm" } : EventProducer).wireEvent listingLib listingEvent "e1" 0 = .ok e ∧
      Restores listingLib e.fields "listing.created" "tenant" (some "agent") listingData
        [("source", .str "import"), ("correlation_id", .str "request")]) ∧
    ∃ s entry, exec (step (demoConfig 10) listingLib) (start ⟨[], by decide⟩ 0)
        ([.insert listingArgs true true "row"] ++ demoPublish 0 listingRow "e1" .ok) = some s ∧
      entry ∈ s.stream ∧
      Restores listingLib entry.event.fields "listing.created" "tenant" (some "") listingData
        listingMetadata := by
  have hrt := wire_round_trip listingLib loads_empty
  have hdata : Lossless listingLib listingData := lossless_of_plain listingData_plain
  have hmetadata : Lossless listingLib listingMetadata := lossless_of_plain listingMetadata_plain
  refine ⟨?_, ?_⟩
  · exact hrt.1 { sourceService := "crm" } listingEvent listingData (some "request") "e1" 0 rfl rfl rfl
      (by decide +kernel) hdata (lossless_of_plain ⟨by decide, trivial, trivial, trivial⟩)
  · obtain ⟨s, hs, hp⟩ := exec_any (s := start ⟨[], by decide⟩ 0)
      (p := fun s => s.stream.any (fun a => a.row == "row"))
      (show (exec (step (demoConfig 10) listingLib) (start ⟨[], by decide⟩ 0)
        ([.insert listingArgs true true "row"] ++ demoPublish 0 listingRow "e1" .ok)).any _ = true by
        decide +kernel)
    obtain ⟨entry, hentry, hrow⟩ := List.any_eq_true.mp hp
    have hrow' : entry.row = "row" := by simpa using hrow
    refine ⟨s, entry, hs, hentry, ?_⟩
    have hrun : Run (step (demoConfig 10) listingLib) (fun _ _ => True) _ _ s :=
      .of_exec_all (fun _ _ _ => trivial) hs
    exact (hrt.2 (demoConfig 10) _ 0 _ s hrun entry hentry listingArgs).1 true true
      (by rw [hrow']; exact List.mem_cons_self) hdata hmetadata

end Events
end TrShared
