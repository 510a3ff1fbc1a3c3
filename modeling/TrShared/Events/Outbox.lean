import TrShared.Events.Producer
import TrShared.Events.RetryPolicy
import TrShared.Machine.Run
import TrShared.Machine.Shared
import TrShared.Machine.Table

/-!
# TrShared.Events.Outbox

The transactional outbox: the table `{schema}.undelivered_events`, `DurableEventPublisher`
(`durable_publisher.py`) which commits rows to it, and any number of `drain_outbox` calls
(`outbox_drainer.py`) which publish them.

A drain is a small program. `Phase` is where it stands between two awaits, `move` is what it does
next, given how the awaited call ended, and `World.apply` carries out the effects of that on the
table, the stream and the counters. `step` interleaves the drains, the clock and new rows. What
PostgreSQL does is in `Selects` (a result the locking `SELECT` may return), in `locks`, and in the
guard on writes: a row lock is held until the transaction that took it ends.

An await ends with a `Reply`; a drain that crashes stops at any await. `stream` remembers for each
entry the row it was published for and `raised` which rows had a failed attempt: no code reads
these two, the theorems are about them.
-/

namespace TrShared
namespace Events
namespace Outbox

open Python Machine

abbrev RowId := String
abbrev DrainId := Nat

/-- A row of the outbox table. `data` and `metadata` are the Python values the driver returns. -/
structure Row where
  id : RowId
  eventType : String
  tenantId : String
  actorId : Option String
  data : Json
  metadata : Json
  retryCount : Nat := 0
  nextRetryAt : Int
  publishedAt : Option Int := none
  deadLetter : Bool := false
  lastError : Option String := none
  deriving DecidableEq

/-- The columns the drainer's `SELECT` reads. -/
structure Snapshot where
  id : RowId
  eventType : String
  tenantId : String
  actorId : Option String
  data : Json
  metadata : Json
  retryCount : Nat

def Row.snapshot (r : Row) : Snapshot :=
  { id := r.id, eventType := r.eventType, tenantId := r.tenantId, actorId := r.actorId
    data := r.data, metadata := r.metadata, retryCount := r.retryCount }

/-- The arguments of `DurableEventPublisher.publish`. -/
structure DurableArgs where
  eventType : String
  tenantId : String
  data : Dict
  actorId : Option String := none
  metadata : Option Dict := none

-- A JSONB column comes back as a dict or, from some drivers, as its text.
def jsonb (lib : Stdlib) (asText : Bool) (d : Dict) : Json :=
  if asText then .str (lib.dumps (.obj d)) else .obj d

/-- The row `DurableEventPublisher.publish` inserts: the columns it names, and the defaults of the
others. Outside a transaction it raises and inserts nothing. -/
def DurableArgs.row (a : DurableArgs) (lib : Stdlib) (asText inTransaction : Bool) (id : RowId)
    (now : Int) : Option Row :=
  if inTransaction then
    some { id := id
           eventType := a.eventType
           tenantId := a.tenantId
           actorId := a.actorId
           data := jsonb lib asText a.data
           metadata := jsonb lib asText (a.metadata.getD [])
           nextRetryAt := now }
  else none

structure DrainConfig where
  batchSize : Nat := 100
  retryPolicy : Option RetryPolicy := none
  producer : EventProducer

def DrainConfig.policy (c : DrainConfig) : RetryPolicy :=
  c.retryPolicy.getD { maxRetries := 10 }

/-! ## One row -/

-- `row["data"] if isinstance(row["data"], dict) else json.loads(row["data"])`
def decodeData (lib : Stdlib) : Json → Option Json
  | .obj d => some (.obj d)
  | .str s => lib.loads s
  | _ => none

-- The same with `row["metadata"] or "{}"`; `.get` then needs a dict.
def decodeMetadata (lib : Stdlib) : Json → Option Dict
  | .obj d => some d
  | v =>
    match (if v.truthy then v else .str "{}") with
    | .str s =>
      match lib.loads s with
      | some (.obj d) => some d
      | _ => none
    | _ => none

/-- The arguments `drain_outbox` passes to `publish`; `none` when decoding the row raised, which
happens before the `try`. -/
def publishArgs (lib : Stdlib) (row : Snapshot) : Option PublishArgs :=
  match decodeData lib row.data, decodeMetadata lib row.metadata with
  | some data, some metadata =>
    some { eventType := row.eventType
           tenantId := row.tenantId
           data := data
           actorId := if row.actorId.getD "" = "" then none else row.actorId
           metadata := some metadata
           correlationId := getD metadata "correlation_id" .null }
  | _, _ => none

/-- The three `UPDATE` statements. -/
inductive Write where
  | published
  | deadLetter (retryCount : Nat) (lastError : String)
  | retry (retryCount : Nat) (nextRetryAt : Int) (lastError : String)

def Write.apply (now : Int) : Write → Row → Row
  | .published, r => { r with publishedAt := some now }
  | .deadLetter n err, r => { r with deadLetter := true, retryCount := n, lastError := some err }
  | .retry n nextAt err, r =>
    { r with retryCount := n, nextRetryAt := nextAt, lastError := some err }

theorem Write.apply_id (w : Write) (now : Int) (r : Row) : (w.apply now r).id = r.id := by
  cases w <;> rfl

/-! ## One drain -/

/-- Between which awaits a drain is: `selecting` after the `SELECT` and before the end of its
transaction, `marking` after a `publish` that returned, `deadLettering` and `retrying` in the
`except` block before its `UPDATE`, `notifying` before the dead-letter callback. -/
inductive Phase where
  | ready
  | selecting (rows : List Snapshot)
  | looping (rows : List Snapshot)
  | marking (row : Snapshot) (rest : List Snapshot)
  | deadLettering (row : Snapshot) (nextCount : Nat) (exc : String) (rest : List Snapshot)
  | retrying (row : Snapshot) (nextCount : Nat) (nextAt : Int) (exc : String)
      (rest : List Snapshot)
  | notifying (row : Snapshot) (nextCount : Nat) (exc : String) (rest : List Snapshot)
  | returned
  | raised

/-- How the await a drain is in ends. -/
inductive Event where
  | committed
  | publish (eventId : String) (reply : Reply) (exc : String)
  | update (reply : Reply) (exc : String)
  | notified
  | finish
  | crash

inductive Tally where
  | published
  | retried
  | deadLettered

/-- An entry of the stream, with the row the drain was publishing. -/
structure Accepted where
  row : RowId
  event : WireEvent

/-- What a drain does between two awaits. -/
structure Move where
  next : Phase
  accepts : Option Accepted := none
  writes : Option (RowId × Write) := none
  failed : Option RowId := none
  tally : Option Tally := none
  callback : Option (RowId × Nat × String) := none

/-- The `except` block up to its `UPDATE`. The retry time is computed outside any `try`. -/
def onException (c : DrainConfig) (now : Int) (row : Snapshot) (exc : String)
    (rest : List Snapshot) : Phase :=
  let nextCount := row.retryCount + 1
  if c.policy.maxRetries ≤ nextCount then .deadLettering row nextCount exc rest
  else
    match later now (c.policy.delayFor nextCount) with
    | some nextAt => .retrying row nextCount nextAt exc rest
    | none => .raised

def failure (c : DrainConfig) (now : Int) (row : Snapshot) (exc : String)
    (rest : List Snapshot) : Move :=
  { next := onException c now row exc rest, failed := some row.id }

/-- `producer.publish(...)` for the row at the head of the loop. -/
def publishMove (c : DrainConfig) (lib : Stdlib) (now : Int) (row : Snapshot)
    (rest : List Snapshot) (eventId : String) (reply : Reply) (exc : String) : Move :=
  match publishArgs lib row with
  | none => { next := .raised }
  | some args =>
    match c.producer.wireEvent lib args eventId now with
    | .error msg => failure c now row msg rest
    | .ok e =>
      match reply with
      | .ok => { next := .marking row rest, accepts := some ⟨row.id, e⟩ }
      | .lost => { failure c now row exc rest with accepts := some ⟨row.id, e⟩ }
      | .refused => failure c now row exc rest

def wrote (reply : Reply) (id : RowId) (w : Write) : Option (RowId × Write) :=
  if reply.took then some (id, w) else none

def move (c : DrainConfig) (lib : Stdlib) (now : Int) : Phase → Event → Option Move
  | .selecting rows, .committed => some { next := .looping rows }
  | .looping [], .finish => some { next := .returned }
  | .looping (row :: rest), .publish eventId reply exc =>
    some (publishMove c lib now row rest eventId reply exc)
  | .marking row rest, .update reply exc =>
    if reply.returned then
      some { next := .looping rest, writes := wrote reply row.id .published
             tally := some .published }
    else
      some { failure c now row exc rest with writes := wrote reply row.id .published }
  | .deadLettering row n exc rest, .update reply _ =>
    -- an exception of this `UPDATE` leaves the `except` block and ends the call
    some { next := if reply.returned then .notifying row n exc rest else .raised
           writes := wrote reply row.id (.deadLetter n (prefixOf 500 exc)) }
  | .notifying row n exc rest, .notified =>
    some { next := .looping rest, tally := some .deadLettered
           callback := some (row.id, n, exc) }
  | .retrying row n nextAt exc rest, .update reply _ =>
    some { next := if reply.returned then .looping rest else .raised
           writes := wrote reply row.id (.retry n nextAt (prefixOf 500 exc))
           tally := if reply.returned then some .retried else none }
  | .returned, .crash | .raised, .crash => none
  | _, .crash => some { next := .raised }
  | _, _ => none

/-! ## The system -/

structure Drain where
  phase : Phase := .ready
  published : Nat := 0
  retried : Nat := 0
  deadLettered : Nat := 0

def Drain.advance (d : Drain) (m : Move) : Drain :=
  match m.tally with
  | none => { d with phase := m.next }
  | some .published => { d with phase := m.next, published := d.published + 1 }
  | some .retried => { d with phase := m.next, retried := d.retried + 1 }
  | some .deadLettered => { d with phase := m.next, deadLettered := d.deadLettered + 1 }

structure World where
  now : Int
  table : Table Row.id
  locks : List (DrainId × RowId) := []
  stream : List Accepted := []
  raised : List RowId := []
  callbacks : List (RowId × Nat × String) := []
  drains : DrainId → Drain := fun _ => {}

def World.locked (s : World) (id : RowId) : Bool := s.locks.any (fun l => l.2 == id)

/-- `WHERE published_at IS NULL AND dead_letter = FALSE AND next_retry_at <= NOW()`. -/
def Row.due (r : Row) (now : Int) : Bool :=
  r.publishedAt.isNone && !r.deadLetter && decide (r.nextRetryAt ≤ now)

/-- The rows the locking `SELECT` has to choose from. -/
def World.candidates (s : World) : List Row :=
  s.table.rows.filter (fun r => r.due s.now && !s.locked r.id)

/-- `picked` is a result of the locking `SELECT`: candidates in the order of `next_retry_at`, as
many as the limit allows, none left out that is due earlier. Rows due at the same time may come
in any order. -/
def Selects (s : World) (limit : Nat) (picked : List Row) : Prop :=
  (picked.map Row.id).Nodup ∧ (∀ r ∈ picked, r ∈ s.candidates) ∧
    picked.Pairwise (fun r r' => r.nextRetryAt ≤ r'.nextRetryAt) ∧
    picked.length = min limit s.candidates.length ∧
    ∀ r ∈ s.candidates, r ∉ picked → ∀ p ∈ picked, p.nextRetryAt ≤ r.nextRetryAt

instance (s : World) (limit : Nat) (picked : List Row) : Decidable (Selects s limit picked) :=
  inferInstanceAs (Decidable (_ ∧ _))

def World.apply (s : World) (d : DrainId) (m : Move) : World :=
  { s with
    table := match m.writes with
      | none => s.table
      | some (id, w) => s.table.modify id (w.apply s.now) (w.apply_id s.now)
    -- only an open `SELECT` transaction holds locks, and every move of a drain ends it
    locks := s.locks.filter (fun l => l.1 != d)
    stream := s.stream ++ m.accepts.toList
    raised := s.raised ++ m.failed.toList
    callbacks := s.callbacks ++ m.callback.toList
    drains := Function.update s.drains d ((s.drains d).advance m) }

inductive Act where
  | tick (dt : Nat)
  | insert (args : DurableArgs) (asText inTransaction : Bool) (id : RowId)
  | select (d : DrainId) (picked : List Row)
  | drain (d : DrainId) (e : Event)

def step (cfg : DrainId → DrainConfig) (lib : Stdlib) (s : World) : Act → Option World
  | .tick dt => some { s with now := s.now + dt }
  | .insert args asText inTransaction id =>
    match args.row lib asText inTransaction id s.now with
    | none => none
    | some row =>
      if h : row.id ∉ s.table.rows.map Row.id then
        some { s with table := s.table.insert row h }
      else none
  | .select d picked =>
    match (s.drains d).phase with
    | .ready =>
      if Selects s (cfg d).batchSize picked then
        some { s with
          locks := s.locks ++ picked.map (fun r => (d, r.id))
          drains := Function.update s.drains d
            { s.drains d with phase := .selecting (picked.map Row.snapshot) } }
      else none
    | _ => none
  | .drain d e =>
    match move (cfg d) lib s.now (s.drains d).phase e with
    | none => none
    | some m => if m.writes.any (fun w => s.locked w.1) then none else some (s.apply d m)

end Outbox
end Events
end TrShared
