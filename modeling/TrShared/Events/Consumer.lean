import TrShared.Events.Envelope
import TrShared.Events.RetryPolicy
import TrShared.Machine.PendingList
import TrShared.Machine.Run
import TrShared.Machine.Shared

/-!
# TrShared.Events.Consumer

The stream consumers of one group (`tr_shared/events/consumer.py`, with `retry_state.py` and
`dead_letter.py`), as they run after `start()`: `_dlq` and `_retry_state` are set by `connect()`.

Every consumer has two tasks, its consume loop and its claimer loop. A task fetches a batch
(`XREADGROUP` or `XAUTOCLAIM`) and then works through it, one `_process_message` after the other,
each followed by the `XACK` when it asks for one. `Pc` is the await a task stands at inside
`_process_message`; `move` is what it does when that await ends, and `step` interleaves the tasks
of all consumers. An exception that leaves `_process_message` or `_ack` ends the batch, and the
loop fetches a new one. After `stop()`, which disconnects, a batch is still worked through: only
`_ack` looks for `_redis`, while `_dlq` and `_retry_state` keep the client they were given, which
connects again when it is used. `crash` ends a task at any await, by cancellation or with its process; the
entries stay in the pending list, and the next fetch may be that of a restarted process.

The group's Redis side is the stream, the position up to which entries were delivered, the
pending list with owner and delivery time, the retry hash and the dead-letter stream. The hash can
expire as a whole between two steps. `processed` are the ids given to `mark_processed`; whether
`is_processed` still knows an id is up to the checker, so it is an argument of the step. `log` is
the history the theorems are about.
-/

namespace TrShared
namespace Events
namespace Consumer

open Python Machine

abbrev ConsumerId := Nat
abbrev HandlerId := Nat

inductive Loop where
  | consume
  | claimer
  deriving DecidableEq, Repr

abbrev TaskId := ConsumerId × Loop

structure ConsumerConfig where
  streamName : String := "tr_event_bus"
  consumerGroup : String := "default_group"
  batchSize : Nat := 10
  claimCount : Nat := 1000
  claimMinIdleMs : Nat := 30000
  zombieIdleMs : Nat := 86400000
  retryPolicy : Option RetryPolicy := none
  idempotency : Bool := false
  parseMode : ParseMode := .flat
  handlers : List (String × HandlerId) := []

def ConsumerConfig.policy (c : ConsumerConfig) : RetryPolicy :=
  c.retryPolicy.getD { maxRetries := 0 }

/-! ## `_resolve_handler` -/

/-- `pattern[:-2]`. -/
def patternPrefix (pattern : String) : String :=
  String.ofList pattern.toList.dropLast.dropLast

def isWildcard (pattern : String) : Bool := endswith pattern ".*"

/-- `none` when it raises: `dict.get` of an unhashable type, or `startswith` of a value that is
not a string. -/
def resolveHandler (handlers : List (String × HandlerId)) : Json → Option (Option HandlerId)
  | .str s =>
    match handlers.lookup s with
    | some h => some (some h)
    | none => some ((handlers.find? (fun p => isWildcard p.1 && startswith s (patternPrefix p.1))).map
        Prod.snd)
  | .lone t =>
    -- the registered names are literals, without surrogates
    some ((handlers.find? (fun p =>
      isWildcard p.1 && (text (patternPrefix p.1)).isPrefixOf t.points)).map Prod.snd)
  | .arr _ | .obj _ => none
  | .null | .bool _ | .num _ _ =>
    if handlers.any (fun p => isWildcard p.1) then none else some none

/-! ## `_process_message` -/

/-- The await a task stands at: the dead-letter `XADD` of a malformed message, `is_processed`, the
handler, `mark_processed`, the `HDEL` of the retry state (after a success or after the dead-letter
`XADD`), `HINCRBY`, `EXPIRE`, the dead-letter `XADD` of an exhausted message, `XACK`. -/
inductive Pc where
  | malformed
  | check (env : EventEnvelope)
  | handle (env : EventEnvelope) (handler : HandlerId)
  | mark (env : EventEnvelope)
  | clear (handlerOk : Bool)
  | increment (exc : String)
  | expire (exc : String) (count : Nat)
  | exhausted (exc : String)
  | ack

/-- How it ends: `is_processed` raises or answers, the handler raises or returns, a Redis command
(or `mark_processed`) ends, `_ack` finds no client and sends nothing. -/
inductive Event where
  | check (result : Option Bool)
  | handler (exc : Option String)
  | redis (reply : Reply)
  | unsent

/-- What the history remembers of a message. -/
inductive Mark where
  | invoked
  | succeeded (eventId : Json)
  | failed
  | skipped (eventId : Json)
  | unmatched
  deriving DecidableEq

inductive Effect where
  | deadLetter (reason : String)
  | mark (eventId : Json)
  | increment
  | clear
  | ack

/-- Where a task goes: to the next await, to the next message of the batch, or out of the batch
with an exception. -/
inductive Next where
  | await (pc : Pc)
  | finished
  | raised

structure Move where
  next : Next
  effect : Option Effect := none
  mark : Option Mark := none

def took (reply : Reply) (e : Effect) : Option Effect := if reply.took then some e else none

def afterCheck (c : ConsumerConfig) (env : EventEnvelope) : Move :=
  match resolveHandler c.handlers env.eventType with
  | none => { next := .raised }
  | some none => { next := .await .ack, mark := some .unmatched }
  | some (some h) => { next := .await (.handle env h), mark := some .invoked }

def begin (c : ConsumerConfig) (lib : Stdlib) (m : MsgId) (fields : Fields) : Move :=
  match parse c.parseMode lib m fields with
  | none => { next := .await .malformed }
  | some env => if c.idempotency then { next := .await (.check env) } else afterCheck c env

/-- `attempts >= max_retries` in `_handle_failure`. -/
def afterFailure (c : ConsumerConfig) (exc : String) (attempts : Int) : Next :=
  if c.policy.maxRetries ≤ attempts then .await (.exhausted exc) else .finished

/-- `retries` is the message's field of the retry hash. -/
def move (c : ConsumerConfig) (retries : Nat) : Pc → Event → Option Move
  | .malformed, .redis reply =>
    -- a failed move to the dead-letter stream is logged, and the message acked all the same
    some { next := .await .ack, effect := took reply (.deadLetter "Malformed message") }
  | .check _, .check none => some { next := .raised }
  | .check env, .check (some true) =>
    some { next := .await .ack, mark := some (.skipped env.eventId) }
  | .check env, .check (some false) => some (afterCheck c env)
  | .handle env _, .handler none =>
    some { next := .await (if c.idempotency then .mark env else .clear true)
           mark := some (.succeeded env.eventId) }
  | .handle _ _, .handler (some exc) =>
    some { next := .await (.increment exc), mark := some .failed }
  | .mark env, .redis reply =>
    some { next := if reply.returned then .await (.clear true) else .raised
           effect := took reply (.mark env.eventId) }
  | .clear _, .redis reply =>
    some { next := if reply.returned then .await .ack else .raised, effect := took reply .clear }
  | .increment exc, .redis reply =>
    some { next := if reply.returned then .await (.expire exc (retries + 1))
                   else afterFailure c exc c.policy.maxRetries
           effect := took reply .increment }
  | .expire exc count, .redis reply =>
    some { next := afterFailure c exc (if reply.returned then count else c.policy.maxRetries) }
  | .exhausted exc, .redis reply =>
    some { next := .await (.clear false)
           effect := took reply (.deadLetter ("Max retries exceeded: " ++ exc)) }
  | .ack, .redis reply =>
    some { next := if reply.returned then .finished else .raised, effect := took reply .ack }
  | .ack, .unsent => some { next := .finished }
  | _, _ => none

/-! ## The group -/

/-- A task between two messages of its batch, or inside one. -/
inductive Task where
  | waiting (batch : List MsgId)
  | busy (m : MsgId) (pc : Pc) (rest : List MsgId)

def Next.task (m : MsgId) (rest : List MsgId) : Next → Task
  | .await pc => .busy m pc rest
  | .finished => .waiting rest
  | .raised => .waiting []

structure DeadLetter where
  originalMessageId : MsgId
  originalStream : String
  consumerGroup : String
  failureReason : String
  timestamp : Nat
  originalData : Fields
  deriving DecidableEq, Repr

structure World where
  now : Nat := 0
  entries : List Fields := []
  cursor : Nat := 0
  pel : PendingList := []
  acked : List MsgId := []
  retries : MsgId → Option Nat := fun _ => none
  dlq : List DeadLetter := []
  processed : List Json := []
  log : List (MsgId × Mark) := []
  tasks : TaskId → Task := fun _ => .waiting []
  /-- `_redis` of the consumer is `None`. -/
  stopped : ConsumerId → Bool := fun _ => false

def World.fields (w : World) (m : MsgId) : Fields := w.entries.getD m []

/-- `RetryStateStore.get`. -/
def World.attempts (w : World) (m : MsgId) : Nat := (w.retries m).getD 0

def World.perform (w : World) (c : ConsumerConfig) (m : MsgId) : Option Effect → World
  | none => w
  | some (.deadLetter reason) =>
    { w with dlq := w.dlq ++ [{ originalMessageId := m
                                originalStream := c.streamName
                                consumerGroup := c.consumerGroup
                                failureReason := reason
                                timestamp := w.now
                                originalData := w.fields m }] }
  | some (.mark eventId) => { w with processed := w.processed ++ [eventId] }
  | some .increment => { w with retries := Function.update w.retries m (some (w.attempts m + 1)) }
  | some .clear => { w with retries := Function.update w.retries m none }
  | some .ack =>
    { w with pel := w.pel.ack m, acked := w.acked ++ [m] }

def World.apply (w : World) (c : ConsumerConfig) (τ : TaskId) (m : MsgId) (rest : List MsgId)
    (mv : Move) : World :=
  { w.perform c m mv.effect with
    log := w.log ++ (mv.mark.map (fun k => (m, k))).toList
    tasks := Function.update w.tasks τ (mv.next.task m rest) }

inductive Act where
  | tick (dt : Nat)
  | append (fields : Fields)
  | read (c : ConsumerId) (n : Nat) (reply : Reply)
  | claim (c : ConsumerId) (ids : List MsgId) (reply : Reply)
  | next (τ : TaskId)
  | event (τ : TaskId) (e : Event)
  | crash (τ : TaskId)
  | expire
  /-- `connect` and `disconnect`; `stop` calls the second while a batch is worked through. -/
  | connect (c : ConsumerId)
  | disconnect (c : ConsumerId)

/-- Entries `XREADGROUP` delivers to `c`: the next `n` of the stream. -/
def World.newIds (w : World) (n : Nat) : List MsgId := (List.range n).map (fun i => w.cursor + i)

/-- The entry is pending and idle long enough for `XAUTOCLAIM`. -/
def World.claimable (w : World) (minIdle : Nat) (m : MsgId) : Bool :=
  w.pel.any (fun p => p.id == m && decide (p.at_ + minIdle ≤ w.now))

/-- `XREADGROUP` of `n` entries. When the answer is lost they are pending and nobody works on
them. -/
def World.deliver (w : World) (c : ConsumerId) (n : Nat) (reply : Reply) : World :=
  { w with
    cursor := w.cursor + n
    pel := w.pel.read (w.newIds n) c w.now
    tasks := Function.update w.tasks (c, .consume)
      (.waiting (if reply.returned then w.newIds n else [])) }

/-- `XAUTOCLAIM` that takes the entries `ids` over, whoever owns them. -/
def World.reclaim (w : World) (c : ConsumerId) (ids : List MsgId) (reply : Reply) : World :=
  { w with
    pel := w.pel.claim ids c w.now
    tasks := Function.update w.tasks (c, .claimer)
      (.waiting (if reply.returned then ids else [])) }

/-- An id is only reported processed if it was marked, and an ack only left out without a client. -/
def World.admits (w : World) (c : ConsumerId) : Pc → Event → Bool
  | .check env, .check (some true) => decide (env.eventId ∈ w.processed)
  | .ack, .unsent => w.stopped c
  | _, _ => true

def step (cfg : ConsumerId → ConsumerConfig) (lib : Stdlib) (w : World) : Act → Option World
  | .tick dt => some { w with now := w.now + dt }
  | .append fields => some { w with entries := w.entries ++ [fields] }
  | .read c n reply =>
    match w.tasks (c, .consume) with
    | .waiting [] =>
      if (reply = .ok → w.stopped c = false) ∧ 0 < n ∧ n ≤ (cfg c).batchSize ∧
          w.cursor + n ≤ w.entries.length then
        if reply.took then some (w.deliver c n reply)
        else some w
      else none
    | _ => none
  | .claim c ids reply =>
    match w.tasks (c, .claimer) with
    | .waiting [] =>
      if (reply = .ok → w.stopped c = false) ∧ ids.Nodup ∧ ids.length ≤ (cfg c).claimCount ∧
          ∀ m ∈ ids, w.claimable (cfg c).claimMinIdleMs m then
        if reply.took then some (w.reclaim c ids reply)
        else some w
      else none
    | _ => none
  | .next τ =>
    match w.tasks τ with
    | .waiting (m :: rest) => some (w.apply (cfg τ.1) τ m rest (begin (cfg τ.1) lib m (w.fields m)))
    | _ => none
  | .event τ e =>
    match w.tasks τ with
    | .busy m pc rest =>
      if w.admits τ.1 pc e then
        match move (cfg τ.1) (w.attempts m) pc e with
        | some mv => some (w.apply (cfg τ.1) τ m rest mv)
        | none => none
      else none
    | _ => none
  | .crash τ => some { w with tasks := Function.update w.tasks τ (.waiting []) }
  | .expire => some { w with retries := fun _ => none }
  | .connect c => some { w with stopped := Function.update w.stopped c false }
  | .disconnect c => some { w with stopped := Function.update w.stopped c true }

end Consumer
end Events
end TrShared
