import TrShared.Events.Consumer
import TrShared.Events.DedupWindow

/-!
# TrShared.Events.ProcessMessage

`_process_message` as one call, with Redis answering and an `InMemoryIdempotencyChecker` behind it, and
the two loops over a batch: that of `_claim_once` and that of `_consume_loop`.

The checker keeps decoded JSON values as keys of a dict, so it depends on Python's `==` and `hash` for
them (`Hashing`); its Redis fallback keeps their text, and the client raises for a key without an
encoding before it sends anything. `none` is an exception that leaves the call.

* `processMessage_runs`: a call is a run of one task of the consumer group, from the message at the
  head of its batch to the next one, or out of the batch when the call raises.
-/

namespace TrShared
namespace Events
namespace Consumer

open Python Machine

/-! ## The checker -/

/-- Decoded JSON values as keys of a `dict`: `key` is the class of a value under `==`, which takes `1`,
`1.0` and `True` for one value, and lists and dicts have no hash. `text` is what an f-string writes,
`none` when that has a lone surrogate: `repr`, which writes the members of a container, escapes them. -/
structure Hashing (κ : Type) where
  key : Json → Option κ
  text : Json → Option String
  unhashable : ∀ v, key v = none ↔ (∃ items, v = .arr items) ∨ ∃ entries, v = .obj entries
  str_key : ∀ {v : Json} {s : String}, key v = key (.str s) → v = .str s
  null_key : ∀ {v : Json}, key v = key .null → v = .null
  str_text : ∀ s, text (.str s) = some s
  text_none : ∀ v, text v = none ↔ ∃ t, v = .lone t

/-- `isinstance(value, str)`. -/
def IsText (v : Json) : Prop := (∃ x, v = .str x) ∨ ∃ t, v = .lone t

/-- Agrees with Python on `None`, booleans, text, lists and dicts, which is all that the concrete
calls use. -/
def demoHashing : Hashing Json where
  key
    | .arr _ | .obj _ => none
    | .bool b => some (.num (if b then 1 else 0) 0)
    | v => some v
  text
    | .str s => some s
    | .lone _ => none
    | .bool b => some (if b then "True" else "False")
    | _ => some "None"
  unhashable v := by cases v <;> simp
  str_key := by rintro v s h; cases v <;> simp_all
  null_key := by rintro v h; cases v <;> simp_all
  str_text _ := rfl
  text_none v := by cases v <;> simp

structure Checker (κ : Type) where
  memory : InMemoryIdempotencyChecker κ := {}
  /-- The ids that have a key `{group}:processed:{event_id}`; `none` without a `redis_url`. -/
  redis : Option (List String) := none

section Checker

variable {κ : Type} [DecidableEq κ]

def Checker.isProcessed (H : Hashing κ) (k : Checker κ) (eventId : Json) : Option Bool :=
  match H.key eventId with
  | none => none
  | some id =>
    if k.memory.isProcessed id then some true
    else
      match k.redis with
      | some texts => (H.text eventId).map (fun key => decide (key ∈ texts))
      | none => some false

/-- Whether it returns, and the checker after it. -/
def Checker.markProcessed (H : Hashing κ) (k : Checker κ) (eventId : Json) : Bool × Checker κ :=
  match H.key eventId with
  | none => (false, k)
  | some id =>
    let k := { k with memory := k.memory.markProcessed id }
    match k.redis with
    | none => (true, k)
    | some texts =>
      match H.text eventId with
      | none => (false, k)
      | some key => (true, { k with redis := some (texts ++ [key]) })

/-- What the checker could look up it can mark. -/
theorem Checker.markProcessed_returns {H : Hashing κ} {k : Checker κ} {eventId : Json}
    (h : k.isProcessed H eventId = some false) : (k.markProcessed H eventId).1 = true := by
  simp only [Checker.isProcessed] at h
  simp only [Checker.markProcessed]
  split at h
  · cases h
  · split at h
    · cases h
    · cases hr : k.redis with
      | none => simp
      | some texts =>
        rw [hr] at h
        obtain ⟨key, hkey, -⟩ := Option.map_eq_some_iff.1 h
        simp [hkey]

/-- A checker has its Redis fallback from the beginning, or never. -/
theorem Checker.markProcessed_fallback (H : Hashing κ) (k : Checker κ) (eventId : Json) :
    (k.markProcessed H eventId).2.redis.isSome = k.redis.isSome := by
  simp only [Checker.markProcessed]
  split
  · rfl
  · split
    · rfl
    · rename_i texts hr
      split
      · rfl
      · simp [hr]

end Checker

/-! ## One message -/

/-- A message of a batch, and what its handler raises if one is called (`none` when it returns). -/
structure Delivery where
  id : MsgId
  data : Fields
  exc : Option String := none

structure State (κ : Type) where
  world : World := {}
  checker : Checker κ := {}

section State

variable {κ : Type}

def World.note (w : World) (m : MsgId) (k : Mark) : World := { w with log := w.log ++ [(m, k)] }

/-- `DeadLetterHandler.move(message_id, data, reason)`. -/
def World.moveToDlq (w : World) (c : ConsumerConfig) (d : Delivery) (reason : String) : World :=
  { w with dlq := w.dlq ++ [{ originalMessageId := d.id
                              originalStream := c.streamName
                              consumerGroup := c.consumerGroup
                              failureReason := reason
                              timestamp := w.now
                              originalData := d.data }] }

def State.note (s : State κ) (m : MsgId) (k : Mark) : State κ :=
  { s with world := s.world.note m k }

def State.moveToDlq (s : State κ) (c : ConsumerConfig) (d : Delivery) (reason : String) : State κ :=
  { s with world := s.world.moveToDlq c d reason }

def State.perform (s : State κ) (c : ConsumerConfig) (m : MsgId) (e : Effect) : State κ :=
  { s with world := s.world.perform c m (some e) }

/-- `_handle_failure`. -/
def handleFailure (c : ConsumerConfig) (s : State κ) (d : Delivery) (exc : String) :
    (Bool × Bool) × State κ :=
  let attempts := s.world.attempts d.id + 1
  let s := s.perform c d.id .increment
  if c.policy.maxRetries ≤ (attempts : Int) then
    ((false, true),
      (s.moveToDlq c d ("Max retries exceeded: " ++ exc)).perform c d.id .clear)
  else ((false, false), s)

/-- It writes to Redis only. -/
theorem handleFailure_frame (c : ConsumerConfig) (s : State κ) (d : Delivery) (exc : String) :
    (handleFailure c s d exc).2.world.log = s.world.log ∧
      (handleFailure c s d exc).2.checker = s.checker := by
  simp only [handleFailure]
  split
  · exact ⟨rfl, rfl⟩
  · exact ⟨rfl, rfl⟩

variable [DecidableEq κ]

/-- From the end of the handler that returned. -/
def afterSuccess (c : ConsumerConfig) (H : Hashing κ) (s : State κ) (d : Delivery)
    (env : EventEnvelope) : Option (Bool × Bool) × State κ :=
  if c.idempotency then
    match s.checker.markProcessed H env.eventId with
    | (false, checker) => (none, { s with checker := checker })
    | (true, checker) =>
      let s := { s with checker := checker }.perform c d.id (.mark env.eventId)
      (some (true, true), s.perform c d.id .clear)
  else (some (true, true), s.perform c d.id .clear)

/-- From `_resolve_handler` on. -/
def dispatch (c : ConsumerConfig) (H : Hashing κ) (s : State κ) (d : Delivery)
    (env : EventEnvelope) : Option (Bool × Bool) × State κ :=
  match resolveHandler c.handlers env.eventType with
  | none => (none, s)
  | some none => (some (true, true), s.note d.id .unmatched)
  | some (some _) =>
    let s := s.note d.id .invoked
    match d.exc with
    | some exc =>
      let (pair, s) := handleFailure c (s.note d.id .failed) d exc
      (some pair, s)
    | none => afterSuccess c H (s.note d.id (.succeeded env.eventId)) d env

/-- `_process_message`: `(handler_ok, should_ack)`. -/
def processMessage (c : ConsumerConfig) (lib : Stdlib) (H : Hashing κ) (s : State κ)
    (d : Delivery) : Option (Bool × Bool) × State κ :=
  match parse c.parseMode lib d.id d.data with
  | none => (some (true, true), s.moveToDlq c d "Malformed message")
  | some env =>
    if c.idempotency then
      match s.checker.isProcessed H env.eventId with
      | none => (none, s)
      | some true => (some (true, true), s.note d.id (.skipped env.eventId))
      | some false => dispatch c H s d env
    else dispatch c H s d env

/-! ## A batch -/

/-- The loop over the messages of a batch; `false` when an exception ends it. -/
def processAll (c : ConsumerConfig) (lib : Stdlib) (H : Hashing κ) (s : State κ) :
    List Delivery → Bool × State κ
  | [] => (true, s)
  | d :: rest =>
    match processMessage c lib H s d with
    | (none, s) => (false, s)
    | (some (_, shouldAck), s) =>
      processAll c lib H (if shouldAck then s.perform c d.id .ack else s) rest

/-- `_claim_once`, after `XAUTOCLAIM`: the number of entries. -/
def claimOnce (c : ConsumerConfig) (lib : Stdlib) (H : Hashing κ) (s : State κ)
    (claimed : List Delivery) : Option Nat × State κ :=
  match processAll c lib H s claimed with
  | (true, s) => (some claimed.length, s)
  | (false, s) => (none, s)

/-- One turn of `_consume_loop`, after `XREADGROUP`: the messages by stream. -/
def consumeBatch (c : ConsumerConfig) (lib : Stdlib) (H : Hashing κ) (s : State κ) :
    List (String × List Delivery) → Bool × State κ
  | [] => (true, s)
  | (_, messages) :: rest =>
    match processAll c lib H s messages with
    | (true, s) => consumeBatch c lib H s rest
    | (false, s) => (false, s)

theorem processAll_append (c : ConsumerConfig) (lib : Stdlib) (H : Hashing κ) (s : State κ)
    (batch rest : List Delivery) : processAll c lib H s (batch ++ rest) =
      match processAll c lib H s batch with
      | (true, s) => processAll c lib H s rest
      | (false, s) => (false, s) := by
  induction batch generalizing s with
  | nil => rfl
  | cons d batch ih =>
    rw [List.cons_append, processAll, processAll]
    rcases processMessage c lib H s d with ⟨_ | ⟨ok, shouldAck⟩, s₁⟩
    · rfl
    · exact ih _

/-- The streams are worked through one after the other. -/
theorem consumeBatch_eq (c : ConsumerConfig) (lib : Stdlib) (H : Hashing κ) (s : State κ)
    (messages : List (String × List Delivery)) :
    consumeBatch c lib H s messages = processAll c lib H s (messages.flatMap Prod.snd) := by
  induction messages generalizing s with
  | nil => rfl
  | cons p messages ih =>
    obtain ⟨stream, batch⟩ := p
    rw [consumeBatch, List.flatMap_cons, processAll_append]
    rcases processAll c lib H s batch with ⟨_ | _, s₁⟩
    · rfl
    · exact ih s₁

end State

/-! ## The call as a run of a task -/

section Runs

variable {cfg : ConsumerId → ConsumerConfig} {lib : Stdlib} {τ : TaskId} {m : MsgId}
  {rest : List MsgId} {w : World}

/-- The group with this task where it says. -/
def World.park (w : World) (τ : TaskId) (t : Task) : World :=
  { w with tasks := Function.update w.tasks τ t }

def World.noted (w : World) (m : MsgId) : Option Mark → World
  | none => w
  | some k => w.note m k

theorem apply_park (c : ConsumerConfig) (t : Task) (mv : Move) :
    (w.park τ t).apply c τ m rest mv =
      ((w.perform c m mv.effect).noted m mv.mark).park τ (mv.next.task m rest) := by
  obtain ⟨next, effect, mark⟩ := mv
  rcases effect with _ | (_ | _ | _ | _ | _) <;> rcases mark with _ | k <;>
    simp [World.apply, World.park, World.perform, World.noted, World.note, World.fields,
      World.attempts]

theorem step_next {fields : Fields} (hf : w.fields m = fields) :
    step cfg lib (w.park τ (.waiting (m :: rest))) (.next τ) =
      some (((w.perform (cfg τ.1) m (begin (cfg τ.1) lib m fields).effect).noted m
        (begin (cfg τ.1) lib m fields).mark).park τ ((begin (cfg τ.1) lib m fields).next.task m rest)) := by
  have hfields : (w.park τ (.waiting (m :: rest))).fields m = fields := hf
  have htask : (w.park τ (.waiting (m :: rest))).tasks τ = .waiting (m :: rest) := by
    simp [World.park]
  simp only [step, htask, hfields, apply_park]

theorem step_event {pc : Pc} {e : Event} {mv : Move} (ha : w.admits τ.1 pc e = true)
    (hm : move (cfg τ.1) (w.attempts m) pc e = some mv) :
    step cfg lib (w.park τ (.busy m pc rest)) (.event τ e) =
      some (((w.perform (cfg τ.1) m mv.effect).noted m mv.mark).park τ (mv.next.task m rest)) := by
  have htask : (w.park τ (.busy m pc rest)).tasks τ = .busy m pc rest := by simp [World.park]
  have hadmits : (w.park τ (.busy m pc rest)).admits τ.1 pc e = true := ha
  have hmove : move (cfg τ.1) ((w.park τ (.busy m pc rest)).attempts m) pc e = some mv := hm
  simp only [step, htask, hadmits, hmove, if_true, apply_park]

/-- The task gets from one place to the other, whatever else the group does not do. -/
def Reaches (cfg : ConsumerId → ConsumerConfig) (lib : Stdlib) (w w' : World) : Prop :=
  ∃ as, Run (step cfg lib) (fun _ _ => True) w as w'

theorem Reaches.head {w₁ w₂ w₃ : World} {a : Act} (h : step cfg lib w₁ a = some w₂)
    (hrest : Reaches cfg lib w₂ w₃) : Reaches cfg lib w₁ w₃ := by
  obtain ⟨as, has⟩ := hrest
  exact ⟨a :: as, .cons trivial h has⟩

theorem Reaches.refl (w : World) : Reaches cfg lib w w := ⟨[], .nil⟩

/-- `XACK`, and the task is done with the message. -/
theorem reaches_ack : Reaches cfg lib (w.park τ (.busy m .ack rest))
    ((w.perform (cfg τ.1) m (some .ack)).park τ (.waiting rest)) := by
  refine .head (step_event (e := .redis .ok) rfl rfl) ?_
  exact .refl _

/-- `HDEL` of the retry state, then `XACK`. -/
theorem reaches_clear (ok : Bool) : Reaches cfg lib (w.park τ (.busy m (.clear ok) rest))
    (((w.perform (cfg τ.1) m (some .clear)).perform (cfg τ.1) m (some .ack)).park τ
      (.waiting rest)) := by
  refine .head (step_event (e := .redis .ok) rfl rfl) ?_
  exact reaches_ack

/-- Where a task with this result goes on: the message is acked if the result says so. -/
def settled {κ : Type} (c : ConsumerConfig) (τ : TaskId) (m : MsgId) (rest : List MsgId) :
    Option (Bool × Bool) × State κ → World
  | (none, s) => s.world.park τ (.waiting [])
  | (some (_, true), s) => (s.world.perform c m (some .ack)).park τ (.waiting rest)
  | (some (_, false), s) => s.world.park τ (.waiting rest)

variable {κ : Type} {s : State κ} {d : Delivery}

/-- `HINCRBY` and `EXPIRE`, and for the last attempt the dead-letter stream. -/
theorem reaches_failure (exc : String) (hd : d.data = s.world.fields d.id) :
    Reaches cfg lib (s.world.park τ (.busy d.id (.increment exc) rest))
      (settled (cfg τ.1) τ d.id rest
        (some (handleFailure (cfg τ.1) s d exc).1, (handleFailure (cfg τ.1) s d exc).2)) := by
  refine .head (step_event (e := .redis .ok) rfl rfl) ?_
  refine .head (step_event (e := .redis .ok) rfl rfl) ?_
  by_cases hmax : (cfg τ.1).policy.maxRetries ≤ ((s.world.attempts d.id + 1 : Nat) : Int)
  · simp only [handleFailure, afterFailure, Reply.returned, if_true, if_pos hmax]
    refine .head (step_event (e := .redis .ok) rfl rfl) ?_
    rw [State.moveToDlq, World.moveToDlq, hd]
    exact reaches_clear false
  · simp only [handleFailure, afterFailure, Reply.returned, if_true, if_neg hmax]
    exact .refl _

variable [DecidableEq κ]

theorem reaches_success (H : Hashing κ) {env : EventEnvelope} {h : HandlerId}
    (hmark : (cfg τ.1).idempotency = true → (s.checker.markProcessed H env.eventId).1 = true) :
    Reaches cfg lib (s.world.park τ (.busy d.id (.handle env h) rest))
      (settled (cfg τ.1) τ d.id rest
        (afterSuccess (cfg τ.1) H (s.note d.id (.succeeded env.eventId)) d env)) := by
  refine .head (step_event (e := .handler none) rfl rfl) ?_
  cases hi : (cfg τ.1).idempotency with
  | false =>
    simp only [afterSuccess, hi]
    exact reaches_clear true
  | true =>
    have hreturned := hmark hi
    rcases hk : s.checker.markProcessed H env.eventId with ⟨returned, checker⟩
    rw [hk] at hreturned
    obtain rfl : returned = true := hreturned
    simp only [afterSuccess, hi, State.note, hk]
    refine .head (step_event (e := .redis .ok) rfl rfl) ?_
    exact reaches_clear true

/-- From the step that resolves the handler. -/
theorem reaches_dispatch (H : Hashing κ) {env : EventEnvelope} (hd : d.data = s.world.fields d.id)
    (hmark : (cfg τ.1).idempotency = true → (s.checker.markProcessed H env.eventId).1 = true) :
    Reaches cfg lib
      (((s.world.perform (cfg τ.1) d.id (afterCheck (cfg τ.1) env).effect).noted d.id
        (afterCheck (cfg τ.1) env).mark).park τ ((afterCheck (cfg τ.1) env).next.task d.id rest))
      (settled (cfg τ.1) τ d.id rest (dispatch (cfg τ.1) H s d env)) := by
  cases hr : resolveHandler (cfg τ.1).handlers env.eventType with
  | none =>
    simp only [afterCheck, dispatch, hr]
    exact .refl _
  | some found =>
    cases found with
    | none =>
      simp only [afterCheck, dispatch, hr]
      exact reaches_ack
    | some h =>
      cases hexc : d.exc with
      | none =>
        simp only [afterCheck, dispatch, hr, hexc]
        exact reaches_success (s := s.note d.id .invoked) H hmark
      | some exc =>
        simp only [afterCheck, dispatch, hr, hexc]
        refine .head (step_event (e := .handler (some exc)) rfl rfl) ?_
        exact reaches_failure (s := (s.note d.id .invoked).note d.id .failed) exc hd

/-- A call of `_process_message` and the `XACK` after it, by a task with the message at the head of its
batch. An id that the checker reports is one the group has marked. -/
theorem processMessage_runs (cfg : ConsumerId → ConsumerConfig) (lib : Stdlib) (H : Hashing κ)
    (τ : TaskId) (s : State κ) (d : Delivery) (rest : List MsgId)
    (hd : d.data = s.world.fields d.id)
    (hmarked : ∀ eventId, s.checker.isProcessed H eventId = some true →
      eventId ∈ s.world.processed) :
    Reaches cfg lib (s.world.park τ (.waiting (d.id :: rest)))
      (settled (cfg τ.1) τ d.id rest (processMessage (cfg τ.1) lib H s d)) := by
  refine .head (step_next hd.symm) ?_
  cases henv : parse (cfg τ.1).parseMode lib d.id d.data with
  | none =>
    simp only [begin, processMessage, henv]
    refine .head (step_event (e := .redis .ok) rfl rfl) ?_
    rw [State.moveToDlq, World.moveToDlq, hd]
    exact reaches_ack
  | some env =>
    cases hi : (cfg τ.1).idempotency with
    | false =>
      simp only [begin, processMessage, henv, hi]
      refine reaches_dispatch H hd ?_
      intro h
      rw [hi] at h
      cases h
    | true =>
      simp only [begin, processMessage, henv, hi, if_true]
      cases hp : s.checker.isProcessed H env.eventId with
      | none =>
        refine .head (step_event (e := .check none) rfl rfl) ?_
        exact .refl _
      | some known =>
        cases known with
        | true =>
          refine .head (step_event (e := .check (some true)) ?_ rfl) reaches_ack
          exact decide_eq_true (hmarked env.eventId hp)
        | false =>
          refine .head (step_event (e := .check (some false)) rfl rfl) ?_
          refine reaches_dispatch H hd ?_
          intro _
          exact Checker.markProcessed_returns hp

end Runs

end Consumer
end Events
end TrShared
