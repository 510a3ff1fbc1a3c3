import TrShared.Events.ProcessMessage

/-!
# TrShared.Events.PoisonEntry

Entries that make `_process_message` raise. Only parsing and the handler are guarded: the lookup of a
duplicate and the lookup of the handler run on decoded values whose types nothing has checked. In
payload mode these are any JSON.

* `poison_free_iff`: a message gets its `(handler_ok, should_ack)`, and a batch is worked through to its
  end with every entry acked or its attempt counted, exactly when no entry is such a one.
* `unhashable_id_starves_batch`: one that is ends the batch, and what comes after it is not looked at.
-/

namespace TrShared
namespace Events
namespace Consumer

open Python Machine

variable {κ : Type} [DecidableEq κ] {c : ConsumerConfig} {lib : Stdlib} {H : Hashing κ} {s s' : State κ}
  {d : Delivery} {pair : Bool × Bool} {fallback : Bool}

/-! ## Harmless entries -/

/-- Neither a list nor an object. -/
def Scalar (v : Json) : Prop := ¬ ((∃ items, v = .arr items) ∨ ∃ entries, v = .obj entries)

/-- An id the checker can look up: a key of a dict, and for the Redis fallback a text that has an
encoding, unless it is none at all. -/
def Lookable (fallback : Bool) (v : Json) : Prop := Scalar v ∧ (fallback = true → ∀ t, v ≠ .lone t)

/-- The entry does not parse; or its id can be looked up, and its type is text, or at least a key of a
dict with no wildcard registered. -/
def Harmless (c : ConsumerConfig) (lib : Stdlib) (fallback : Bool) (entry : MsgId × Fields) : Prop :=
  ∀ env, parse c.parseMode lib entry.1 entry.2 = some env →
    (c.idempotency = true → Lookable fallback env.eventId) ∧ Scalar env.eventType ∧
      (IsText env.eventType ∨ ∀ p ∈ c.handlers, isWildcard p.1 = false)

/-- A flat entry has text in both places. -/
theorem harmless_of_flat (hmode : c.parseMode = .flat) (entry : MsgId × Fields) :
    Harmless c lib fallback entry := by
  intro env henv
  simp only [parse, hmode, EventEnvelope.fromFlat] at henv
  split at henv
  · cases henv
    exact ⟨fun _ => by simp [Lookable, Scalar], by simp [Scalar], .inl (.inl ⟨_, rfl⟩)⟩
  · cases henv

omit [DecidableEq κ] in
theorem key_isSome_iff (v : Json) : (H.key v).isSome = true ↔ Scalar v := by
  rw [Scalar, ← H.unhashable v, Option.isSome_iff_ne_none]

/-- The lookup raises only for an id that cannot be looked up. -/
theorem isProcessed_isSome {k : Checker κ} {v : Json} (h : Lookable k.redis.isSome v) :
    k.isProcessed H v ≠ none := by
  obtain ⟨hscalar, hlone⟩ := h
  obtain ⟨id, hid⟩ := Option.isSome_iff_exists.1 ((key_isSome_iff (H := H) v).2 hscalar)
  simp only [Checker.isProcessed, hid]
  split
  · simp
  · cases hr : k.redis with
    | none => simp
    | some texts =>
      have htext : H.text v ≠ none := by
        rw [ne_eq, H.text_none]
        rintro ⟨t, rfl⟩
        exact hlone (by rw [hr]; rfl) t rfl
      simpa using htext

/-- A new checker, with or without its Redis fallback. -/
def Checker.new (fallback : Bool) : Checker κ :=
  { memory := { ids := .empty }, redis := if fallback then some [] else none }

omit [DecidableEq κ] in
theorem Checker.new_redis (fallback : Bool) :
    (Checker.new fallback : Checker κ).redis.isSome = fallback := by
  cases fallback <;> rfl

/-- Where nothing is known it raises for every one of them. -/
theorem isProcessed_new_raises {v : Json} (hv : ¬ Lookable fallback v) :
    (Checker.new fallback : Checker κ).isProcessed H v = none := by
  cases hkey : H.key v with
  | none => simp [Checker.isProcessed, hkey]
  | some id =>
    have hscalar : Scalar v := by rw [← key_isSome_iff (H := H), hkey]; rfl
    simp only [Lookable, hscalar, true_and, Classical.not_imp, not_forall, not_not] at hv
    obtain ⟨rfl, hlone⟩ := hv
    have hunknown : (({ ids := .empty } : InMemoryIdempotencyChecker κ).isProcessed id) = false := rfl
    simp [Checker.isProcessed, Checker.new, hkey, hunknown, (H.text_none v).2 hlone]

theorem isProcessed_new {v : Json} (hv : Lookable fallback v) :
    (Checker.new fallback : Checker κ).isProcessed H v = some false := by
  obtain ⟨id, hkey⟩ := Option.isSome_iff_exists.1 ((key_isSome_iff (H := H) v).2 hv.1)
  have hunknown : (({ ids := .empty } : InMemoryIdempotencyChecker κ).isProcessed id) = false := rfl
  have hreturns : (Checker.new fallback : Checker κ).isProcessed H v ≠ none :=
    isProcessed_isSome (by rw [Checker.new_redis]; exact hv)
  cases fallback with
  | false => simp [Checker.isProcessed, Checker.new, hkey, hunknown]
  | true =>
    simp only [Checker.isProcessed, Checker.new, hkey, hunknown] at hreturns ⊢
    cases htext : H.text v with
    | none => simp [htext] at hreturns
    | some key => simp

theorem resolveHandler_none_iff (handlers : List (String × HandlerId)) (v : Json) :
    resolveHandler handlers v = none ↔
      ¬ (Scalar v ∧ (IsText v ∨ ∀ p ∈ handlers, isWildcard p.1 = false)) := by
  cases v with
  | str t =>
    simp only [resolveHandler, Scalar, IsText]
    split <;> simp
  | lone t => simp [resolveHandler, Scalar, IsText]
  | arr items => simp [resolveHandler, Scalar]
  | obj entries => simp [resolveHandler, Scalar]
  | null => simp [resolveHandler, Scalar, IsText]
  | bool b => simp [resolveHandler, Scalar, IsText]
  | num mantissa exponent => simp [resolveHandler, Scalar, IsText]

/-! ## One message -/

def Delivery.entry (d : Delivery) : MsgId × Fields := (d.id, d.data)

omit [DecidableEq κ] in
/-- An attempt that is not the last one is counted. -/
theorem handleFailure_kept {exc : String} (h : handleFailure c s d exc = (pair, s'))
    (hack : pair.2 = false) : s'.world.attempts d.id = s.world.attempts d.id + 1 := by
  simp only [handleFailure] at h
  split at h
  · cases h; cases hack
  · cases h
    simp [State.perform, World.perform, World.attempts]

theorem afterSuccess_isSome {env : EventEnvelope}
    (hid : c.idempotency = true → (s.checker.markProcessed H env.eventId).1 = true) :
    ∃ s', afterSuccess c H s d env = (some (true, true), s') := by
  simp only [afterSuccess]
  split
  · rename_i hi
    have hreturned := hid hi
    split
    · rename_i checker hk
      rw [hk] at hreturned
      cases hreturned
    · exact ⟨_, rfl⟩
  · exact ⟨_, rfl⟩

/-- From the handler on: a type that resolves gives a pair, and one that is left unacked is counted. -/
theorem dispatch_pair {env : EventEnvelope}
    (hid : c.idempotency = true → (s.checker.markProcessed H env.eventId).1 = true)
    (htype : resolveHandler c.handlers env.eventType ≠ none) :
    ∃ pair s', dispatch c H s d env = (some pair, s') ∧
      (pair.2 = false → s'.world.attempts d.id = s.world.attempts d.id + 1) := by
  simp only [dispatch]
  split
  · exact absurd ‹_› htype
  · exact ⟨_, _, rfl, fun h => by cases h⟩
  · split
    · rename_i exc _
      refine ⟨_, _, rfl, ?_⟩
      intro hack
      exact handleFailure_kept (s := (s.note d.id .invoked).note d.id .failed) rfl hack
    · obtain ⟨s', hs'⟩ := afterSuccess_isSome (H := H) (d := d)
        (s := (s.note d.id .invoked).note d.id (.succeeded env.eventId)) hid
      exact ⟨_, s', hs', fun h => by cases h⟩

/-- A harmless entry gets its pair in every state and whatever its handler does. -/
theorem processMessage_pair (h : Harmless c lib s.checker.redis.isSome d.entry) :
    ∃ pair s', processMessage c lib H s d = (some pair, s') ∧
      (pair.2 = false → s'.world.attempts d.id = s.world.attempts d.id + 1) := by
  cases henv : parse c.parseMode lib d.id d.data with
  | none =>
    simp only [processMessage, henv]
    exact ⟨_, _, rfl, fun h => by cases h⟩
  | some env =>
    obtain ⟨hid, hscalar, htext⟩ := h env henv
    have htype : resolveHandler c.handlers env.eventType ≠ none := by
      rw [ne_eq, resolveHandler_none_iff, not_not]
      exact ⟨hscalar, htext⟩
    simp only [processMessage, henv]
    split
    · rename_i hi
      cases hp : s.checker.isProcessed H env.eventId with
      | none => exact absurd hp (isProcessed_isSome (hid hi))
      | some known =>
        cases known with
        | true => exact ⟨_, _, rfl, fun h => by cases h⟩
        | false => exact dispatch_pair (fun _ => Checker.markProcessed_returns hp) htype
    · rename_i hi
      exact dispatch_pair (fun h => absurd h hi) htype

/-- An entry that is not harmless raises where the checker knows nothing. -/
theorem processMessage_raises (hs : s.checker = .new fallback)
    (h : ¬ Harmless c lib fallback d.entry) : (processMessage c lib H s d).1 = none := by
  simp only [Harmless, not_forall] at h
  obtain ⟨env, henv, hnot⟩ := h
  have henv' : parse c.parseMode lib d.id d.data = some env := henv
  have hdispatch : (c.idempotency = true → Lookable fallback env.eventId) →
      (dispatch c H s d env).1 = none := by
    intro hid
    have htype : resolveHandler c.handlers env.eventType = none := by
      rw [resolveHandler_none_iff]
      exact fun hok => hnot ⟨hid, hok.1, hok.2⟩
    simp only [dispatch, htype]
  simp only [processMessage, henv', hs]
  split
  · rename_i hi
    by_cases hv : Lookable fallback env.eventId
    · rw [isProcessed_new hv]
      exact hdispatch (fun _ => hv)
    · rw [isProcessed_new_raises hv]
  · rename_i hi
    exact hdispatch (fun h => absurd h hi)

/-- What `_process_message` keeps of the state is what the part behind the duplicate check keeps. -/
theorem processMessage_keeps (I : State κ → Prop) (hmove : I (s.moveToDlq c d "Malformed message"))
    (hskip : ∀ id, I (s.note d.id (.skipped id))) (h : I s) (hdispatch : ∀ env, I (dispatch c H s d env).2) :
    I (processMessage c lib H s d).2 := by
  simp only [processMessage]
  split
  · exact hmove
  · rename_i env _
    split
    · split
      · exact h
      · exact hskip env.eventId
      · exact hdispatch env
    · exact hdispatch env

/-- A handler that raises leaves the checker as it is. -/
theorem processMessage_checker {exc : String} (hexc : d.exc = some exc) :
    (processMessage c lib H s d).2.checker = s.checker := by
  have hdispatch : ∀ env, (dispatch c H s d env).2.checker = s.checker := by
    intro env
    simp only [dispatch, hexc]
    split
    · rfl
    · rfl
    · exact (handleFailure_frame c _ d exc).2
  exact processMessage_keeps (fun s' => s'.checker = s.checker) rfl (fun _ => rfl) rfl hdispatch

/-- No call takes the fallback away or adds it. -/
theorem processMessage_fallback :
    (processMessage c lib H s d).2.checker.redis.isSome = s.checker.redis.isSome := by
  have hsuccess : ∀ (s : State κ) env,
      (afterSuccess c H s d env).2.checker.redis.isSome = s.checker.redis.isSome := by
    intro s env
    have hmark := s.checker.markProcessed_fallback H env.eventId
    simp only [afterSuccess]
    split
    · split
      · rename_i hk
        rw [hk] at hmark
        exact hmark
      · rename_i hk
        rw [hk] at hmark
        exact hmark
    · rfl
  have hdispatch : ∀ env, (dispatch c H s d env).2.checker.redis.isSome = s.checker.redis.isSome := by
    intro env
    simp only [dispatch]
    split
    · rfl
    · rfl
    · split
      · rw [(handleFailure_frame c _ d _).2]
        rfl
      · exact hsuccess _ env
  exact processMessage_keeps (fun s' => s'.checker.redis.isSome = s.checker.redis.isSome) rfl
    (fun _ => rfl) rfl hdispatch

/-! ## A batch -/

/-- Every message in turn has its pair, and is acked or its attempt counted. -/
inductive Processed (c : ConsumerConfig) (lib : Stdlib) (H : Hashing κ) :
    State κ → List Delivery → State κ → Prop where
  | nil {s : State κ} : Processed c lib H s [] s
  | acked {s s₁ s' : State κ} {d : Delivery} {rest : List Delivery} {ok : Bool} :
      processMessage c lib H s d = (some (ok, true), s₁) →
      Processed c lib H (s₁.perform c d.id .ack) rest s' → Processed c lib H s (d :: rest) s'
  | kept {s s₁ s' : State κ} {d : Delivery} {rest : List Delivery} {ok : Bool} :
      processMessage c lib H s d = (some (ok, false), s₁) →
      s₁.world.attempts d.id = s.world.attempts d.id + 1 →
      Processed c lib H s₁ rest s' → Processed c lib H s (d :: rest) s'

theorem processAll_processed {batch : List Delivery} (hs : s.checker.redis.isSome = fallback)
    (h : ∀ d ∈ batch, Harmless c lib fallback d.entry) :
    ∃ s', processAll c lib H s batch = (true, s') ∧ Processed c lib H s batch s' := by
  induction batch generalizing s with
  | nil => exact ⟨s, rfl, .nil⟩
  | cons d batch ih =>
    obtain ⟨⟨ok, shouldAck⟩, s₁, hd, hcount⟩ :=
      processMessage_pair (s := s) (H := H) (hs ▸ h d (by simp))
    have hs₁ : s₁.checker.redis.isSome = fallback := by
      have hkeep : (processMessage c lib H s d).2.checker.redis.isSome = s.checker.redis.isSome :=
        processMessage_fallback
      rw [hd] at hkeep
      exact hkeep.trans hs
    have hrest := fun s hs => ih (s := s) hs (fun d' hd' => h d' (by simp [hd']))
    rw [processAll, hd]
    cases shouldAck with
    | true =>
      obtain ⟨s', hall, hproc⟩ := hrest (s₁.perform c d.id .ack) hs₁
      exact ⟨s', hall, .acked hd hproc⟩
    | false =>
      obtain ⟨s', hall, hproc⟩ := hrest s₁ hs₁
      exact ⟨s', hall, .kept hd (hcount rfl) hproc⟩

/-- With handlers that all raise nothing is ever marked, so the entry is reached, if no other one ends
the batch before it. -/
theorem processAll_raises {batch : List Delivery} (hs : s.checker = .new fallback)
    (hexc : ∀ d ∈ batch, ∃ exc, d.exc = some exc)
    (h : ∃ d ∈ batch, ¬ Harmless c lib fallback d.entry) : (processAll c lib H s batch).1 = false := by
  induction batch generalizing s with
  | nil => obtain ⟨d, hd, _⟩ := h; cases hd
  | cons d batch ih =>
    obtain ⟨exc, hd⟩ := hexc d (by simp)
    have hchecker : (processMessage c lib H s d).2.checker = s.checker := processMessage_checker hd
    rw [processAll]
    rcases hp : processMessage c lib H s d with ⟨_ | ⟨ok, shouldAck⟩, s₁⟩
    · rfl
    · rw [hp, hs] at hchecker
      refine ih ?_ (fun d' hd' => hexc d' (by simp [hd'])) ?_
      · cases shouldAck <;> exact hchecker
      · obtain ⟨d', hd', hharm⟩ := h
        rcases List.mem_cons.1 hd' with rfl | hd'
        · have := processMessage_raises (H := H) hs hharm
          rw [hp] at this
          cases this
        · exact ⟨d', hd', hharm⟩

/-! ## The law -/

/-- `_process_message` returns, in every state of a group whose checker has a Redis fallback or has
none, and whatever the handler does. -/
def GetsPair (c : ConsumerConfig) (lib : Stdlib) (H : Hashing κ) (fallback : Bool)
    (entry : MsgId × Fields) : Prop :=
  ∀ s exc, s.checker.redis.isSome = fallback →
    ∃ pair s', processMessage c lib H s ⟨entry.1, entry.2, exc⟩ = (some pair, s')

/-- Both loops get through a batch of these entries, whatever the handlers do. -/
def WorkedThrough (c : ConsumerConfig) (lib : Stdlib) (H : Hashing κ) (fallback : Bool)
    (entries : List (MsgId × Fields)) : Prop :=
  ∀ s batch, s.checker.redis.isSome = fallback → batch.map Delivery.entry = entries →
    (∃ s', claimOnce c lib H s batch = (some batch.length, s') ∧ Processed c lib H s batch s') ∧
    ∀ messages, messages.flatMap Prod.snd = batch →
      ∃ s', consumeBatch c lib H s messages = (true, s') ∧ Processed c lib H s batch s'

theorem getsPair_iff (entry : MsgId × Fields) :
    GetsPair c lib H fallback entry ↔ Harmless c lib fallback entry := by
  constructor
  · intro h
    by_contra hharm
    obtain ⟨pair, s', hp⟩ := h { checker := .new fallback } none (Checker.new_redis fallback)
    have hnone := processMessage_raises (H := H) (s := { checker := .new fallback })
      (d := ⟨entry.1, entry.2, none⟩) rfl hharm
    rw [hp] at hnone
    cases hnone
  · intro h s exc hs
    obtain ⟨pair, s', hp, -⟩ :=
      processMessage_pair (s := s) (H := H) (d := ⟨entry.1, entry.2, exc⟩) (hs ▸ h)
    exact ⟨pair, s', hp⟩

theorem workedThrough_iff (entries : List (MsgId × Fields)) :
    WorkedThrough c lib H fallback entries ↔ ∀ e ∈ entries, Harmless c lib fallback e := by
  constructor
  · intro h e he
    by_contra hharm
    let batch : List Delivery := entries.map (fun e => ⟨e.1, e.2, some "handler failed"⟩)
    have hmap : batch.map Delivery.entry = entries := by
      simp [batch, Delivery.entry, Function.comp_def]
    obtain ⟨s', hclaim, -⟩ := (h { checker := .new fallback } batch (Checker.new_redis fallback) hmap).1
    have hraises : (processAll c lib H { checker := .new fallback } batch).1 = false := by
      refine processAll_raises rfl ?_ ⟨⟨e.1, e.2, some "handler failed"⟩, ?_, hharm⟩
      · intro d hd
        obtain ⟨e', _, rfl⟩ := List.mem_map.1 hd
        exact ⟨_, rfl⟩
      · exact List.mem_map.2 ⟨e, he, rfl⟩
    rcases hall : processAll c lib H { checker := .new fallback } batch with ⟨_ | _, s₁⟩
    · rw [claimOnce, hall] at hclaim
      cases hclaim
    · rw [hall] at hraises
      cases hraises
  · rintro h s batch hs rfl
    have hharm : ∀ d ∈ batch, Harmless c lib fallback d.entry :=
      fun d hd => h d.entry (List.mem_map_of_mem hd)
    obtain ⟨s', hall, hproc⟩ := processAll_processed (s := s) (H := H) hs hharm
    refine ⟨⟨s', by rw [claimOnce, hall], hproc⟩, ?_⟩
    rintro messages rfl
    exact ⟨s', by rw [consumeBatch_eq, hall], hproc⟩

/-- For every field map, both parse modes, every registry and every behaviour of the handlers, with Redis
and the checker's backend answering, and a checker with or without its Redis fallback: `_process_message`
returns its pair, and a pass of either loop works through every list of entries with each of them acked
or its attempt counted, if and only if every entry is harmless. -/
theorem poison_free_iff (c : ConsumerConfig) (lib : Stdlib) (H : Hashing κ) (fallback : Bool) :
    (∀ entry, GetsPair c lib H fallback entry ↔ Harmless c lib fallback entry) ∧
      ∀ entries, WorkedThrough c lib H fallback entries ↔ ∀ e ∈ entries, Harmless c lib fallback e :=
  ⟨getsPair_iff, workedThrough_iff⟩

def poisonPayload : String := "\x7b\"event_id\": [1], \"event_type\": \"lead.created\"\x7d"

/-- The standard library on this one payload. -/
def payloadLib : Stdlib :=
  { demoLib with
    loads := fun text =>
      if text = poisonPayload then
        some (.obj [("event_id", .arr [.num 1 0]), ("event_type", .str "lead.created")])
      else demoLib.loads text }

def payloadConsumer : ConsumerConfig := { parseMode := .payload, idempotency := true }

/-- The first entry has a list for an id; the second one is never looked at. -/
theorem unhashable_id_starves_batch :
    ¬ ∀ (c : ConsumerConfig) (lib : Stdlib) (H : Hashing Json) (fallback : Bool)
      (entries : List (MsgId × Fields)), WorkedThrough c lib H fallback entries := by
  intro h
  let batch : List Delivery := [⟨0, [("payload", poisonPayload)], none⟩, ⟨1, [], none⟩]
  obtain ⟨⟨s', hclaim, -⟩, -⟩ := h payloadConsumer payloadLib demoHashing false _ {} batch rfl rfl
  have hnone : (claimOnce payloadConsumer payloadLib demoHashing {} batch).1 = none := by
    decide +kernel
  rw [hclaim] at hnone
  cases hnone

end Consumer
end Events
end TrShared
