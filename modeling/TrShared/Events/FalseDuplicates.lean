import TrShared.Events.ProcessMessage
import TrShared.Machine.History

/-!
# TrShared.Events.FalseDuplicates

Which calls of `_process_message` skip an entry as a duplicate. A parser fills in `""` for a missing
`event_id`, and the checker takes that for an id like any other; its Redis fallback knows ids by their
text only.

* `skips_genuine`: over every sequence of calls, an entry is skipped only if an earlier one with the same
  `event_id`, there and not empty in both, was handled successfully, as long as every entry that is
  handled successfully carries such an id, and with the fallback all ids are text.
* `missing_ids_skipped`: two entries without an id, and the second one is skipped and gone.
-/

namespace TrShared
namespace Events
namespace Consumer

open Python Machine

/-! ## Ids that are there -/

/-- The `event_id` an entry has, whatever it is. -/
def carriedId (mode : ParseMode) (lib : Stdlib) (fields : Fields) : Option Json :=
  match mode with
  | .flat => (fields.lookup "event_id").map Json.str
  | .payload =>
    match lib.loads (getD fields "payload" "") with
    | some (.obj payload) => payload.lookup "event_id"
    | _ => none

/-- The entry has this `event_id`, and it is neither `""` nor `null`. -/
structure ExplicitId (mode : ParseMode) (lib : Stdlib) (fields : Fields) (v : Json) : Prop where
  carried : carriedId mode lib fields = some v
  text : v ≠ .str ""
  null : v ≠ .null

/-- A missing id is `""` for the checker. -/
theorem parse_eventId {mode : ParseMode} {lib : Stdlib} {m : MsgId} {fields : Fields}
    {env : EventEnvelope} (h : parse mode lib m fields = some env) :
    env.eventId = (carriedId mode lib fields).getD (.str "") := by
  cases mode with
  | flat =>
    rw [fromFlat_eventId h, carriedId, getD]
    cases fields.lookup "event_id" <;> rfl
  | payload =>
    simp only [parse, EventEnvelope.fromPayloadWrapper] at h
    split at h
    · cases h
    · split at h
      · rename_i payload hload
        cases h
        simp only [carriedId, hload]
        rfl
      · cases h

theorem ExplicitId.eventId {mode : ParseMode} {lib : Stdlib} {m : MsgId} {fields : Fields}
    {env : EventEnvelope} {v : Json} (h : parse mode lib m fields = some env)
    (hv : ExplicitId mode lib fields v) : env.eventId = v := by
  rw [parse_eventId h, hv.carried, Option.getD_some]

theorem explicitId_of_parse {mode : ParseMode} {lib : Stdlib} {m : MsgId} {fields : Fields}
    {env : EventEnvelope} (h : parse mode lib m fields = some env) (htext : env.eventId ≠ .str "")
    (hnull : env.eventId ≠ .null) : ExplicitId mode lib fields env.eventId := by
  have heq := parse_eventId h
  cases hc : carriedId mode lib fields with
  | none =>
    rw [hc] at heq
    exact absurd heq htext
  | some v =>
    rw [hc, Option.getD_some] at heq
    subst heq
    exact ⟨hc, htext, hnull⟩

/-! ## What a call leaves behind -/

section Fates

variable {κ : Type} [DecidableEq κ] {c : ConsumerConfig} {lib : Stdlib} {H : Hashing κ} {s : State κ}
  {d : Delivery}

def Mark.isSkip : Mark → Bool
  | .skipped _ => true
  | _ => false

def Mark.isSuccess : Mark → Bool
  | .succeeded _ => true
  | _ => false

/-- Skipped as a duplicate; handled successfully; anything else, which leaves the checker alone. -/
inductive Fate (c : ConsumerConfig) (lib : Stdlib) (H : Hashing κ) (s : State κ) (d : Delivery) :
    List Mark → Checker κ → Prop where
  | skipped {env : EventEnvelope} : parse c.parseMode lib d.id d.data = some env →
      s.checker.isProcessed H env.eventId = some true →
      Fate c lib H s d [.skipped env.eventId] s.checker
  | succeeded {env : EventEnvelope} {h : HandlerId} {checker : Checker κ} :
      parse c.parseMode lib d.id d.data = some env →
      resolveHandler c.handlers env.eventType = some (some h) → d.exc = none →
      checker = s.checker ∨ (s.checker.markProcessed H env.eventId).2 = checker →
      Fate c lib H s d [.invoked, .succeeded env.eventId] checker
  | other {marks : List Mark} : (∀ k ∈ marks, k.isSkip = false ∧ k.isSuccess = false) →
      Fate c lib H s d marks s.checker

/-- What a call adds to the history. -/
def newMarks (s s' : State κ) : List Mark :=
  (s'.world.log.drop s.world.log.length).map Prod.snd

omit [DecidableEq κ] in
theorem newMarks_eq {s s' : State κ} (m : MsgId) (marks : List Mark)
    (h : s'.world.log = s.world.log ++ marks.map (fun k => (m, k))) : newMarks s s' = marks := by
  simp [newMarks, h, Function.comp_def]

theorem afterSuccess_log (env : EventEnvelope) :
    (afterSuccess c H s d env).2.world.log = s.world.log ∧
      ((afterSuccess c H s d env).2.checker = s.checker ∨
        (s.checker.markProcessed H env.eventId).2 = (afterSuccess c H s d env).2.checker) := by
  simp only [afterSuccess]
  split
  · split
    · rename_i checker hc
      exact ⟨rfl, .inr (by rw [hc])⟩
    · rename_i checker hc
      exact ⟨rfl, .inr (by rw [hc]; rfl)⟩
  · exact ⟨rfl, .inl rfl⟩

theorem dispatch_fate {env : EventEnvelope} (henv : parse c.parseMode lib d.id d.data = some env) :
    Fate c lib H s d (newMarks s (dispatch c H s d env).2) (dispatch c H s d env).2.checker := by
  cases hr : resolveHandler c.handlers env.eventType with
  | none =>
    simp only [dispatch, hr]
    rw [newMarks_eq (s := s) d.id [] (by simp)]
    exact .other (by simp)
  | some found =>
    cases found with
    | none =>
      simp only [dispatch, hr]
      rw [newMarks_eq (s := s) d.id [.unmatched] rfl]
      exact .other (by simp [Mark.isSkip, Mark.isSuccess])
    | some h =>
      cases hexc : d.exc with
      | some exc =>
        simp only [dispatch, hr, hexc]
        obtain ⟨hlog, hchecker⟩ :=
          handleFailure_frame c ((s.note d.id .invoked).note d.id .failed) d exc
        rw [newMarks_eq d.id [.invoked, .failed] (by rw [hlog]; simp [State.note, World.note]), hchecker]
        exact .other (by simp [Mark.isSkip, Mark.isSuccess])
      | none =>
        simp only [dispatch, hr, hexc]
        obtain ⟨hlog, hchecker⟩ := afterSuccess_log (c := c) (H := H) (d := d)
          (s := (s.note d.id .invoked).note d.id (.succeeded env.eventId)) env
        rw [newMarks_eq d.id [.invoked, .succeeded env.eventId]
          (by rw [hlog]; simp [State.note, World.note])]
        exact .succeeded henv hr hexc hchecker

theorem processMessage_fate :
    Fate c lib H s d (newMarks s (processMessage c lib H s d).2)
      (processMessage c lib H s d).2.checker := by
  cases henv : parse c.parseMode lib d.id d.data with
  | none =>
    simp only [processMessage, henv]
    rw [newMarks_eq (s := s) d.id [] (by simp [State.moveToDlq, World.moveToDlq])]
    exact .other (by simp)
  | some env =>
    simp only [processMessage, henv]
    split
    · cases hp : s.checker.isProcessed H env.eventId with
      | none =>
        rw [newMarks_eq (s := s) d.id [] (by simp)]
        exact .other (by simp)
      | some known =>
        cases known with
        | true =>
          rw [newMarks_eq (s := s) d.id [.skipped env.eventId] rfl]
          exact .skipped henv hp
        | false => exact dispatch_fate henv
    · exact dispatch_fate henv

end Fates

/-! ## Sequences of calls -/

/-- A call that has ended, with what the history says of it. -/
structure Call where
  entry : MsgId × Fields
  marks : List Mark

def Call.skipped (call : Call) : Prop := ∃ k ∈ call.marks, k.isSkip = true

def Call.succeeded (call : Call) : Prop := ∃ k ∈ call.marks, k.isSuccess = true

structure Trail (κ : Type) where
  state : State κ
  calls : List Call := []

inductive TrailAct where
  | process (d : Delivery)
  /-- A key of the Redis fallback expires. -/
  | expire (text : String)

section Trails

variable {κ : Type} [DecidableEq κ] {c : ConsumerConfig} {lib : Stdlib} {H : Hashing κ}
  {t t' : Trail κ} {a : TrailAct}

def Trail.step (c : ConsumerConfig) (lib : Stdlib) (H : Hashing κ) (t : Trail κ) :
    TrailAct → Option (Trail κ)
  | .process d =>
    let s := (processMessage c lib H t.state d).2
    some { state := s, calls := t.calls ++ [⟨(d.id, d.data), newMarks t.state s⟩] }
  | .expire text =>
    let checker := { t.state.checker with
      redis := t.state.checker.redis.map (fun texts => texts.filter (fun x => x ≠ text)) }
    some { t with state := { t.state with checker := checker } }

/-- A new checker, with or without its Redis fallback. -/
def Trail.start (w : World) (fallback : Bool) : Trail κ :=
  { state := { world := w, checker := { redis := if fallback then some [] else none } } }

/-- Two calls carry one and the same id: explicit in both, and equal for Python. -/
def SameId (c : ConsumerConfig) (lib : Stdlib) (H : Hashing κ) (x y : Call) : Prop :=
  ∃ v v', ExplicitId c.parseMode lib x.entry.2 v ∧ ExplicitId c.parseMode lib y.entry.2 v' ∧
    H.key v = H.key v'

/-- Every skipped entry has an earlier one with its id that was handled successfully. -/
def Genuine (c : ConsumerConfig) (lib : Stdlib) (H : Hashing κ) (calls : List Call) : Prop :=
  ∀ before call after, calls = before ++ call :: after → call.skipped →
    ∃ earlier ∈ before, earlier.succeeded ∧ SameId c lib H earlier call

/-- What the law asks of a call: an entry whose handler is called and returns carries an id, and where
there is a Redis fallback an id is text. -/
structure Identified (c : ConsumerConfig) (lib : Stdlib) (t : Trail κ) (a : TrailAct) : Prop where
  explicit : ∀ d env h, a = .process d → parse c.parseMode lib d.id d.data = some env →
    resolveHandler c.handlers env.eventType = some (some h) → d.exc = none →
    ∃ v, ExplicitId c.parseMode lib d.data v
  text : ∀ d env, a = .process d → parse c.parseMode lib d.id d.data = some env →
    t.state.checker.redis ≠ none → IsText env.eventId

omit [DecidableEq κ] in
/-- A text that has a key is the key. -/
theorem IsText.of_key {v : Json} {key : String} (h : IsText v) (hkey : H.text v = some key) :
    v = .str key := by
  rcases h with ⟨x, rfl⟩ | hlone
  · rw [H.str_text] at hkey
    cases hkey
    rfl
  · rw [(H.text_none v).2 hlone] at hkey
    cases hkey

/-- Everything the checker knows it has from a call that succeeded. -/
structure Known (c : ConsumerConfig) (lib : Stdlib) (H : Hashing κ) (t : Trail κ) : Prop where
  memory : ∀ k ∈ t.state.checker.memory.ids.keys, ∃ call ∈ t.calls, call.succeeded ∧
    ∃ v, ExplicitId c.parseMode lib call.entry.2 v ∧ H.key v = some k
  redis : ∀ texts, t.state.checker.redis = some texts → ∀ x ∈ texts, ∃ call ∈ t.calls,
    call.succeeded ∧ ExplicitId c.parseMode lib call.entry.2 (.str x)
  genuine : Genuine c lib H t.calls

omit [DecidableEq κ] in
theorem Known.start (w : World) (fallback : Bool) :
    Known c lib H (Trail.start w fallback : Trail κ) where
  memory k hk := by cases hk
  redis texts h x hx := by
    cases fallback
    · cases h
    · cases h; cases hx
  genuine before call after h := by simp [Trail.start] at h

omit [DecidableEq κ] in
theorem Genuine.snoc {calls : List Call} {call : Call} (h : Genuine c lib H calls)
    (hcall : call.skipped → ∃ earlier ∈ calls, earlier.succeeded ∧ SameId c lib H earlier call) :
    Genuine c lib H (calls ++ [call]) := by
  intro before x after heq hx
  rcases split_snoc heq with ⟨-, rfl, rfl⟩ | ⟨after', -, rfl⟩
  · exact hcall hx
  · exact h before x after' rfl hx

/-- What is skipped has its id from a call that succeeded. -/
theorem Known.origin (h : Known c lib H t) {d : Delivery} {env : EventEnvelope}
    (henv : parse c.parseMode lib d.id d.data = some env)
    (htext : t.state.checker.redis ≠ none → IsText env.eventId)
    (hp : t.state.checker.isProcessed H env.eventId = some true) (marks : List Mark) :
    ∃ earlier ∈ t.calls, earlier.succeeded ∧ SameId c lib H earlier ⟨(d.id, d.data), marks⟩ := by
  simp only [Checker.isProcessed] at hp
  split at hp
  · cases hp
  · rename_i id hid
    split at hp
    · rename_i hmem
      obtain ⟨earlier, he, hsucc, v, hv, hkey⟩ :=
        h.memory id (InMemoryIdempotencyChecker.isProcessed_iff.1 hmem)
      have hsame : H.key v = H.key env.eventId := hkey.trans hid.symm
      refine ⟨earlier, he, hsucc, v, env.eventId, hv, explicitId_of_parse henv ?_ ?_, hsame⟩
      · intro hempty
        exact hv.text (H.str_key (hempty ▸ hsame))
      · intro hnull
        exact hv.null (H.null_key (hnull ▸ hsame))
    · split at hp
      · rename_i texts hredis
        obtain ⟨x, hkey, hmem⟩ := Option.map_eq_some_iff.1 hp
        have hx := (htext (by rw [hredis]; exact Option.some_ne_none _)).of_key hkey
        have hmem : x ∈ texts := of_decide_eq_true hmem
        obtain ⟨earlier, he, hsucc, hv⟩ := h.redis texts hredis x hmem
        refine ⟨earlier, he, hsucc, .str x, env.eventId, hv, ?_, by rw [hx]⟩
        refine explicitId_of_parse henv ?_ ?_
        · rw [hx]; exact hv.text
        · rw [hx]; exact hv.null
      · cases hp

/-- What `mark_processed` adds to the memory, also when it raises. -/
theorem markProcessed_memory {k : Checker κ} {v : Json} {id : κ}
    (h : id ∈ (k.markProcessed H v).2.memory.ids.keys) :
    id ∈ k.memory.ids.keys ∨ H.key v = some id := by
  simp only [Checker.markProcessed] at h
  split at h
  · exact .inl h
  · rename_i id' hid
    have hmem : id ∈ (k.memory.markProcessed id').ids.keys := by
      split at h
      · exact h
      · split at h <;> exact h
    rcases InMemoryIdempotencyChecker.markProcessed_subset hmem with hold | rfl
    · exact .inl hold
    · exact .inr hid

theorem markProcessed_redis {k : Checker κ} {v : Json} {texts : List String}
    (h : (k.markProcessed H v).2.redis = some texts) :
    k.redis = some texts ∨
      ∃ old key, k.redis = some old ∧ H.text v = some key ∧ texts = old ++ [key] := by
  simp only [Checker.markProcessed] at h
  split at h
  · exact .inl h
  · split at h
    · exact .inl h
    · rename_i old hold
      split at h
      · exact .inl h
      · rename_i key hkey
        cases h
        exact .inr ⟨old, key, hold, hkey, rfl⟩

omit [DecidableEq κ] in
/-- The trail grows by a call, and the checker learns at most its id. -/
theorem Known.snoc (h : Known c lib H t) {call : Call} {w : World} {checker : Checker κ}
    (hmem : ∀ k ∈ checker.memory.ids.keys, k ∈ t.state.checker.memory.ids.keys ∨ (call.succeeded ∧
      ∃ v, ExplicitId c.parseMode lib call.entry.2 v ∧ H.key v = some k))
    (hredis : ∀ texts, checker.redis = some texts → ∀ x ∈ texts,
      (∃ old, t.state.checker.redis = some old ∧ x ∈ old) ∨ (call.succeeded ∧
        ExplicitId c.parseMode lib call.entry.2 (.str x)))
    (hgenuine : Genuine c lib H (t.calls ++ [call])) :
    Known c lib H { state := { world := w, checker := checker }, calls := t.calls ++ [call] } := by
  refine ⟨?_, ?_, hgenuine⟩
  · intro k hk
    rcases hmem k hk with hold | ⟨hsucc, hv⟩
    · obtain ⟨x, hx, hrest⟩ := h.memory k hold
      exact ⟨x, List.mem_append_left _ hx, hrest⟩
    · exact ⟨call, List.mem_append_right _ (List.mem_singleton_self _), hsucc, hv⟩
  · intro texts ht x hx
    rcases hredis texts ht x hx with ⟨old, hold, hxold⟩ | ⟨hsucc, hv⟩
    · obtain ⟨y, hy, hrest⟩ := h.redis old hold x hxold
      exact ⟨y, List.mem_append_left _ hy, hrest⟩
    · exact ⟨call, List.mem_append_right _ (List.mem_singleton_self _), hsucc, hv⟩

omit [DecidableEq κ] in
/-- The same for a call that leaves the checker as it was. -/
theorem Known.snoc_same (h : Known c lib H t) {call : Call} {w : World}
    (hgenuine : Genuine c lib H (t.calls ++ [call])) :
    Known c lib H
      { state := { world := w, checker := t.state.checker }, calls := t.calls ++ [call] } :=
  h.snoc (fun _ hk => .inl hk) (fun texts ht _ hx => .inl ⟨texts, ht, hx⟩) hgenuine

/-- The id of an entry that was handled successfully. -/
theorem Known.snoc_marked (h : Known c lib H t) {call : Call} {w : World} {checker : Checker κ}
    {v : Json} (hsucc : call.succeeded) (hv : ExplicitId c.parseMode lib call.entry.2 v)
    (htext : t.state.checker.redis ≠ none → IsText v)
    (hmark : (t.state.checker.markProcessed H v).2 = checker)
    (hgenuine : Genuine c lib H (t.calls ++ [call])) :
    Known c lib H { state := { world := w, checker := checker }, calls := t.calls ++ [call] } := by
  refine h.snoc ?_ ?_ hgenuine
  · intro k hk
    rcases markProcessed_memory (hmark ▸ hk) with hold | hid
    · exact .inl hold
    · exact .inr ⟨hsucc, v, hv, hid⟩
  · intro texts ht x hx
    rcases markProcessed_redis (hmark ▸ ht) with hold | ⟨old, key, hold, hkey, rfl⟩
    · exact .inl ⟨texts, hold, hx⟩
    · rcases mem_snoc hx with hx | rfl
      · exact .inl ⟨old, hold, hx⟩
      · obtain rfl := (htext (by rw [hold]; exact Option.some_ne_none _)).of_key hkey
        exact .inr ⟨hsucc, hv⟩

theorem Known.process (h : Known c lib H t) {d : Delivery} (hok : Identified c lib t (.process d))
    {w : World} {marks : List Mark} {checker : Checker κ}
    (hfate : Fate c lib H t.state d marks checker) :
    Known c lib H { state := { world := w, checker := checker },
                    calls := t.calls ++ [⟨(d.id, d.data), marks⟩] } := by
  cases hfate with
  | @skipped env henv hp =>
    refine h.snoc_same (h.genuine.snoc ?_)
    intro _
    exact h.origin henv (hok.text d env rfl henv) hp _
  | @succeeded env handler _ henv hr hexc hchecker =>
    have hnot : ¬ Call.skipped ⟨(d.id, d.data), [.invoked, .succeeded env.eventId]⟩ := by
      simp [Call.skipped, Mark.isSkip]
    have hgenuine := h.genuine.snoc (fun hskip => absurd hskip hnot)
    rcases hchecker with rfl | hmark
    · exact h.snoc_same hgenuine
    · obtain ⟨v, hv⟩ := hok.explicit d env handler rfl henv hr hexc
      obtain rfl : env.eventId = v := hv.eventId henv
      refine h.snoc_marked ?_ hv (hok.text d env rfl henv) hmark hgenuine
      exact ⟨.succeeded env.eventId, by simp, rfl⟩
  | other hmarks =>
    refine h.snoc_same (h.genuine.snoc ?_)
    rintro ⟨k, hk, hskip⟩
    rw [(hmarks k hk).1] at hskip
    cases hskip

theorem Known.step (h : Known c lib H t) (hok : Identified c lib t a)
    (hs : t.step c lib H a = some t') : Known c lib H t' := by
  cases a with
  | process d =>
    cases hs
    exact h.process hok processMessage_fate
  | expire text =>
    cases hs
    refine ⟨h.memory, ?_, h.genuine⟩
    intro texts ht x hx
    obtain ⟨old, hold, rfl⟩ := Option.map_eq_some_iff.1 ht
    exact h.redis old hold x (List.mem_filter.1 hx).1

end Trails

/-- For every sequence of calls of `_process_message`, one after the other, in both parse modes, from any
state of the group and with a new checker: if every entry that is handled successfully carries an
`event_id` that is not empty, and with a Redis fallback ids are text, an entry is skipped as a duplicate
only if an earlier entry with the same id, explicit in both, was handled successfully. -/
theorem skips_genuine {κ : Type} [DecidableEq κ] (c : ConsumerConfig) (lib : Stdlib) (H : Hashing κ)
    (w : World) (fallback : Bool) (acts : List TrailAct) (t : Trail κ)
    (hrun : Run (Trail.step c lib H) (Identified c lib) (Trail.start w fallback) acts t) :
    Genuine c lib H t.calls :=
  (hrun.invariant (fun _ _ _ h hok hs => Known.step h hok hs) (Known.start w fallback)).genuine

/-! One handler, and two deliveries of one entry. -/

def demoConsumer : ConsumerConfig := { idempotency := true, handlers := [("lead.created", 0)] }

def identifiedEntry : Delivery := ⟨0, [("event_id", "e1"), ("event_type", "lead.created")], none⟩

def anonymousEntry (m : MsgId) : Delivery := ⟨m, [("event_type", "lead.created")], none⟩

theorem redelivery_skipped : ∃ t : Trail Json,
    Run (Trail.step demoConsumer demoLib demoHashing) (Identified demoConsumer demoLib)
      (Trail.start {} true) [.process identifiedEntry, .process identifiedEntry] t ∧
    t.calls.map Call.marks = [[.invoked, .succeeded (.str "e1")], [.skipped (.str "e1")]] ∧
    Genuine demoConsumer demoLib demoHashing t.calls := by
  have hx : (exec (Trail.step demoConsumer demoLib demoHashing) (Trail.start {} true)
      [.process identifiedEntry, .process identifiedEntry]).any (fun t => decide
        (t.calls.map Call.marks = [[.invoked, .succeeded (.str "e1")], [.skipped (.str "e1")]])) =
      true := by
    decide +kernel
  obtain ⟨t, ht, hmarks⟩ := exec_any hx
  have hid : ∀ t : Trail Json, Identified demoConsumer demoLib t (.process identifiedEntry) := by
    intro t
    refine ⟨?_, ?_⟩
    · rintro d env h ⟨⟩ _ _ _
      exact ⟨.str "e1", rfl, by decide, by decide⟩
    · rintro d env ⟨⟩ henv _
      have hflat : EventEnvelope.fromFlat demoLib 0 identifiedEntry.data = some env := henv
      exact .inl ⟨_, fromFlat_eventId hflat⟩
  have hrun : Run (Trail.step demoConsumer demoLib demoHashing) (Identified demoConsumer demoLib)
      (Trail.start {} true) [.process identifiedEntry, .process identifiedEntry] t := by
    refine Run.of_exec_all ?_ ht
    intro a ha t
    simp only [List.mem_cons, List.not_mem_nil, or_false, or_self] at ha
    subst ha
    exact hid t
  exact ⟨t, hrun, of_decide_eq_true hmarks, skips_genuine _ _ _ _ _ _ t hrun⟩

/-- Neither entry has an `event_id`; both are `""` for the checker, and the second one is skipped. -/
theorem missing_ids_skipped : ¬ ∀ (c : ConsumerConfig) (lib : Stdlib) (H : Hashing Json) (w : World)
    (fallback : Bool) (acts : List TrailAct) (t : Trail Json),
    Run (Trail.step c lib H) (fun _ _ => True) (Trail.start w fallback) acts t →
      Genuine c lib H t.calls := by
  intro h
  have hx : (exec (Trail.step demoConsumer demoLib demoHashing) (Trail.start {} false)
      [.process (anonymousEntry 0), .process (anonymousEntry 1)]).any (fun t => decide
        (t.calls.map (fun call => (call.entry, call.marks)) =
          [((0, (anonymousEntry 0).data), [.invoked, .succeeded (.str "")]),
           ((1, (anonymousEntry 1).data), [.skipped (.str "")])])) = true := by
    decide +kernel
  obtain ⟨t, ht, hp⟩ := exec_any hx
  have hcalls := of_decide_eq_true hp
  have hgenuine := h demoConsumer demoLib demoHashing {} false _ t
    (Run.of_exec_all (fun _ _ _ => trivial) ht)
  obtain ⟨first, rest, hsplit, hfirst, hrest⟩ := List.map_eq_cons_iff.1 hcalls
  obtain ⟨second, rest', hsplit', hsecond, -⟩ := List.map_eq_cons_iff.1 hrest
  obtain ⟨earlier, hmem, -, v, -, hv, -⟩ :=
    hgenuine [first] second rest' (by rw [hsplit, hsplit']; rfl)
      ⟨.skipped (.str ""), by rw [(Prod.mk.inj hsecond).2]; simp, rfl⟩
  rw [List.mem_singleton.1 hmem, (Prod.mk.inj hfirst).1] at hv
  have hnone : carriedId demoConsumer.parseMode demoLib (anonymousEntry 0).data = none := by decide
  cases hnone.symm.trans hv.carried

end Consumer
end Events
end TrShared
