import TrShared.Events.ConsumerSteps
import TrShared.Events.PlainRoundTrip
import TrShared.Machine.History

/-!
# TrShared.Events.DeadLetters

What a reader finds in the dead-letter stream. `DeadLetterHandler.move` writes the fields of the message
as JSON text among fields of its own; `DeadLetter.entry` is what it gives to `XADD`.

* `Explained` is the invariant of a dead letter: what is in it is on the stream, and the reason is true.
* `dead_letters_replayable`: in every run a reader gets back the fields of the message it names.
-/

namespace TrShared
namespace Events
namespace Consumer

open Python Machine

/-- `message_data` as a JSON object. -/
def Fields.json (fields : Fields) : Json := .obj (fields.map (fun p => (p.1, .str p.2)))

/-- The fields of a dead-letter entry; `idText` is the id that Redis has given to a message and `clock`
prints a time. -/
def DeadLetter.entry (f : Floats) (idText : MsgId → String) (clock : Nat → String) (d : DeadLetter) :
    Fields :=
  [("original_message_id", idText d.originalMessageId), ("original_stream", d.originalStream),
    ("consumer_group", d.consumerGroup), ("failure_reason", d.failureReason),
    ("timestamp", clock d.timestamp), ("original_data", dumps f (Fields.json d.originalData))]

/-- A name occurs once among the fields of a message, as in the `dict` that the client returns. -/
def DistinctNames : Act → Prop
  | .append fields => (fields.map Prod.fst).Nodup
  | _ => True

theorem fields_plain {f : Floats} {fields : Fields} (h : (fields.map Prod.fst).Nodup) :
    Plain f (Fields.json fields) := by
  refine ⟨?_, plainEntries_iff.2 ?_⟩
  · rw [List.map_map]
    exact h
  · intro p hp
    obtain ⟨q, _, rfl⟩ := List.mem_map.1 hp
    trivial

/-! ## The invariant -/

section Letters

variable {cfg : ConsumerId → ConsumerConfig} {lib : Stdlib}

/-- The message does not parse, or its handler has failed. -/
structure Explained (cfg : ConsumerId → ConsumerConfig) (lib : Stdlib) (w : World) (d : DeadLetter) :
    Prop where
  arrived : d.originalMessageId < w.entries.length
  data : d.originalData = w.fields d.originalMessageId
  reason : (d.failureReason = "Malformed message" ∧
      ∃ c, parse (cfg c).parseMode lib d.originalMessageId d.originalData = none) ∨
    ∃ exc, d.failureReason = "Max retries exceeded: " ++ exc ∧
      (d.originalMessageId, Mark.failed) ∈ w.log

/-- What a task knows of its message on the way to the dead-letter stream. -/
def Due (cfg : ConsumerId → ConsumerConfig) (lib : Stdlib) (w : World) (τ : TaskId) (m : MsgId) :
    Pc → Prop
  | .malformed => parse (cfg τ.1).parseMode lib m (w.fields m) = none
  | .increment _ | .expire _ _ | .exhausted _ => (m, Mark.failed) ∈ w.log
  | _ => True

structure Lettered (cfg : ConsumerId → ConsumerConfig) (lib : Stdlib) (w : World) : Prop where
  fetched : Fetched w
  current : ∀ τ m pc rest, w.tasks τ = .busy m pc rest → m < w.entries.length ∧ Due cfg lib w τ m pc
  letters : ∀ d ∈ w.dlq, Explained cfg lib w d
  names : ∀ fields ∈ w.entries, (fields.map Prod.fst).Nodup

variable {w w' : World}

theorem fields_append {m : MsgId} (l : List Fields) (h : m < w.entries.length) :
    (w.entries ++ l).getD m [] = w.fields m := by
  simp [World.fields, List.getD, List.getElem?_append_left h]

/-- The stream and the history only grow. -/
structure Grows (w w' : World) : Prop where
  length : w.entries.length ≤ w'.entries.length
  fields : ∀ m < w.entries.length, w'.fields m = w.fields m
  log : ∀ x ∈ w.log, x ∈ w'.log

theorem Explained.grows {d : DeadLetter} (h : Explained cfg lib w d) (hg : Grows w w') :
    Explained cfg lib w' d where
  arrived := Nat.lt_of_lt_of_le h.arrived hg.length
  data := by rw [hg.fields _ h.arrived]; exact h.data
  reason := h.reason.imp_right (fun ⟨exc, hr, hlog⟩ => ⟨exc, hr, hg.log _ hlog⟩)

theorem Due.grows {τ : TaskId} {m : MsgId} {pc : Pc} (h : Due cfg lib w τ m pc) (hg : Grows w w')
    (hm : m < w.entries.length) : Due cfg lib w' τ m pc := by
  cases pc with
  | malformed =>
    show parse _ _ _ (w'.fields m) = none
    rw [hg.fields m hm]
    exact h
  | increment | expire | exhausted => exact hg.log _ h
  | _ => trivial

theorem apply_grows (c : ConsumerConfig) (τ : TaskId) (m : MsgId) (rest : List MsgId) (mv : Move) :
    Grows w (w.apply c τ m rest mv) where
  length := by rw [apply_entries]
  fields m' _ := by rw [World.fields, apply_entries]; rfl
  log x hx := List.mem_append_left _ hx

/-- A step that takes nobody further into a message and writes no dead letter. -/
theorem Lettered.quiet (h : Lettered cfg lib w) (hfetched : Fetched w') (hq : Quiet w w')
    (hg : Grows w w') (hnames : ∀ fields ∈ w'.entries, (fields.map Prod.fst).Nodup) :
    Lettered cfg lib w' where
  fetched := hfetched
  current τ m pc rest hb := by
    obtain ⟨hm, hdue⟩ := h.current τ m pc rest (hq.busy τ m pc rest hb)
    exact ⟨Nat.lt_of_lt_of_le hm hg.length, hdue.grows hg hm⟩
  letters d hd := (h.letters d (hq.dlq ▸ hd)).grows hg
  names := hnames

/-- One task goes on in its message `m`. -/
theorem Lettered.apply {τ : TaskId} {m : MsgId} {rest : List MsgId} {mv : Move}
    (h : Lettered cfg lib w) (hm : m < w.entries.length)
    (hfetched : Fetched (w.apply (cfg τ.1) τ m rest mv))
    (hnext : ∀ pc, mv.next = .await pc → Due cfg lib (w.apply (cfg τ.1) τ m rest mv) τ m pc)
    (hletter : ∀ reason, mv.effect = some (.deadLetter reason) →
      Explained cfg lib w ⟨m, (cfg τ.1).streamName, (cfg τ.1).consumerGroup, reason, w.now, w.fields m⟩) :
    Lettered cfg lib (w.apply (cfg τ.1) τ m rest mv) := by
  have hg := apply_grows (w := w) (cfg τ.1) τ m rest mv
  refine ⟨hfetched, fun τ' m' pc rest' hb => ?_, fun d hd => ?_, ?_⟩
  · rcases apply_busy hb with ⟨rfl, rfl, hn⟩ | ⟨_, hold⟩
    · exact ⟨Nat.lt_of_lt_of_le hm hg.length, hnext pc hn⟩
    · obtain ⟨hm', hdue⟩ := h.current τ' m' pc rest' hold
      exact ⟨Nat.lt_of_lt_of_le hm' hg.length, hdue.grows hg hm'⟩
  · have hcases : d ∈ w.dlq ∨ ∃ reason, mv.effect = some (.deadLetter reason) ∧
        d = ⟨m, (cfg τ.1).streamName, (cfg τ.1).consumerGroup, reason, w.now, w.fields m⟩ := by
      rcases mv with ⟨next, _ | e, mark⟩
      · exact .inl hd
      · cases e with
        | deadLetter reason =>
          rcases mem_snoc hd with hd | rfl
          · exact .inl hd
          · exact .inr ⟨reason, rfl, rfl⟩
        | _ => exact .inl hd
    rcases hcases with hd | ⟨reason, he, rfl⟩
    · exact (h.letters d hd).grows hg
    · exact (hletter reason he).grows hg
  · rw [apply_entries]
    exact h.names

theorem Lettered.next {τ : TaskId} {m : MsgId} {rest : List MsgId} {mv : Move}
    (h : Lettered cfg lib w) (hm : m < w.entries.length)
    (hfetched : Fetched (w.apply (cfg τ.1) τ m rest mv))
    (hb : Begins (cfg τ.1) lib m (w.fields m) mv) :
    Lettered cfg lib (w.apply (cfg τ.1) τ m rest mv) := by
  refine h.apply hm hfetched (fun pc hn => ?_) (fun reason he => ?_)
  · cases hb with
    | malformed hp =>
      cases hn
      exact Due.grows (w := w) hp (apply_grows ..) hm
    | check => cases hn; trivial
    | resolve _ _ hr =>
      cases hr with
      | raised => cases hn
      | unmatched => cases hn; trivial
      | invoked => cases hn; trivial
  · cases hb with
    | resolve _ _ hr => cases hr <;> cases he
    | _ => cases he

theorem Lettered.event {τ : TaskId} {e : Event} {m : MsgId} {pc : Pc} {rest : List MsgId} {mv : Move}
    (h : Lettered cfg lib w) (htask : w.tasks τ = .busy m pc rest)
    (hfetched : Fetched (w.apply (cfg τ.1) τ m rest mv))
    (hmv : Moves (cfg τ.1) (w.attempts m) pc e mv) :
    Lettered cfg lib (w.apply (cfg τ.1) τ m rest mv) := by
  obtain ⟨hm, hdue⟩ := h.current τ m pc rest htask
  refine h.apply hm hfetched (fun pc' hn => ?_) (fun reason he => ?_)
  · cases hmv with
    | malformed | skipped | exhausted => cases hn; trivial
    | checkRaised | unsent => cases hn
    | resolve hr =>
      cases hr with
      | raised => cases hn
      | unmatched => cases hn; trivial
      | invoked => cases hn; trivial
    | succeeded =>
      dsimp only at hn
      split at hn <;> (cases hn; trivial)
    | failed =>
      cases hn
      exact List.mem_append_right _ (List.mem_singleton.2 rfl)
    | marked | cleared | acked =>
      dsimp only at hn
      split at hn <;> cases hn <;> trivial
    | incremented =>
      dsimp only at hn
      split at hn
      · cases hn
        exact Due.grows hdue (apply_grows ..) hm
      · obtain rfl := afterFailure_await hn
        exact Due.grows hdue (apply_grows ..) hm
    | expired =>
      obtain rfl := afterFailure_await hn
      exact Due.grows hdue (apply_grows ..) hm
  · have htook : ∀ {reply : Reply} {x : Effect}, took reply x = some (.deadLetter reason) →
        x = .deadLetter reason := by
      intro reply x hx
      unfold took at hx
      split at hx
      · exact Option.some.inj hx
      · cases hx
    cases hmv with
    | malformed =>
      cases htook he
      exact ⟨hm, rfl, .inl ⟨rfl, τ.1, hdue⟩⟩
    | exhausted =>
      cases htook he
      exact ⟨hm, rfl, .inr ⟨_, rfl, hdue⟩⟩
    | resolve hr => cases hr <;> cases he
    | marked | cleared | acked | incremented => cases htook he
    | _ => cases he

theorem Lettered.step {a : Act} (h : Lettered cfg lib w) (ha : DistinctNames a)
    (hs : Consumer.step cfg lib w a = some w') : Lettered cfg lib w' := by
  have hfetched := h.fetched.step hs
  have hquiet : (∀ τ, a ≠ .next τ) → (∀ τ e, a ≠ .event τ e) → Quiet w w' := (step_cases hs).quiet
  cases step_cases hs with
  | next htask hb =>
    have hm := h.fetched.batch _ _ (by rw [htask]; exact List.mem_cons_self)
    exact h.next hm hfetched hb
  | event htask _ hmv => exact h.event htask hfetched hmv
  | append fields =>
    refine h.quiet hfetched ⟨rfl, rfl, rfl, rfl, fun _ _ _ _ hb => hb⟩ ?_ ?_
    · exact ⟨by simp, fun m hm => fields_append [fields] hm, fun _ hx => hx⟩
    · intro l hl
      rcases mem_snoc hl with hl | rfl
      · exact h.names l hl
      · exact ha
  | _ =>
    exact h.quiet hfetched (hquiet (by simp) (by simp))
      ⟨Nat.le_refl _, fun _ _ => rfl, fun _ hx => hx⟩ h.names

end Letters

/-- For every run of any consumers, whatever crashes and is lost: a dead letter names a message of the
stream, a reader decodes the fields that the message had there from it, and it gives the true reason:
the message does not parse for one of the consumers, or its handler has failed. -/
theorem dead_letters_replayable (f : Floats) (isoformat : Int → String) (idText : MsgId → String)
    (clock : Nat → String) (cfg : ConsumerId → ConsumerConfig) (acts : List Act) (w : World)
    (hrun : Run (step cfg (pythonLib f isoformat)) (fun _ a => DistinctNames a) {} acts w) :
    ∀ d ∈ w.dlq, ∃ fields, w.entries[d.originalMessageId]? = some fields ∧
      ((d.entry f idText clock).lookup "original_data").bind (loads f) = some (Fields.json fields) ∧
      ((d.failureReason = "Malformed message" ∧
          ∃ c, parse (cfg c).parseMode (pythonLib f isoformat) d.originalMessageId fields = none) ∨
        ∃ exc, d.failureReason = "Max retries exceeded: " ++ exc ∧
          (d.originalMessageId, Mark.failed) ∈ w.log) := by
  have h : Lettered cfg (pythonLib f isoformat) w := by
    refine hrun.invariant (fun _ _ _ hi ha hs => hi.step ha hs) ⟨⟨Nat.le_refl _, ?_, ?_⟩, ?_, ?_, ?_⟩
    · intro p hp; cases hp
    · intro τ m hm; cases hm
    · intro τ m pc rest hb; cases hb
    · intro d hd; cases hd
    · intro fields hf; cases hf
  intro d hd
  obtain ⟨harrived, hdata, hreason⟩ := h.letters d hd
  have hget : w.entries[d.originalMessageId]? = some d.originalData := by
    simp [hdata, World.fields, List.getD, List.getElem?_eq_getElem harrived]
  have hplain := fields_plain (f := f) (h.names _ (List.mem_of_getElem? hget))
  exact ⟨d.originalData, hget, loads_dumps f hplain, hreason⟩

/-- One message does not parse, the handler of the other one raises. -/
def twoLetters : List Act :=
  let redis : Act := .event (0, .consume) (.redis .ok)
  [.append [("event_type", "user.created"), ("data", "not json")], .append demoEvent, .read 0 2 .ok,
    .next (0, .consume), redis, redis, .next (0, .consume), .event (0, .consume) (.handler (some "boom")), redis, redis, redis]

theorem two_letters_read_back : ∃ w,
    exec (step (demoConfig 1 false) (pythonLib noFloats (fun _ => "now"))) {} twoLetters = some w ∧
    w.dlq.map DeadLetter.failureReason = ["Malformed message", "Max retries exceeded: boom"] ∧
    ∀ d ∈ w.dlq, ∃ fields, w.entries[d.originalMessageId]? = some fields ∧
      ((d.entry noFloats toString toString).lookup "original_data").bind (loads noFloats) =
        some (Fields.json fields) := by
  have hx : (exec (step (demoConfig 1 false) (pythonLib noFloats (fun _ => "now"))) {} twoLetters).any
      (fun w => decide (w.dlq.map DeadLetter.failureReason =
        ["Malformed message", "Max retries exceeded: boom"])) = true := by
    decide +kernel
  obtain ⟨w, hw, hreasons⟩ := exec_any hx
  have hrun : Run (step (demoConfig 1 false) (pythonLib noFloats (fun _ => "now")))
      (fun _ a => DistinctNames a) {} twoLetters w := by
    refine .of_exec_all (fun a ha _ => ?_) hw
    simp only [twoLetters, List.mem_cons, List.not_mem_nil, or_false] at ha
    rcases ha with rfl | rfl | rfl | rfl | rfl | rfl | rfl | rfl | rfl | rfl | rfl <;>
      simp [DistinctNames, demoEvent]
  refine ⟨w, hw, of_decide_eq_true hreasons, fun d hd => ?_⟩
  obtain ⟨fields, hget, hdata, _⟩ :=
    dead_letters_replayable noFloats (fun _ => "now") toString toString _ _ w hrun d hd
  exact ⟨fields, hget, hdata⟩

end Consumer
end Events
end TrShared
