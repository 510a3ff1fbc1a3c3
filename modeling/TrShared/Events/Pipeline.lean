import TrShared.Events.ConsumerDedup
import TrShared.Events.OutboxTerminal

/-!
# TrShared.Events.Pipeline

From the outbox to the handlers: the drainers of one outbox and the consumers of one group, on the
stream between them.

* `Tracked` ties every handler run to the stream entry it is for, and so to the event id the
  producer drew for that entry.
* `handlings_le_one`: if all entries of a row carry one event id, a deduplicating group completes
  the handler at most once for the row.
* `effectively_once`: they do as long as no row is published again (`Fresh`). `publish` draws a new
  event id every time, so a row that is published again arrives as another event
  (`republished_row_handled_twice`).
-/

namespace TrShared
namespace Events
namespace Pipeline

open Python Machine

structure World where
  outbox : Outbox.World
  group : Consumer.World

inductive Act where
  | outbox (a : Outbox.Act)
  | group (a : Consumer.Act)

/-- The stream as the drainers write it is the stream the group reads; nobody else appends. -/
def step (dcfg : Outbox.DrainId → Outbox.DrainConfig)
    (ccfg : Consumer.ConsumerId → Consumer.ConsumerConfig) (lib : Stdlib) (s : World) :
    Act → Option World
  | .outbox a =>
    (Outbox.step dcfg lib s.outbox a).map fun o =>
      { outbox := o
        group := { s.group with entries := o.stream.map (fun x => x.event.fields) } }
  | .group (.append _) => none
  | .group a => (Consumer.step ccfg lib s.group a).map fun g => { s with group := g }

def start (table : Table Outbox.Row.id) (now : Int) : World :=
  { outbox := Outbox.start table now, group := {} }

variable {dcfg : Outbox.DrainId → Outbox.DrainConfig}
  {ccfg : Consumer.ConsumerId → Consumer.ConsumerConfig} {lib : Stdlib}

inductive Stepped (dcfg : Outbox.DrainId → Outbox.DrainConfig)
    (ccfg : Consumer.ConsumerId → Consumer.ConsumerConfig) (lib : Stdlib) (s : World) :
    Act → World → Prop where
  | outbox {a : Outbox.Act} {o : Outbox.World} (h : Outbox.step dcfg lib s.outbox a = some o) :
      Stepped dcfg ccfg lib s (.outbox a)
        { outbox := o
          group := { s.group with entries := o.stream.map (fun x => x.event.fields) } }
  | group {a : Consumer.Act} {g : Consumer.World} (hnew : ∀ fields, a ≠ .append fields)
      (h : Consumer.step ccfg lib s.group a = some g) :
      Stepped dcfg ccfg lib s (.group a) { s with group := g }

theorem step_cases {s s' : World} {a : Act} (h : step dcfg ccfg lib s a = some s') :
    Stepped dcfg ccfg lib s a s' := by
  cases a with
  | outbox a =>
    obtain ⟨o, ho, rfl⟩ := Option.map_eq_some_iff.1 h
    exact .outbox ho
  | group a =>
    cases a with
    | append fields => cases h
    | _ =>
      simp only [step, Option.map_eq_some_iff] at h
      obtain ⟨g, hg, rfl⟩ := h
      exact .group (by simp) hg

/-! ## The event id of an entry -/

/-- Whatever its parse mode, a consumer reads the producer's event id from the producer's fields. -/
theorem parse_eventId {mode : ParseMode} {m : MsgId} {e : WireEvent} {env : EventEnvelope}
    (h : parse mode lib m e.fields = some env) : env.eventId = .str e.eventId := by
  cases mode with
  | flat => exact fromFlat_eventId h
  | payload => cases h

/-- The message `m` is an entry of the stream with this event id. -/
def Carries (stream : List Outbox.Accepted) (m : MsgId) (eventId : Json) : Prop :=
  ∃ a, stream[m]? = some a ∧ eventId = .str a.event.eventId

theorem Carries.append {stream stream' : List Outbox.Accepted} {m : MsgId} {eventId : Json}
    (h : Carries stream m eventId) : Carries (stream ++ stream') m eventId := by
  obtain ⟨a, ha, he⟩ := h
  refine ⟨a, ?_, he⟩
  rw [List.getElem?_append_left, ha]
  exact (List.getElem?_eq_some_iff.1 ha).1

def envelope : Consumer.Pc → Option EventEnvelope
  | .check env | .handle env _ | .mark env => some env
  | _ => none

structure Tracked (s : World) : Prop where
  entries : s.group.entries = s.outbox.stream.map (fun a => a.event.fields)
  fetched : Consumer.Fetched s.group
  busy : ∀ τ m pc rest env, s.group.tasks τ = .busy m pc rest → envelope pc = some env →
    Carries s.outbox.stream m env.eventId
  log : ∀ m eventId, (m, .succeeded eventId) ∈ s.group.log → Carries s.outbox.stream m eventId

theorem Tracked.parse {s : World} (h : Tracked s) {mode : ParseMode} {m : MsgId}
    {env : EventEnvelope} (hm : m < s.group.entries.length)
    (hp : parse mode lib m (s.group.fields m) = some env) :
    Carries s.outbox.stream m env.eventId := by
  rw [h.entries, List.length_map] at hm
  refine ⟨s.outbox.stream[m], List.getElem?_eq_getElem hm, ?_⟩
  have hfields : s.group.fields m = s.outbox.stream[m].event.fields := by
    simp [Consumer.World.fields, h.entries, hm]
  rw [hfields] at hp
  exact parse_eventId hp

theorem outbox_stream {s s' : Outbox.World} {a : Outbox.Act}
    (h : Outbox.step dcfg lib s a = some s') : ∃ l, s'.stream = s.stream ++ l := by
  cases Outbox.step_cases h with
  | drain hm _ => exact ⟨_, rfl⟩
  | _ => exact ⟨[], (List.append_nil _).symm⟩

theorem Tracked.outbox {s : World} (h : Tracked s) {o : Outbox.World} {a : Outbox.Act}
    (ho : Outbox.step dcfg lib s.outbox a = some o) :
    Tracked { outbox := o
              group := { s.group with entries := o.stream.map (fun x => x.event.fields) } } := by
  obtain ⟨l, hl⟩ := outbox_stream ho
  have hle : s.group.entries.length ≤ (o.stream.map (fun x => x.event.fields)).length := by
    rw [h.entries, hl]
    simp
  refine ⟨rfl, ⟨?_, ?_, ?_⟩, ?_, ?_⟩
  · exact Nat.le_trans h.fetched.cursor hle
  · intro p hp
    exact Nat.lt_of_lt_of_le (h.fetched.pel p hp) hle
  · intro τ m hm
    exact Nat.lt_of_lt_of_le (h.fetched.batch τ m hm) hle
  · intro τ m pc rest env hb henv
    simp only [hl]
    exact (h.busy τ m pc rest env hb henv).append
  · intro m eventId hm
    simp only [hl]
    exact (h.log m eventId hm).append

theorem group_entries {w w' : Consumer.World} {a : Consumer.Act}
    (hnew : ∀ fields, a ≠ .append fields) (h : Consumer.step ccfg lib w a = some w') :
    w'.entries = w.entries := by
  cases Consumer.step_cases h with
  | append fields => exact absurd rfl (hnew fields)
  | next | event => exact Consumer.apply_entries ..
  | _ => rfl

theorem resolves_envelope {c : Consumer.ConsumerConfig} {env env' : EventEnvelope}
    {mv : Consumer.Move} {pc : Consumer.Pc} (h : Consumer.Resolves c env mv)
    (hn : mv.next = .await pc) (he : envelope pc = some env') : env' = env := by
  cases h with
  | raised => cases hn
  | unmatched => cases hn; cases he
  | invoked => cases hn; cases he; rfl

theorem begins_envelope {c : Consumer.ConsumerConfig} {m : MsgId} {fields : Fields}
    {mv : Consumer.Move} {pc : Consumer.Pc} {env : EventEnvelope}
    (h : Consumer.Begins c lib m fields mv) (hn : mv.next = .await pc)
    (he : envelope pc = some env) : parse c.parseMode lib m fields = some env := by
  cases h with
  | malformed => cases hn; cases he
  | check hp _ => cases hn; cases he; exact hp
  | resolve hp _ hr => rw [resolves_envelope hr hn he]; exact hp

theorem moves_envelope {c : Consumer.ConsumerConfig} {retries : Nat} {pc pc' : Consumer.Pc}
    {e : Consumer.Event} {mv : Consumer.Move} {env : EventEnvelope}
    (h : Consumer.Moves c retries pc e mv) (hn : mv.next = .await pc')
    (he : envelope pc' = some env) : envelope pc = some env := by
  cases h with
  | malformed | skipped | failed | exhausted => cases hn; cases he
  | checkRaised | unsent => cases hn
  | resolve hr => rw [resolves_envelope hr hn he]; rfl
  | succeeded =>
    simp only at hn
    split at hn
    · cases hn; exact he
    · cases hn; cases he
  | marked | cleared | acked => simp only at hn; split at hn <;> cases hn <;> cases he
  | incremented =>
    simp only at hn
    split at hn
    · cases hn; cases he
    · obtain rfl := Consumer.afterFailure_await hn
      cases he
  | expired =>
    obtain rfl := Consumer.afterFailure_await hn
    cases he

theorem begins_mark {c : Consumer.ConsumerConfig} {m : MsgId} {fields : Fields}
    {mv : Consumer.Move} (h : Consumer.Begins c lib m fields mv) (eventId : Json) :
    mv.mark ≠ some (.succeeded eventId) := by
  cases h with
  | resolve _ _ hr => cases hr <;> simp
  | _ => simp

theorem moves_mark {c : Consumer.ConsumerConfig} {retries : Nat} {pc : Consumer.Pc}
    {e : Consumer.Event} {mv : Consumer.Move} {eventId : Json}
    (h : Consumer.Moves c retries pc e mv) (hm : mv.mark = some (.succeeded eventId)) :
    ∃ env, envelope pc = some env ∧ eventId = env.eventId := by
  cases h with
  | succeeded => cases hm; exact ⟨_, rfl, rfl⟩
  | resolve hr => cases hr <;> cases hm
  | _ => cases hm

/-- A task moves on with an envelope of its message. -/
theorem Tracked.apply {s : World} (h : Tracked s) {c : Consumer.ConsumerConfig}
    {τ : Consumer.TaskId} {m : MsgId} {rest : List MsgId} {mv : Consumer.Move}
    (hfetched : Consumer.Fetched (s.group.apply c τ m rest mv))
    (hnext : ∀ pc env, mv.next = .await pc → envelope pc = some env →
      Carries s.outbox.stream m env.eventId)
    (hmark : ∀ eventId, mv.mark = some (.succeeded eventId) → Carries s.outbox.stream m eventId) :
    Tracked { s with group := s.group.apply c τ m rest mv } := by
  refine ⟨?_, hfetched, ?_, ?_⟩
  · rw [← h.entries]
    exact Consumer.apply_entries ..
  · intro τ' m' pc rest' env hb henv
    rcases Consumer.apply_busy hb with ⟨_, rfl, hn⟩ | ⟨_, hold⟩
    · exact hnext pc env hn henv
    · exact h.busy τ' m' pc rest' env hold henv
  · intro m' eventId hm'
    rcases List.mem_append.1 hm' with hold | hnew
    · exact h.log m' eventId hold
    · simp only [Option.mem_toList, Option.map_eq_some_iff, Prod.mk.injEq] at hnew
      obtain ⟨k, hk, rfl, rfl⟩ := hnew
      exact hmark eventId hk

theorem Tracked.group {s : World} (h : Tracked s) {g : Consumer.World} {a : Consumer.Act}
    (hnew : ∀ fields, a ≠ .append fields) (hg : Consumer.step ccfg lib s.group a = some g) :
    Tracked { s with group := g } := by
  have hfetched := h.fetched.step hg
  have hentries := group_entries hnew hg
  cases Consumer.step_cases hg with
  | @next τ m rest mv htask hb =>
    refine h.apply hfetched ?_ ?_
    · intro pc env hn henv
      refine h.parse ?_ (begins_envelope hb hn henv)
      exact h.fetched.batch τ m (by rw [htask]; exact .head _)
    · intro eventId hm
      exact absurd hm (begins_mark hb eventId)
  | @event τ e m pc rest mv htask hadmits hm =>
    refine h.apply hfetched ?_ ?_
    · intro pc' env hn henv
      exact h.busy τ m pc rest env htask (moves_envelope hm hn henv)
    · intro eventId hmk
      obtain ⟨env, henv, rfl⟩ := moves_mark hm hmk
      exact h.busy τ m pc rest env htask henv
  | append fields => exact absurd rfl (hnew fields)
  | _ =>
    have hq := (Consumer.step_cases hg).quiet (by simp) (by simp)
    refine ⟨hentries.trans h.entries, hfetched, ?_, ?_⟩
    · intro τ m pc rest env hb henv
      exact h.busy τ m pc rest env (hq.busy τ m pc rest hb) henv
    · intro m eventId hm
      exact h.log m eventId (hq.log ▸ hm)

theorem Tracked.step {s s' : World} {a : Act} (h : Tracked s)
    (hs : Pipeline.step dcfg ccfg lib s a = some s') : Tracked s' := by
  cases step_cases hs with
  | outbox ho => exact h.outbox ho
  | group hnew hg => exact h.group hnew hg

theorem Tracked.start (table : Table Outbox.Row.id) (now : Int) : Tracked (start table now) where
  entries := rfl
  fetched := ⟨Nat.le_refl 0, fun _ hp => absurd hp List.not_mem_nil,
    fun _ _ hm => absurd hm List.not_mem_nil⟩
  busy := by intro τ m pc rest env hb; cases hb
  log := by intro m eventId hm; cases hm

/-! ## From one event id to one handler run -/

def isSuccess : Consumer.Mark → Bool
  | .succeeded _ => true
  | _ => false

/-- Successful handler runs for the entries of a row. -/
def World.handlings (s : World) (id : Outbox.RowId) : Nat :=
  s.group.log.countP fun p => isSuccess p.2 && (s.outbox.stream[p.1]?).any (fun a => a.row == id)

/-- All entries of a row carry the same event id. -/
def SameEventId (s : World) : Prop :=
  ∀ a ∈ s.outbox.stream, ∀ b ∈ s.outbox.stream, a.row = b.row → a.event.eventId = b.event.eventId

theorem handlings_le_one {s : World} (ht : Tracked s) (hd : Consumer.Dedup s.group)
    (hsame : SameEventId s) (id : Outbox.RowId) : s.handlings id ≤ 1 := by
  by_cases hrow : ∃ a ∈ s.outbox.stream, a.row = id
  · obtain ⟨a, ha, hid⟩ := hrow
    refine Nat.le_trans ?_ (hd.once (.str a.event.eventId))
    refine List.countP_mono_left ?_
    rintro ⟨m, k⟩ hp hk
    simp only [Bool.and_eq_true, Option.any_eq_true_iff_get] at hk
    obtain ⟨hk, hsome, hb⟩ := hk
    cases k with
    | succeeded eventId =>
      obtain ⟨b, hb', rfl⟩ := ht.log m eventId hp
      simp only [hb', Option.get_some, beq_iff_eq] at hb
      have := hsame b (List.mem_of_getElem? hb') a ha (hb.trans hid.symm)
      simp [this]
    | _ => cases hk
  · have : s.handlings id = 0 := by
      rw [World.handlings, List.countP_eq_zero]
      rintro ⟨m, k⟩ _ hk
      simp only [Bool.and_eq_true, Option.any_eq_true_iff_get] at hk
      obtain ⟨_, hsome, hb⟩ := hk
      obtain ⟨b, hb'⟩ := Option.isSome_iff_exists.1 hsome
      simp only [hb', Option.get_some, beq_iff_eq] at hb
      exact hrow ⟨b, List.mem_of_getElem? hb', hb⟩
    omega

/-! ## Effectively once -/

/-- A publish the stream accepts is of a row the stream has no entry of. -/
def Fresh (s : Outbox.World) : Outbox.Act → Prop
  | .drain d (.publish _ reply _) => reply ≠ .refused →
      ∀ row rest, (s.drains d).phase = .looping (row :: rest) → s.xadds row.id = 0
  | _ => True

def isBusy : Consumer.Task → Bool
  | .busy .. => true
  | .waiting _ => false

/-- Message processings do not overlap. -/
def Serially (w : Consumer.World) : Consumer.Act → Prop
  | .next _ => ∀ τ, isBusy (w.tasks τ) = false
  | _ => True

def Deduplicates (s : World) : Act → Prop
  | .outbox _ => True
  | .group a => Serially s.group a ∧ Consumer.Remembers s.group a

/-- No row is published again, and no completed handler run stays unmarked. -/
def Unrepeated (s : World) : Act → Prop
  | .outbox a => Fresh s.outbox a
  | .group a => Consumer.Marked s.group a

theorem xadds_step {s s' : Outbox.World} {a : Outbox.Act} (h : ∀ id, s.xadds id ≤ 1)
    (hf : Fresh s a) (hs : Outbox.step dcfg lib s a = some s') : ∀ id, s'.xadds id ≤ 1 := by
  intro id
  cases Outbox.step_cases hs with
  | @drain d e m hm _ =>
    rw [Outbox.apply_xadds]
    cases hacc : m.accepts with
    | none => simpa using h id
    | some x =>
      obtain ⟨row, rest, args, eventId, hph, hrow, _, _, _, hcase⟩ := hm.accepts hacc
      have hzero : s.xadds row.id = 0 := by
        obtain ⟨exc, rfl, _⟩ | ⟨exc, rfl, _⟩ := hcase
        · exact hf (by simp) row rest hph
        · exact hf (by simp) row rest hph
      simp only [Option.map_some, Option.toList_some, List.count_singleton, hrow, beq_iff_eq]
      split
      · rename_i he
        simp only [← he, hzero, Nat.zero_add, Nat.le_refl]
      · exact h id
  | _ => exact h id

theorem sameEventId_of_xadds {s : World} (h : ∀ id, s.outbox.xadds id ≤ 1) : SameEventId s := by
  have hnodup : (s.outbox.stream.map Outbox.Accepted.row).Nodup := List.nodup_iff_count_le_one.2 h
  intro a ha b hb hrow
  rw [List.inj_on_of_nodup_map hnodup ha hb hrow]

structure Effective (s : World) : Prop where
  tracked : Tracked s
  dedup : Consumer.Dedup s.group
  serial : ∀ τ τ', isBusy (s.group.tasks τ) = true → isBusy (s.group.tasks τ') = true → τ = τ'
  once : ∀ id, s.outbox.xadds id ≤ 1

theorem isBusy_iff {t : Consumer.Task} : isBusy t = true ↔ ∃ m pc rest, t = .busy m pc rest := by
  cases t with
  | waiting batch => simp [isBusy]
  | busy m pc rest => simp [isBusy]

/-- Where processings do not overlap, a check lets nothing pass that is in a window. -/
theorem Effective.unshared {s : World} (h : Effective s) (a : Consumer.Act) :
    Consumer.Unshared s.group a := by
  cases a with
  | event τ e =>
    cases e with
    | check r =>
      rcases r with _ | _ | _
      · trivial
      · intro m env rest hb τ' hmem
        have hbusy : isBusy (s.group.tasks τ) = true := isBusy_iff.2 ⟨m, _, rest, hb⟩
        cases ht : s.group.tasks τ' with
        | waiting batch => rw [ht] at hmem; cases hmem
        | busy m' pc rest' =>
          have := h.serial τ' τ (isBusy_iff.2 ⟨m', pc, rest', ht⟩) hbusy
          subst this
          rw [hb] at hmem
          cases hmem
      · trivial
    | _ => trivial
  | _ => trivial

theorem serial_step {w w' : Consumer.World} {a : Consumer.Act}
    (h : ∀ τ τ', isBusy (w.tasks τ) = true → isBusy (w.tasks τ') = true → τ = τ')
    (hser : Serially w a) (hs : Consumer.step ccfg lib w a = some w') :
    ∀ τ τ', isBusy (w'.tasks τ) = true → isBusy (w'.tasks τ') = true → τ = τ' := by
  -- after a move of a task, only that task is inside a message
  have hmove : ∀ {τ₀ : Consumer.TaskId} {c m rest mv},
      (∀ τ, isBusy (w.tasks τ) = true → τ = τ₀) →
      ∀ τ, isBusy ((w.apply c τ₀ m rest mv).tasks τ) = true → τ = τ₀ := by
    intro τ₀ c m rest mv hold τ hb
    by_contra hne
    rw [Consumer.apply_tasks_ne hne] at hb
    exact hne (hold τ hb)
  intro τ τ' hb hb'
  cases Consumer.step_cases hs with
  | @next τ₀ m rest mv htask _ =>
    have hold : ∀ τ, isBusy (w.tasks τ) = true → τ = τ₀ := by
      intro τ hb
      rw [hser τ] at hb
      cases hb
    rw [hmove hold τ hb, hmove hold τ' hb']
  | @event τ₀ e m pc rest mv htask _ _ =>
    have hold : ∀ τ, isBusy (w.tasks τ) = true → τ = τ₀ :=
      fun τ hb => h τ τ₀ hb (isBusy_iff.2 ⟨m, pc, rest, htask⟩)
    rw [hmove hold τ hb, hmove hold τ' hb']
  | _ =>
    have hq := (Consumer.step_cases hs).quiet (by simp) (by simp)
    obtain ⟨m, pc, rest, ht⟩ := isBusy_iff.1 hb
    obtain ⟨m', pc', rest', ht'⟩ := isBusy_iff.1 hb'
    exact h τ τ' (isBusy_iff.2 ⟨m, pc, rest, hq.busy τ m pc rest ht⟩)
      (isBusy_iff.2 ⟨m', pc', rest', hq.busy τ' m' pc' rest' ht'⟩)

theorem Effective.step {s s' : World} {a : Act} (hidem : ∀ c, (ccfg c).idempotency = true)
    (h : Effective s) (hd : Deduplicates s a) (hu : Unrepeated s a)
    (hs : Pipeline.step dcfg ccfg lib s a = some s') : Effective s' := by
  have htracked := h.tracked.step hs
  cases step_cases hs with
  | outbox ho =>
    exact ⟨htracked, ⟨h.dedup.alone, h.dedup.fresh, h.dedup.known, h.dedup.once⟩, h.serial,
      xadds_step h.once hu ho⟩
  | group hnew hg =>
    exact ⟨htracked, h.dedup.step hidem hd.2 hu (h.unshared _) hg, serial_step h.serial hd.1 hg,
      h.once⟩

theorem Effective.start (table : Table Outbox.Row.id) (now : Int) : Effective (start table now) where
  tracked := .start table now
  dedup := .start
  serial := by intro τ τ' hb; cases hb
  once := by intro id; simp [Outbox.World.xadds, Pipeline.start, Outbox.start]

theorem effectively_once (dcfg : Outbox.DrainId → Outbox.DrainConfig)
    (ccfg : Consumer.ConsumerId → Consumer.ConsumerConfig) (lib : Stdlib)
    (hidem : ∀ c, (ccfg c).idempotency = true) (table : Table Outbox.Row.id) (now : Int)
    (as : List Act) (s : World)
    (h : Run (step dcfg ccfg lib) (fun s a => Deduplicates s a ∧ Unrepeated s a) (start table now)
      as s) :
    SameEventId s ∧ ∀ id, s.handlings id ≤ 1 := by
  have hi : Effective s := h.invariant (fun _ _ _ hi ho hs => hi.step hidem ho.1 ho.2 hs)
    (.start table now)
  have hsame := sameEventId_of_xadds hi.once
  exact ⟨hsame, handlings_le_one hi.tracked hi.dedup hsame⟩

/-! One row, one drainer after the other, and one consume loop. -/

def demoTasks : List Consumer.TaskId := [(0, .consume)]

/-- `Deduplicates`, for a schedule with one consume loop. -/
def dedupCheck (s : World) : Act → Bool
  | .outbox _ => true
  | .group a =>
    a.among demoTasks &&
      match a with
      | .next _ => s.group.noneAmong demoTasks isBusy
      | .event τ (.check (some false)) =>
        match s.group.tasks τ with
        | .busy _ (.check env) _ => decide (env.eventId ∉ s.group.processed)
        | _ => true
      | _ => true

def unrepeatedCheck (s : World) : Act → Bool
  | .outbox (.drain d (.publish _ _ _)) =>
    match (s.outbox.drains d).phase with
    | .looping (row :: _) => s.outbox.xadds row.id == 0
    | _ => true
  | .group (.event _ (.redis reply)) => reply == .ok
  | .group (.crash _) => false
  | _ => true

theorem dedupCheck_sound {s : World} {a : Act} (hw : s.group.within demoTasks)
    (h : dedupCheck s a = true) : Deduplicates s a := by
  cases a with
  | outbox a => trivial
  | group a =>
    simp only [dedupCheck, Bool.and_eq_true] at h
    obtain ⟨_, h⟩ := h
    cases a with
    | next τ => exact ⟨fun τ' => hw.none h rfl τ', trivial⟩
    | event τ e =>
      refine ⟨trivial, ?_⟩
      cases e with
      | check r =>
        rcases r with _ | _ | _
        · trivial
        · intro m env rest hb
          simpa [hb] using h
        · trivial
      | _ => trivial
    | _ => exact ⟨trivial, trivial⟩

theorem unrepeatedCheck_sound {s : World} {a : Act} (h : unrepeatedCheck s a = true) :
    Unrepeated s a := by
  cases a with
  | outbox a =>
    cases a with
    | drain d e =>
      cases e with
      | publish eventId reply exc =>
        intro _ row rest hph
        simpa [unrepeatedCheck, hph] using h
      | _ => trivial
    | _ => trivial
  | group a =>
    cases a with
    | event τ e =>
      cases e with
      | redis reply =>
        intro m env rest _
        rw [beq_iff_eq.1 h]
        simp
      | _ => trivial
    | crash τ => cases h
    | _ => trivial

theorem dedupCheck_within {s s' : World} {a : Act} (hw : s.group.within demoTasks)
    (h : dedupCheck s a = true) (hs : step dcfg ccfg lib s a = some s') :
    s'.group.within demoTasks := by
  cases step_cases hs with
  | outbox _ => exact hw
  | group _ hg =>
    simp only [dedupCheck, Bool.and_eq_true] at h
    exact Consumer.within_step hw h.1 hg

/-- Every entry is read and handled, one after the other. -/
def demoHandle : List Act :=
  [.group (.next (0, .consume)), .group (.event (0, .consume) (.check (some false))),
    .group (.event (0, .consume) (.handler none)), .group (.event (0, .consume) (.redis .ok)),
    .group (.event (0, .consume) (.redis .ok)), .group (.event (0, .consume) (.redis .ok))]

def demoUpdate (d : Outbox.DrainId) (reply : Reply) : Act := .outbox (.drain d (.update reply "timeout"))

def demoOnce : List Act :=
  (Outbox.demoPublish 0 Outbox.demoRow "e1" .ok).map .outbox ++
    [demoUpdate 0 .ok, .group (.read 0 1 .ok)] ++ demoHandle

theorem published_row_handled_once :
    ∃ s, Run (step (Outbox.demoConfig 10) (Consumer.demoConfig 3 true) demoLib)
        (fun s a => Deduplicates s a ∧ Unrepeated s a) (start Outbox.demoTable 0) demoOnce s ∧
      s.handlings "row" = 1 ∧ SameEventId s ∧ ∀ id, s.handlings id ≤ 1 := by
  obtain ⟨s, hs, hp⟩ := exec_any (p := fun s => s.handlings "row" == 1)
    (show (exec (Run.guarded (step (Outbox.demoConfig 10) (Consumer.demoConfig 3 true) demoLib)
      (fun s a => dedupCheck s a && unrepeatedCheck s a)) (start Outbox.demoTable 0) demoOnce).any _ =
      true by decide +kernel)
  have hrun : Run (step (Outbox.demoConfig 10) (Consumer.demoConfig 3 true) demoLib)
      (fun s a => Deduplicates s a ∧ Unrepeated s a) (start Outbox.demoTable 0) demoOnce s := by
    refine .of_guarded (I := fun s => s.group.within demoTasks) ?_ ?_ (Consumer.within_start _) hs
    · intro s a s' hw hc hstep
      rw [Bool.and_eq_true] at hc
      exact dedupCheck_within hw hc.1 hstep
    · intro s a hw hc
      rw [Bool.and_eq_true] at hc
      exact ⟨dedupCheck_sound hw hc.1, unrepeatedCheck_sound hc.2⟩
  simp only [beq_iff_eq] at hp
  exact ⟨s, hrun, hp, effectively_once _ _ _ (fun _ => rfl) _ _ _ _ hrun⟩

/-- The `UPDATE` of `published_at` fails, so the row is retried and published under a new id. -/
def demoRepublish : List Act :=
  (Outbox.demoPublish 0 Outbox.demoRow "e1" .ok).map .outbox ++
    [demoUpdate 0 .refused, demoUpdate 0 .ok, .outbox (.tick 2000000)] ++
    (Outbox.demoPublish 1 Outbox.demoRetried "e2" .ok).map .outbox ++
    [demoUpdate 1 .ok, .group (.read 0 2 .ok)] ++ demoHandle ++ demoHandle

theorem republished_row_handled_twice :
    ∃ s, Run (step (Outbox.demoConfig 10) (Consumer.demoConfig 3 true) demoLib) Deduplicates
        (start Outbox.demoTable 0) demoRepublish s ∧
      ¬ SameEventId s ∧ s.handlings "row" = 2 := by
  obtain ⟨s, hs, hp⟩ := exec_any
    (p := fun s => s.outbox.stream.map (fun a => (a.row, a.event.eventId)) ==
      [("row", "e1"), ("row", "e2")] && s.handlings "row" == 2)
    (show (exec (Run.guarded (step (Outbox.demoConfig 10) (Consumer.demoConfig 3 true) demoLib)
      dedupCheck) (start Outbox.demoTable 0) demoRepublish).any _ = true by decide +kernel)
  simp only [Bool.and_eq_true, beq_iff_eq] at hp
  refine ⟨s, ?_, ?_, hp.2⟩
  · exact .of_guarded (I := fun s => s.group.within demoTasks)
      (fun _ _ _ hw hc hstep => dedupCheck_within hw hc hstep)
      (fun _ _ hw hc => dedupCheck_sound hw hc) (Consumer.within_start _) hs
  · intro hsame
    have h1 : ("row", "e1") ∈ s.outbox.stream.map (fun a => (a.row, a.event.eventId)) := by
      rw [hp.1]; simp
    have h2 : ("row", "e2") ∈ s.outbox.stream.map (fun a => (a.row, a.event.eventId)) := by
      rw [hp.1]; simp
    obtain ⟨a, ha, hae⟩ := List.mem_map.1 h1
    obtain ⟨b, hb, hbe⟩ := List.mem_map.1 h2
    simp only [Prod.mk.injEq] at hae hbe
    have := hsame a ha b hb (hae.1.trans hbe.1.symm)
    rw [hae.2, hbe.2] at this
    exact absurd this (by decide)

end Pipeline
end Events
end TrShared
