import TrShared.Events.ConsumerSteps
import Mathlib.Data.List.Count

/-!
# TrShared.Events.ConsumerDedup

How often the handler completes for one event id, in a group whose consumers share an idempotency
checker that never forgets.

`is_processed` and `mark_processed` are two awaits with the handler between them. The time from one
to the other is the task's `window` on the event id. The invariant `Dedup` says that no two windows
are on one id and that a completed id is marked or in the window of the task that marks it. The
code does not keep the windows apart: a second delivery of the event (by a claimer, when the
handler is slow) passes the check while the first one is still in its window. `Unshared` asks that
it does not.
-/

namespace TrShared
namespace Events
namespace Consumer

open Python Machine

variable {cfg : ConsumerId → ConsumerConfig} {lib : Stdlib}

/-- Successful handler runs of an event id. -/
def World.completions (w : World) (eventId : Json) : Nat :=
  w.log.countP (fun p => p.2 == .succeeded eventId)

/-- The event id a task works on, from the check that let it pass to the mark. -/
def Pc.window : Pc → List Json
  | .handle env _ | .mark env => [env.eventId]
  | _ => []

def Task.window : Task → List Json
  | .waiting _ => []
  | .busy _ pc _ => pc.window

/-- `is_processed` knows every id that was marked. -/
def Remembers (w : World) : Act → Prop
  | .event τ (.check (some false)) => ∀ m env rest, w.tasks τ = .busy m (.check env) rest →
      env.eventId ∉ w.processed
  | _ => True

/-- A completed handler run is marked: no failure and no crash at `mark_processed`. -/
def Marked (w : World) : Act → Prop
  | .event τ (.redis reply) => ∀ m env rest, w.tasks τ = .busy m (.mark env) rest → reply ≠ .refused
  | .crash τ => ∀ m env rest, w.tasks τ ≠ .busy m (.mark env) rest
  | _ => True

/-- No check lets an event pass that is in the window of a task. -/
def Unshared (w : World) : Act → Prop
  | .event τ (.check (some false)) => ∀ m env rest, w.tasks τ = .busy m (.check env) rest →
      ∀ τ', env.eventId ∉ (w.tasks τ').window
  | _ => True

theorem Calm.marked {w : World} {a : Act} (h : Calm a) : Marked w a := by
  cases a with
  | event τ e =>
    cases e with
    | redis reply =>
      intro m env rest _
      rintro rfl
      cases h
    | _ => trivial
  | crash τ => exact h.elim
  | _ => trivial

structure Dedup (w : World) : Prop where
  alone : Exclusive (fun τ => (w.tasks τ).window)
  fresh : ∀ τ m env handler rest, w.tasks τ = .busy m (.handle env handler) rest →
    w.completions env.eventId = 0
  known : ∀ eventId, 0 < w.completions eventId → eventId ∈ w.processed ∨
    ∃ τ m env rest, w.tasks τ = .busy m (.mark env) rest ∧ env.eventId = eventId
  once : ∀ eventId, w.completions eventId ≤ 1

theorem completions_apply (w : World) (c : ConsumerConfig) (τ : TaskId) (m : MsgId)
    (rest : List MsgId) (mv : Move) (eventId : Json) :
    (w.apply c τ m rest mv).completions eventId =
      w.completions eventId + if mv.mark = some (.succeeded eventId) then 1 else 0 := by
  cases h : mv.mark with
  | none => simp [World.completions, World.apply, h]
  | some k => simp [World.completions, World.apply, h, List.countP_cons]

theorem processed_apply {w : World} {c : ConsumerConfig} {τ : TaskId} {m : MsgId}
    {rest : List MsgId} {mv : Move} {eventId : Json} (h : eventId ∈ w.processed) :
    eventId ∈ (w.apply c τ m rest mv).processed := by
  rcases mv with ⟨_, _ | e, _⟩
  · exact h
  · cases e <;> simp [World.apply, World.perform, h]

theorem apply_tasks_ne {w : World} {c : ConsumerConfig} {τ τ' : TaskId} (hne : τ' ≠ τ) {m : MsgId}
    {rest : List MsgId} {mv : Move} : (w.apply c τ m rest mv).tasks τ' = w.tasks τ' :=
  Function.update_of_ne hne _ _

def Next.window : Next → List Json
  | .await pc => pc.window
  | .finished | .raised => []

theorem apply_window (w : World) (c : ConsumerConfig) (τ : TaskId) (m : MsgId)
    (rest : List MsgId) (mv : Move) :
    (fun τ' => ((w.apply c τ m rest mv).tasks τ').window) =
      Function.update (fun τ' => (w.tasks τ').window) τ mv.next.window := by
  funext τ'
  by_cases hτ : τ' = τ
  · subst hτ
    simp only [World.apply, Function.update_self]
    cases mv.next <;> rfl
  · rw [apply_tasks_ne hτ, Function.update_of_ne hτ]

/-- A task leaves its window, or moves outside of it. -/
theorem Dedup.leave {w : World} (h : Dedup w) {c : ConsumerConfig} {τ : TaskId} {m : MsgId}
    {rest : List MsgId} {mv : Move} (hwindow : mv.next.window = [])
    (hmark : ∀ eventId, mv.mark ≠ some (.succeeded eventId))
    (hmarked : ∀ m' env rest', w.tasks τ = .busy m' (.mark env) rest' →
      env.eventId ∈ (w.apply c τ m rest mv).processed) : Dedup (w.apply c τ m rest mv) := by
  have hcompl : ∀ eventId, (w.apply c τ m rest mv).completions eventId = w.completions eventId := by
    intro eventId
    rw [completions_apply, if_neg (hmark eventId), Nat.add_zero]
  constructor
  case alone =>
    rw [apply_window, hwindow]
    exact h.alone.release (List.nil_sublist _)
  case fresh =>
    intro τ' m' env handler rest' hb
    rw [hcompl]
    rcases apply_busy hb with ⟨_, _, hn⟩ | ⟨_, hold⟩
    · rw [hn] at hwindow
      cases hwindow
    · exact h.fresh τ' m' env handler rest' hold
  case known =>
    intro eventId hpos
    rw [hcompl] at hpos
    rcases h.known eventId hpos with hp | ⟨τ', m', env, rest', hb, rfl⟩
    · exact .inl (processed_apply hp)
    · by_cases hτ : τ' = τ
      · subst hτ
        exact .inl (hmarked m' env rest' hb)
      · exact .inr ⟨τ', m', env, rest', (apply_tasks_ne hτ).trans hb, rfl⟩
  case once =>
    intro eventId
    rw [hcompl]
    exact h.once eventId

theorem Dedup.outside {w : World} (h : Dedup w) {c : ConsumerConfig} {τ : TaskId} {m : MsgId}
    {rest : List MsgId} {mv : Move}
    (hpc : ∀ m' env rest', w.tasks τ ≠ .busy m' (.mark env) rest') (hwindow : mv.next.window = [])
    (hmark : ∀ eventId, mv.mark ≠ some (.succeeded eventId)) : Dedup (w.apply c τ m rest mv) :=
  h.leave hwindow hmark (fun m' env rest' hb => absurd hb (hpc m' env rest'))

/-- A task passes the check. -/
theorem Dedup.enter {w : World} (h : Dedup w) {c : ConsumerConfig} {τ : TaskId} {m : MsgId}
    {rest : List MsgId} {env : EventEnvelope} {handler : HandlerId}
    (htask : w.tasks τ = .busy m (.check env) rest) (hfresh : env.eventId ∉ w.processed)
    (halone : ∀ τ', env.eventId ∉ (w.tasks τ').window) :
    Dedup (w.apply c τ m rest { next := .await (.handle env handler), mark := some .invoked }) := by
  have hzero : w.completions env.eventId = 0 := by
    by_contra hne
    rcases h.known env.eventId (Nat.pos_of_ne_zero hne) with hp | ⟨τ', m', env', rest', hb, he⟩
    · exact hfresh hp
    · refine halone τ' ?_
      rw [hb, ← he]
      exact .head _
  constructor
  case alone =>
    rw [apply_window]
    refine h.alone.acquire (by simp [Next.window, Pc.window]) ?_
    intro τ' _ eventId he
    rw [List.mem_singleton.1 he]
    exact halone τ'
  case fresh =>
    intro τ' m' env' handler' rest' hb
    rw [completions_apply, if_neg (by simp), Nat.add_zero]
    rcases apply_busy hb with ⟨_, _, hn⟩ | ⟨_, hold⟩
    · cases hn
      exact hzero
    · exact h.fresh τ' m' env' handler' rest' hold
  case known =>
    intro eventId hpos
    rw [completions_apply, if_neg (by simp), Nat.add_zero] at hpos
    rcases h.known eventId hpos with hp | ⟨τ', m', env', rest', hb, he⟩
    · exact .inl hp
    · refine .inr ⟨τ', m', env', rest', ?_, he⟩
      refine (apply_tasks_ne ?_).trans hb
      rintro rfl
      rw [htask] at hb
      cases hb
  case once =>
    intro eventId
    rw [completions_apply, if_neg (by simp), Nat.add_zero]
    exact h.once eventId

/-- The handler returns. -/
theorem Dedup.complete {w : World} (h : Dedup w) {c : ConsumerConfig} {τ : TaskId} {m : MsgId}
    {rest : List MsgId} {env : EventEnvelope} {handler : HandlerId}
    (htask : w.tasks τ = .busy m (.handle env handler) rest) :
    Dedup (w.apply c τ m rest
      { next := .await (.mark env), mark := some (.succeeded env.eventId) }) := by
  have hzero := h.fresh τ m env handler rest htask
  have hcompl : ∀ eventId, (w.apply c τ m rest
      { next := .await (.mark env), mark := some (.succeeded env.eventId) }).completions eventId =
        w.completions eventId + if env.eventId = eventId then 1 else 0 := by
    intro eventId
    rw [completions_apply]
    simp
  have hself : env.eventId ∈ (w.tasks τ).window := by rw [htask]; exact .head _
  constructor
  case alone =>
    rw [apply_window]
    refine h.alone.release ?_
    rw [htask]
    exact List.Sublist.refl _
  case fresh =>
    intro τ' m' env' handler' rest' hb
    rcases apply_busy hb with ⟨_, _, hn⟩ | ⟨hne, hold⟩
    · cases hn
    · rw [hcompl, if_neg, Nat.add_zero]
      · exact h.fresh τ' m' env' handler' rest' hold
      · intro he
        refine hne (h.alone.owner_unique (k := env.eventId) ?_ hself)
        rw [hold, he]
        exact .head _
  case known =>
    intro eventId hpos
    by_cases he : env.eventId = eventId
    · refine .inr ⟨τ, m, env, rest, ?_, he⟩
      simp [World.apply, Next.task]
    · rw [hcompl, if_neg he, Nat.add_zero] at hpos
      rcases h.known eventId hpos with hp | ⟨τ', m', env', rest', hb, he'⟩
      · exact .inl hp
      · refine .inr ⟨τ', m', env', rest', ?_, he'⟩
        refine (apply_tasks_ne ?_).trans hb
        rintro rfl
        rw [htask] at hb
        cases hb
  case once =>
    intro eventId
    rw [hcompl]
    split
    · rename_i he
      simp only [← he, hzero, Nat.zero_add, Nat.le_refl]
    · exact h.once eventId

theorem Quiet.window_sublist {w w' : World} (hq : Quiet w w') (τ : TaskId) :
    (w'.tasks τ).window.Sublist (w.tasks τ).window := by
  cases h : w'.tasks τ with
  | waiting batch => exact List.nil_sublist _
  | busy m pc rest =>
    rw [hq.busy τ m pc rest h]

theorem Dedup.quiet {w w' : World} (h : Dedup w) (hq : Quiet w w')
    (hmarking : ∀ τ m env rest, w.tasks τ = .busy m (.mark env) rest →
      w'.tasks τ = .busy m (.mark env) rest) : Dedup w' := by
  have hcompl : ∀ eventId, w'.completions eventId = w.completions eventId := by
    intro eventId
    simp only [World.completions, hq.log]
  constructor
  case alone => exact h.alone.mono hq.window_sublist
  case fresh =>
    intro τ m env handler rest hb
    rw [hcompl]
    exact h.fresh τ m env handler rest (hq.busy τ m _ rest hb)
  case known =>
    intro eventId hpos
    rw [hcompl] at hpos
    rw [hq.processed]
    rcases h.known eventId hpos with hp | ⟨τ, m, env, rest, hb, he⟩
    · exact .inl hp
    · exact .inr ⟨τ, m, env, rest, hmarking τ m env rest hb, he⟩
  case once =>
    intro eventId
    rw [hcompl]
    exact h.once eventId

theorem afterFailure_window (c : ConsumerConfig) (exc : String) (attempts : Int) :
    (afterFailure c exc attempts).window = [] := by
  rcases afterFailure_cases c exc attempts with ⟨_, h⟩ | ⟨_, h⟩ <;> rw [h] <;> rfl

theorem Dedup.event {w : World} (h : Dedup w) {c : ConsumerConfig} {τ : TaskId} {m : MsgId}
    {pc : Pc} {rest : List MsgId} {e : Event} {mv : Move} {retries : Nat}
    (htask : w.tasks τ = .busy m pc rest) (hm : Moves c retries pc e mv)
    (hidem : c.idempotency = true) (hr : Remembers w (.event τ e)) (hmk : Marked w (.event τ e))
    (hu : Unshared w (.event τ e)) : Dedup (w.apply c τ m rest mv) := by
  have hout : (∀ env, pc ≠ .mark env) → ∀ m' env rest', w.tasks τ ≠ .busy m' (.mark env) rest' := by
    intro hpc m' env rest' hb
    rw [htask] at hb
    cases hb
    exact hpc env rfl
  cases hm with
  | malformed | checkRaised | skipped | failed | exhausted | unsent =>
    exact h.outside (hout (by simp)) rfl (by simp)
  | resolve hres =>
    cases hres with
    | raised | unmatched => exact h.outside (hout (by simp)) rfl (by simp)
    | invoked => exact h.enter htask (hr m _ rest htask) (hu m _ rest htask)
  | succeeded =>
    rw [hidem]
    exact h.complete htask
  | @marked env reply =>
    refine h.leave ?_ (by simp) ?_
    · cases reply <;> rfl
    · intro m' env' rest' hb
      rw [htask] at hb
      cases hb
      have hne := hmk m env rest htask
      cases reply with
      | refused => exact absurd rfl hne
      | ok | lost => simp [World.apply, World.perform, took, Reply.took]
  | @cleared ok reply =>
    refine h.outside (hout (by simp)) ?_ (by simp)
    cases reply <;> rfl
  | @incremented exc reply =>
    refine h.outside (hout (by simp)) ?_ (by simp)
    cases reply with
    | ok => rfl
    | lost | refused => exact afterFailure_window ..
  | expired => exact h.outside (hout (by simp)) (afterFailure_window ..) (by simp)
  | @acked reply =>
    refine h.outside (hout (by simp)) ?_ (by simp)
    cases reply <;> rfl

theorem Dedup.step {w w' : World} {a : Act} (hidem : ∀ c, (cfg c).idempotency = true)
    (h : Dedup w) (hr : Remembers w a) (hmk : Marked w a) (hu : Unshared w a)
    (hs : Consumer.step cfg lib w a = some w') : Dedup w' := by
  cases step_cases hs with
  | @next τ m rest mv htask hb =>
    have hout : ∀ m' env rest', w.tasks τ ≠ .busy m' (.mark env) rest' := by
      intro m' env rest' hb'
      rw [htask] at hb'
      cases hb'
    cases hb with
    | malformed | check => exact h.outside hout rfl (by simp)
    | resolve _ hno _ => rw [hidem] at hno; cases hno
  | event htask _ hm => exact h.event htask hm (hidem _) hr hmk hu
  | crash τ =>
    refine h.quiet ((step_cases hs).quiet (by simp) (by simp)) ?_
    intro τ' m env rest hb
    refine ((step_cases hs).busy_iff (by simp) (by simp) ?_).2 hb
    rintro ⟨⟩
    exact hmk m env rest hb
  | _ =>
    refine h.quiet ((step_cases hs).quiet (by simp) (by simp)) ?_
    intro τ' m env rest hb
    exact ((step_cases hs).busy_iff (by simp) (by simp) (by simp)).2 hb

theorem Dedup.start : Dedup {} where
  alone := ⟨fun _ => List.nodup_nil, fun _ _ _ _ h => absurd h List.not_mem_nil⟩
  fresh := by intro τ m env handler rest hb; cases hb
  known := by intro eventId hpos; simp [World.completions] at hpos
  once := by intro eventId; simp [World.completions]

theorem completes_at_most_once (cfg : ConsumerId → ConsumerConfig) (lib : Stdlib)
    (hidem : ∀ c, (cfg c).idempotency = true) (as : List Act) (w : World)
    (h : Run (step cfg lib) (fun w a => Calm a ∧ Remembers w a ∧ Unshared w a) {} as w) :
    ∀ eventId, w.completions eventId ≤ 1 := by
  have hi : Dedup w := h.invariant
    (fun _ _ _ hi ho hs => hi.step hidem ho.2.1 ho.1.marked ho.2.2 hs) .start
  exact hi.once

/-! One event, and the two tasks of one consumer. -/

def demoLoops : List TaskId := [(0, .consume), (0, .claimer)]

/-- `Calm` and `Remembers`, for a schedule of the two tasks. -/
def calmCheck (w : World) (a : Act) : Bool :=
  a.among demoLoops &&
    match a with
    | .event τ (.check (some false)) =>
      match w.tasks τ with
      | .busy _ (.check env) _ => decide (env.eventId ∉ w.processed)
      | _ => true
    | .event _ (.check none) | .crash _ => false
    | .event _ (.redis reply) | .read _ _ reply | .claim _ _ reply => reply == .ok
    | _ => true

def unsharedCheck (w : World) : Act → Bool
  | .event τ (.check (some false)) =>
    match w.tasks τ with
    | .busy _ (.check env) _ => w.noneAmong demoLoops (fun t => decide (env.eventId ∈ t.window))
    | _ => true
  | _ => true

theorem calmCheck_sound {w : World} {a : Act} (h : calmCheck w a = true) : Calm a ∧ Remembers w a := by
  simp only [calmCheck, Bool.and_eq_true] at h
  obtain ⟨_, h⟩ := h
  cases a with
  | event τ e =>
    cases e with
    | handler | unsent => exact ⟨trivial, trivial⟩
    | redis reply => exact ⟨beq_iff_eq.1 h, trivial⟩
    | check r =>
      rcases r with _ | _ | _
      · cases h
      · refine ⟨by simp [Calm], ?_⟩
        intro m env rest hb
        simpa [hb] using h
      · exact ⟨by simp [Calm], trivial⟩
  | read c n reply => exact ⟨beq_iff_eq.1 h, trivial⟩
  | claim c ids reply => exact ⟨beq_iff_eq.1 h, trivial⟩
  | crash τ => cases h
  | _ => exact ⟨trivial, trivial⟩

theorem unsharedCheck_sound {w : World} {a : Act} (hw : w.within demoLoops)
    (h : unsharedCheck w a = true) : Unshared w a := by
  cases a with
  | event τ e =>
    cases e with
    | check r =>
      rcases r with _ | _ | _
      · trivial
      · intro m env rest hb τ'
        simp only [unsharedCheck, hb] at h
        simpa using hw.none h (by simp [Task.window]) τ'
      · trivial
    | _ => trivial
  | _ => trivial

/-- The event is handled, marked and acked, and appended again with the same id. -/
def demoDuplicate : List Act :=
  [.append demoEvent, .append demoEvent, .read 0 2 .ok, .next (0, .consume),
    .event (0, .consume) (.check (some false)), .event (0, .consume) (.handler none),
    .event (0, .consume) (.redis .ok), .event (0, .consume) (.redis .ok),
    .event (0, .consume) (.redis .ok), .next (0, .consume),
    .event (0, .consume) (.check (some true)), .event (0, .consume) (.redis .ok)]

theorem duplicate_is_skipped :
    ∃ w, Run (step (demoConfig 3 true) demoLib)
        (fun w a => Calm a ∧ Remembers w a ∧ Unshared w a) {} demoDuplicate w ∧
      w.acked = [0, 1] ∧ w.completions (.str "e1") = 1 ∧ ∀ eventId, w.completions eventId ≤ 1 := by
  obtain ⟨w, hw, hp⟩ := exec_any
    (p := fun w => w.acked == [0, 1] && w.completions (.str "e1") == 1)
    (show (exec (Run.guarded (step (demoConfig 3 true) demoLib)
      (fun w a => calmCheck w a && unsharedCheck w a)) {} demoDuplicate).any _ = true by decide)
  have hrun : Run (step (demoConfig 3 true) demoLib)
      (fun w a => Calm a ∧ Remembers w a ∧ Unshared w a) {} demoDuplicate w := by
    refine .of_guarded (I := fun w => w.within demoLoops) ?_ ?_ (within_start _) hw
    · intro s a s' hs hc hstep
      simp only [Bool.and_eq_true, calmCheck] at hc
      exact within_step hs hc.1.1 hstep
    · intro s a hs hc
      rw [Bool.and_eq_true] at hc
      obtain ⟨hcalm, hrem⟩ := calmCheck_sound hc.1
      exact ⟨hcalm, hrem, unsharedCheck_sound hs hc.2⟩
  simp only [Bool.and_eq_true, beq_iff_eq] at hp
  exact ⟨w, hrun, hp.1, hp.2, completes_at_most_once _ _ (fun _ => rfl) _ _ hrun⟩

/-- The handler takes longer than `claim_min_idle_ms`: the consumer's own claimer reclaims the entry,
passes the check too, and both handler runs succeed. -/
def demoSlowHandler : List Act :=
  [.append demoEvent, .read 0 1 .ok, .next (0, .consume),
    .event (0, .consume) (.check (some false)), .tick 30000, .claim 0 [0] .ok, .next (0, .claimer),
    .event (0, .claimer) (.check (some false)), .event (0, .consume) (.handler none),
    .event (0, .claimer) (.handler none)]

theorem slow_handler_completes_twice :
    ∃ w, Run (step (demoConfig 3 true) demoLib) (fun w a => Calm a ∧ Remembers w a) {}
        demoSlowHandler w ∧
      ¬ ∀ eventId, w.completions eventId ≤ 1 := by
  obtain ⟨w, hw, hp⟩ := exec_any (p := fun w => w.completions (.str "e1") == 2)
    (show (exec (Run.guarded (step (demoConfig 3 true) demoLib) calmCheck) {} demoSlowHandler).any _ =
      true by decide)
  refine ⟨w, ?_, ?_⟩
  · refine .of_guarded (I := fun _ => True) (fun _ _ _ _ _ _ => trivial) ?_ trivial hw
    intro s a _ hc
    exact calmCheck_sound hc
  · intro h
    have := h (.str "e1")
    simp only [beq_iff_eq] at hp
    omega

end Consumer
end Events
end TrShared
