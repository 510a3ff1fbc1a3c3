import TrShared.Events.Consumer

/-!
# TrShared.Events.ConsumerSteps

What one step of the consumer group can do, said once.

* `Moves` lists everything a task can do inside `_process_message` and `_ack`; `move_cases`
  inverts `move`, `begin_cases` inverts `begin`.
* `Stepped` lists the kinds of step; `step_cases` inverts `step`.
* `Quiet` holds for every step that is not taken inside a message: it leaves the history, the
  dead-letter stream and the acks alone and starts no work (`Stepped.quiet`).
* `Fetched`: what is in a batch or in the pending list is on the stream, in every run.
-/

namespace TrShared
namespace Events
namespace Consumer

open Python Machine

variable {cfg : ConsumerId → ConsumerConfig} {lib : Stdlib}

/-! ## One task -/

/-- Handler resolution, reached with and without an idempotency check. -/
inductive Resolves (c : ConsumerConfig) (env : EventEnvelope) : Move → Prop where
  | raised : resolveHandler c.handlers env.eventType = none → Resolves c env { next := .raised }
  | unmatched : resolveHandler c.handlers env.eventType = some none →
      Resolves c env { next := .await .ack, mark := some .unmatched }
  | invoked {h : HandlerId} : resolveHandler c.handlers env.eventType = some (some h) →
      Resolves c env { next := .await (.handle env h), mark := some .invoked }

theorem afterCheck_cases (c : ConsumerConfig) (env : EventEnvelope) :
    Resolves c env (afterCheck c env) := by
  simp only [afterCheck]
  split
  · exact .raised ‹_›
  · exact .unmatched ‹_›
  · exact .invoked ‹_›

inductive Begins (c : ConsumerConfig) (lib : Stdlib) (m : MsgId) (fields : Fields) :
    Move → Prop where
  | malformed : parse c.parseMode lib m fields = none →
      Begins c lib m fields { next := .await .malformed }
  | check {env : EventEnvelope} : parse c.parseMode lib m fields = some env →
      c.idempotency = true → Begins c lib m fields { next := .await (.check env) }
  | resolve {env : EventEnvelope} {mv : Move} : parse c.parseMode lib m fields = some env →
      c.idempotency = false → Resolves c env mv → Begins c lib m fields mv

theorem begin_cases (c : ConsumerConfig) (lib : Stdlib) (m : MsgId) (fields : Fields) :
    Begins c lib m fields (begin c lib m fields) := by
  simp only [begin]
  split
  · exact .malformed ‹_›
  · rename_i env henv
    split
    · exact .check henv ‹_›
    · rename_i hi
      exact .resolve henv (by simpa using hi) (afterCheck_cases c env)

inductive Moves (c : ConsumerConfig) (retries : Nat) : Pc → Event → Move → Prop where
  | malformed {reply : Reply} :
      Moves c retries .malformed (.redis reply)
        { next := .await .ack, effect := took reply (.deadLetter "Malformed message") }
  | checkRaised {env : EventEnvelope} :
      Moves c retries (.check env) (.check none) { next := .raised }
  | skipped {env : EventEnvelope} :
      Moves c retries (.check env) (.check (some true))
        { next := .await .ack, mark := some (.skipped env.eventId) }
  | resolve {env : EventEnvelope} {mv : Move} :
      Resolves c env mv → Moves c retries (.check env) (.check (some false)) mv
  | succeeded {env : EventEnvelope} {h : HandlerId} :
      Moves c retries (.handle env h) (.handler none)
        { next := .await (if c.idempotency then .mark env else .clear true)
          mark := some (.succeeded env.eventId) }
  | failed {env : EventEnvelope} {h : HandlerId} {exc : String} :
      Moves c retries (.handle env h) (.handler (some exc))
        { next := .await (.increment exc), mark := some .failed }
  | marked {env : EventEnvelope} {reply : Reply} :
      Moves c retries (.mark env) (.redis reply)
        { next := if reply.returned then .await (.clear true) else .raised
          effect := took reply (.mark env.eventId) }
  | cleared {ok : Bool} {reply : Reply} :
      Moves c retries (.clear ok) (.redis reply)
        { next := if reply.returned then .await .ack else .raised, effect := took reply .clear }
  | incremented {exc : String} {reply : Reply} :
      Moves c retries (.increment exc) (.redis reply)
        { next := if reply.returned then .await (.expire exc (retries + 1))
                  else afterFailure c exc c.policy.maxRetries
          effect := took reply .increment }
  | expired {exc : String} {count : Nat} {reply : Reply} :
      Moves c retries (.expire exc count) (.redis reply)
        { next := afterFailure c exc (if reply.returned then count else c.policy.maxRetries) }
  | exhausted {exc : String} {reply : Reply} :
      Moves c retries (.exhausted exc) (.redis reply)
        { next := .await (.clear false)
          effect := took reply (.deadLetter ("Max retries exceeded: " ++ exc)) }
  | acked {reply : Reply} :
      Moves c retries .ack (.redis reply)
        { next := if reply.returned then .finished else .raised, effect := took reply .ack }
  | unsent : Moves c retries .ack .unsent { next := .finished }

theorem move_cases {c : ConsumerConfig} {retries : Nat} {pc : Pc} {e : Event} {mv : Move}
    (h : move c retries pc e = some mv) : Moves c retries pc e mv := by
  unfold move at h
  split at h
  · cases h; exact .malformed
  · cases h; exact .checkRaised
  · cases h; exact .skipped
  · cases h; exact .resolve (afterCheck_cases c _)
  · cases h; exact .succeeded
  · cases h; exact .failed
  · cases h; exact .marked
  · cases h; exact .cleared
  · cases h; exact .incremented
  · cases h; exact .expired
  · cases h; exact .exhausted
  · cases h; exact .acked
  · cases h; exact .unsent
  · cases h

theorem afterFailure_cases (c : ConsumerConfig) (exc : String) (attempts : Int) :
    (c.policy.maxRetries ≤ attempts ∧ afterFailure c exc attempts = .await (.exhausted exc)) ∨
      (attempts < c.policy.maxRetries ∧ afterFailure c exc attempts = .finished) := by
  simp only [afterFailure]
  split
  · exact .inl ⟨‹_›, rfl⟩
  · exact .inr ⟨by omega, rfl⟩

/-- After a failed attempt a task waits for nothing but the dead-letter stream. -/
theorem afterFailure_await {c : ConsumerConfig} {exc : String} {attempts : Int} {pc : Pc}
    (h : afterFailure c exc attempts = .await pc) : pc = .exhausted exc := by
  rcases afterFailure_cases c exc attempts with ⟨_, hf⟩ | ⟨_, hf⟩
  · rw [hf] at h; cases h; rfl
  · rw [hf] at h; cases h

/-! ## The group -/

inductive Stepped (cfg : ConsumerId → ConsumerConfig) (lib : Stdlib) (w : World) :
    Act → World → Prop where
  | tick (dt : Nat) : Stepped cfg lib w (.tick dt) { w with now := w.now + dt }
  | append (fields : Fields) :
      Stepped cfg lib w (.append fields) { w with entries := w.entries ++ [fields] }
  | read {c : ConsumerId} {n : Nat} {reply : Reply} (hidle : w.tasks (c, .consume) = .waiting [])
      (hn : w.cursor + n ≤ w.entries.length) :
      Stepped cfg lib w (.read c n reply) (w.deliver c n reply)
  | readRefused {c : ConsumerId} {n : Nat} : Stepped cfg lib w (.read c n .refused) w
  | claim {c : ConsumerId} {ids : List MsgId} {reply : Reply}
      (hidle : w.tasks (c, .claimer) = .waiting [])
      (hids : ∀ m ∈ ids, w.claimable (cfg c).claimMinIdleMs m) :
      Stepped cfg lib w (.claim c ids reply) (w.reclaim c ids reply)
  | claimRefused {c : ConsumerId} {ids : List MsgId} : Stepped cfg lib w (.claim c ids .refused) w
  | next {τ : TaskId} {m : MsgId} {rest : List MsgId} {mv : Move}
      (htask : w.tasks τ = .waiting (m :: rest))
      (hbegin : Begins (cfg τ.1) lib m (w.fields m) mv) :
      Stepped cfg lib w (.next τ) (w.apply (cfg τ.1) τ m rest mv)
  | event {τ : TaskId} {e : Event} {m : MsgId} {pc : Pc} {rest : List MsgId} {mv : Move}
      (htask : w.tasks τ = .busy m pc rest) (hadmits : w.admits τ.1 pc e = true)
      (hmove : Moves (cfg τ.1) (w.attempts m) pc e mv) :
      Stepped cfg lib w (.event τ e) (w.apply (cfg τ.1) τ m rest mv)
  | crash (τ : TaskId) :
      Stepped cfg lib w (.crash τ) { w with tasks := Function.update w.tasks τ (.waiting []) }
  | expire : Stepped cfg lib w .expire { w with retries := fun _ => none }
  | connect (c : ConsumerId) :
      Stepped cfg lib w (.connect c) { w with stopped := Function.update w.stopped c false }
  | disconnect (c : ConsumerId) :
      Stepped cfg lib w (.disconnect c) { w with stopped := Function.update w.stopped c true }

theorem refused_of_not_took {reply : Reply} (h : ¬ reply.took = true) : reply = .refused := by
  cases reply with
  | refused => rfl
  | ok | lost => exact absurd rfl h

theorem step_cases {w w' : World} {a : Act} (h : step cfg lib w a = some w') :
    Stepped cfg lib w a w' := by
  cases a with
  | tick dt => cases h; exact .tick dt
  | append fields => cases h; exact .append fields
  | read c n reply =>
    simp only [step] at h
    split at h
    · split at h
      · rename_i hidle hn
        split at h
        · cases h; exact .read hidle hn.2.2.2
        · rename_i hr
          cases h
          rw [refused_of_not_took hr]
          exact .readRefused
      · cases h
    · cases h
  | claim c ids reply =>
    simp only [step] at h
    split at h
    · split at h
      · rename_i hidle hids
        split at h
        · cases h; exact .claim hidle hids.2.2.2
        · rename_i hr
          cases h
          rw [refused_of_not_took hr]
          exact .claimRefused
      · cases h
    · cases h
  | next τ =>
    simp only [step] at h
    split at h
    · cases h; exact .next ‹_› (begin_cases ..)
    · cases h
  | event τ e =>
    simp only [step] at h
    split at h
    · rename_i htask
      split at h
      · rename_i hadmits
        split at h
        · rename_i hmove
          cases h
          exact .event htask hadmits (move_cases hmove)
        · cases h
      · cases h
    · cases h
  | crash τ => cases h; exact .crash τ
  | expire => cases h; exact .expire
  | connect c => cases h; exact .connect c
  | disconnect c => cases h; exact .disconnect c

/-! ## Who works on what -/

def Task.works : Task → MsgId → Bool
  | .waiting _, _ => false
  | .busy m' _ _, m => m' == m

/-- The message the task starts next. -/
def Task.head : Task → Option MsgId
  | .waiting batch => batch.head?
  | .busy .. => none

/-- Nobody is inside `_process_message` for `m`. -/
def World.idle (w : World) (m : MsgId) : Prop := ∀ τ, (w.tasks τ).works m = false

theorem Task.works_iff {t : Task} {m : MsgId} : t.works m = true ↔ ∃ pc rest, t = .busy m pc rest := by
  cases t with
  | waiting batch => simp [Task.works]
  | busy m' pc rest => simp [Task.works]

/-- Every Redis call and every check succeeds and no task crashes. -/
def Calm : Act → Prop
  | .read _ _ reply | .claim _ _ reply | .event _ (.redis reply) => reply = .ok
  | .event _ (.check result) => result ≠ none
  | .crash _ => False
  | _ => True

/-! ## What the steps leave alone -/

/-- A task is inside a message after a step because it was, or because the step took it there. -/
theorem apply_busy {w : World} {c : ConsumerConfig} {τ τ' : TaskId} {m m' : MsgId}
    {rest rest' : List MsgId} {mv : Move} {pc : Pc}
    (h : (w.apply c τ m rest mv).tasks τ' = .busy m' pc rest') :
    (τ' = τ ∧ m' = m ∧ mv.next = .await pc) ∨ (τ' ≠ τ ∧ w.tasks τ' = .busy m' pc rest') := by
  by_cases hτ : τ' = τ
  · left
    subst hτ
    simp only [World.apply, Function.update_self] at h
    cases hn : mv.next with
    | await pc' =>
      rw [hn] at h
      cases h
      exact ⟨rfl, rfl, rfl⟩
    | finished => rw [hn] at h; cases h
    | raised => rw [hn] at h; cases h
  · right
    simp only [World.apply, Function.update_of_ne hτ] at h
    exact ⟨hτ, h⟩

structure Quiet (w w' : World) : Prop where
  log : w'.log = w.log
  dlq : w'.dlq = w.dlq
  acked : w'.acked = w.acked
  processed : w'.processed = w.processed
  busy : ∀ τ m pc rest, w'.tasks τ = .busy m pc rest → w.tasks τ = .busy m pc rest

theorem busy_of_update {tasks : TaskId → Task} {τ τ' : TaskId} {batch rest : List MsgId} {m : MsgId}
    {pc : Pc} (h : Function.update tasks τ (.waiting batch) τ' = .busy m pc rest) :
    tasks τ' = .busy m pc rest := by
  rcases update_cases tasks τ (.waiting batch) τ' with ⟨-, hτ⟩ | ⟨-, hτ⟩
  · rw [hτ] at h
    cases h
  · rwa [hτ] at h

theorem Stepped.quiet {w w' : World} {a : Act} (h : Stepped cfg lib w a w')
    (hnext : ∀ τ, a ≠ .next τ) (hevent : ∀ τ e, a ≠ .event τ e) : Quiet w w' := by
  cases h with
  | next => exact absurd rfl (hnext _)
  | event => exact absurd rfl (hevent _ _)
  | read | claim | crash => exact ⟨rfl, rfl, rfl, rfl, fun _ _ _ _ h => busy_of_update h⟩
  | _ => exact ⟨rfl, rfl, rfl, rfl, fun _ _ _ _ h => h⟩

/-- Without a crash it also ends no work. -/
theorem Stepped.busy_iff {w w' : World} {a : Act} (h : Stepped cfg lib w a w')
    (hnext : ∀ τ, a ≠ .next τ) (hevent : ∀ τ e, a ≠ .event τ e) {τ : TaskId}
    (hcrash : a ≠ .crash τ) {m : MsgId} {pc : Pc} {rest : List MsgId} :
    w'.tasks τ = .busy m pc rest ↔ w.tasks τ = .busy m pc rest := by
  refine ⟨(h.quiet hnext hevent).busy τ m pc rest, ?_⟩
  intro hb
  cases h with
  | next => exact absurd rfl (hnext _)
  | event => exact absurd rfl (hevent _ _)
  | read hidle | claim hidle =>
    refine (Function.update_of_ne ?_ _ _).trans hb
    rintro rfl
    rw [hidle] at hb
    cases hb
  | crash τ' =>
    refine (Function.update_of_ne ?_ _ _).trans hb
    rintro rfl
    exact hcrash rfl
  | _ => exact hb

/-! ## What is fetched -/

def Task.batch : Task → List MsgId
  | .waiting batch => batch
  | .busy _ _ rest => rest

/-- What is fetched is on the stream. -/
structure Fetched (w : World) : Prop where
  cursor : w.cursor ≤ w.entries.length
  pel : ∀ p ∈ w.pel, p.id < w.entries.length
  batch : ∀ τ, ∀ m ∈ (w.tasks τ).batch, m < w.entries.length

theorem batch_update {tasks : TaskId → Task} {τ : TaskId} {t : Task} {n : Nat}
    (h : ∀ τ, ∀ m ∈ (tasks τ).batch, m < n) (ht : ∀ m ∈ t.batch, m < n) :
    ∀ τ', ∀ m ∈ (Function.update tasks τ t τ').batch, m < n := by
  intro τ' m hm
  by_cases hτ : τ' = τ
  · subst hτ
    rw [Function.update_self] at hm
    exact ht m hm
  · rw [Function.update_of_ne hτ] at hm
    exact h τ' m hm

theorem Next.task_batch {next : Next} {m m' : MsgId} {rest : List MsgId}
    (h : m' ∈ (next.task m rest).batch) : m' ∈ rest := by
  cases next with
  | await pc => exact h
  | finished => exact h
  | raised => cases h

theorem Fetched.apply {w : World} (h : Fetched w) {c : ConsumerConfig} {τ : TaskId} {m : MsgId}
    {rest : List MsgId} {mv : Move} (hrest : ∀ m' ∈ rest, m' < w.entries.length) :
    Fetched (w.apply c τ m rest mv) := by
  have hnext : ∀ m' ∈ (mv.next.task m rest).batch, m' < w.entries.length := by
    intro m' hm'
    exact hrest m' (Next.task_batch hm')
  have hbatch := @batch_update w.tasks τ (mv.next.task m rest) _ h.batch hnext
  rcases mv with ⟨_, _ | e, _⟩
  · exact ⟨h.cursor, h.pel, hbatch⟩
  · cases e with
    | ack => exact ⟨h.cursor, fun p hp => h.pel p (PendingList.mem_of_mem_ack hp), hbatch⟩
    | _ => exact ⟨h.cursor, h.pel, hbatch⟩

theorem Fetched.step {w w' : World} {a : Act} (h : Fetched w)
    (hs : Consumer.step cfg lib w a = some w') : Fetched w' := by
  cases step_cases hs with
  | tick | readRefused | claimRefused | expire | connect | disconnect =>
    exact ⟨h.cursor, h.pel, h.batch⟩
  | append fields =>
    have hle : w.entries.length ≤ (w.entries ++ [fields]).length := by simp
    refine ⟨Nat.le_trans h.cursor hle, ?_, ?_⟩
    · intro p hp
      exact Nat.lt_of_lt_of_le (h.pel p hp) hle
    · intro τ m hm
      exact Nat.lt_of_lt_of_le (h.batch τ m hm) hle
  | @read c n reply hidle hn =>
    have hnew : ∀ m ∈ w.newIds n, m < w.entries.length := by
      intro m hm
      simp only [World.newIds, List.mem_map, List.mem_range] at hm
      obtain ⟨i, hi, rfl⟩ := hm
      exact Nat.lt_of_lt_of_le (Nat.add_lt_add_left hi _) hn
    refine ⟨hn, ?_, batch_update h.batch ?_⟩
    · intro p hp
      rcases PendingList.mem_read.1 hp with hp | ⟨hid, _⟩
      · exact h.pel p hp
      · exact hnew p.id hid
    · intro m hm
      simp only [Task.batch] at hm
      split at hm
      · exact hnew m hm
      · cases hm
  | @claim c ids reply hidle hids =>
    refine ⟨h.cursor, ?_, batch_update h.batch ?_⟩
    · intro p hp
      obtain ⟨q, hq, hid, _⟩ := PendingList.mem_claim hp
      rw [hid]
      exact h.pel q hq
    · intro m hm
      simp only [Task.batch] at hm
      split at hm
      · have hc := hids m hm
        simp only [World.claimable, List.any_eq_true, Bool.and_eq_true, beq_iff_eq] at hc
        obtain ⟨p, hp, rfl, _⟩ := hc
        exact h.pel p hp
      · cases hm
  | @next τ m rest mv htask hb =>
    exact h.apply (fun m' hm' => h.batch τ m' (by rw [htask]; exact List.mem_cons_of_mem _ hm'))
  | @event τ e m pc rest mv htask hadmits hm =>
    exact h.apply (fun m' hm' => h.batch τ m' (by rw [htask]; exact hm'))
  | crash τ => exact ⟨h.cursor, h.pel, batch_update h.batch (by intro m hm; cases hm)⟩

theorem perform_entries (w : World) (c : ConsumerConfig) (m : MsgId) (e : Option Effect) :
    (w.perform c m e).entries = w.entries := by
  rcases e with _ | e
  · rfl
  · cases e <;> rfl

theorem apply_entries (w : World) (c : ConsumerConfig) (τ : TaskId) (m : MsgId)
    (rest : List MsgId) (mv : Move) : (w.apply c τ m rest mv).entries = w.entries :=
  perform_entries w c m mv.effect

/-! ## Schedules of a few tasks -/

def Act.task : Act → Option TaskId
  | .read c _ _ => some (c, .consume)
  | .claim c _ _ => some (c, .claimer)
  | .next τ | .event τ _ | .crash τ => some τ
  | .tick _ | .append _ | .expire | .connect _ | .disconnect _ => none

def Act.among (tasks : List TaskId) (a : Act) : Bool := a.task.all (fun τ => tasks.contains τ)

/-- Only `tasks` ever took a step. -/
def World.within (w : World) (tasks : List TaskId) : Prop := ∀ τ, τ ∉ tasks → w.tasks τ = .waiting []

theorem within_start (tasks : List TaskId) : World.within {} tasks := fun _ _ => rfl

theorem within_step {w w' : World} {a : Act} {tasks : List TaskId} (h : w.within tasks)
    (ha : a.among tasks = true) (hs : step cfg lib w a = some w') : w'.within tasks := by
  have hupdate : ∀ τ t, a.task = some τ → ∀ τ', τ' ∉ tasks →
      Function.update w.tasks τ t τ' = .waiting [] := by
    intro τ t hτ τ' hτ'
    rw [Function.update_of_ne, h τ' hτ']
    rintro rfl
    simp [Act.among, hτ] at ha
    exact hτ' ha
  cases step_cases hs with
  | read | claim | crash | next | event => exact hupdate _ _ rfl
  | _ => exact h

/-- No task is in a state with the property. -/
def World.noneAmong (w : World) (tasks : List TaskId) (p : Task → Bool) : Bool :=
  tasks.all (fun τ => !p (w.tasks τ))

theorem World.within.none {w : World} {tasks : List TaskId} {p : Task → Bool} (h : w.within tasks)
    (hp : w.noneAmong tasks p = true) (hw : p (.waiting []) = false) (τ : TaskId) :
    p (w.tasks τ) = false := by
  by_cases hτ : τ ∈ tasks
  · simp only [World.noneAmong, List.all_eq_true] at hp
    simpa using hp τ hτ
  · rw [h τ hτ, hw]

def demoConfig (maxRetries : Int) (idempotency : Bool) : ConsumerId → ConsumerConfig := fun _ =>
  { retryPolicy := some { maxRetries := maxRetries }
    idempotency := idempotency
    handlers := [("user.*", 0)] }

def demoEvent : Fields := [("event_id", "e1"), ("event_type", "user.created")]

end Consumer
end Events
end TrShared
