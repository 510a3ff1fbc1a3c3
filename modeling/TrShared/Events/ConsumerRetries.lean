import TrShared.Events.ConsumerSteps
import Mathlib.Data.List.Count

/-!
# TrShared.Events.ConsumerRetries

Retry accounting of a group without an idempotency checker, when no call fails.

* `lastAttempt` is the attempt that decides an entry: its first success, or attempt
  `max(1, max_retries)`.
* `Book` is all that the group knows about one entry, and `Standing` what it looks like at each
  await of the task that works on the entry, or between two attempts. `Book` of an entry only
  changes by the moves of that task (`book_apply_ne`).
* `retry_accounting` reads the numbers of the entry off in every state reached.

A batch is a snapshot: an entry in it may have been reclaimed, finished and acked by another task
before its turn comes. `Unacked` asks that this does not happen. And `stop` disconnects while a
batch is worked through: an ack that comes after it is not sent and the entry is delivered again.
`Acking` asks that no ack is left out like this.
-/

namespace TrShared
namespace Events
namespace Consumer

open Python Machine

variable {cfg : ConsumerId → ConsumerConfig} {lib : Stdlib}

/-! ## The deciding attempt -/

def attemptLimit (maxRetries : Int) : Nat := (max 1 maxRetries).toNat

/-- The first successful attempt if it is within the limit, else the limit. `outcome n` is the
exception of attempt `n`, counted from 1. -/
def lastAttempt (outcome : Nat → Option String) (maxRetries : Int) : Nat :=
  match (List.range (attemptLimit maxRetries)).find? (fun i => (outcome (i + 1)).isNone) with
  | some i => i + 1
  | none => attemptLimit maxRetries

theorem one_le_attemptLimit (maxRetries : Int) : 1 ≤ attemptLimit maxRetries := by
  simp only [attemptLimit]
  omega

theorem attemptLimit_le_iff {maxRetries : Int} {n : Nat} (hn : 1 ≤ n) :
    attemptLimit maxRetries ≤ n ↔ maxRetries ≤ n := by
  simp only [attemptLimit]
  omega

structure LastAttempt (outcome : Nat → Option String) (maxRetries : Int) (k : Nat) : Prop where
  pos : 1 ≤ k
  le : k ≤ attemptLimit maxRetries
  failing : ∀ j, 1 ≤ j → j < k → outcome j ≠ none
  decided : outcome k = none ∨ k = attemptLimit maxRetries

theorem lastAttempt_spec (outcome : Nat → Option String) (maxRetries : Int) :
    LastAttempt outcome maxRetries (lastAttempt outcome maxRetries) := by
  simp only [lastAttempt]
  split
  · rename_i i hi
    rw [List.find?_range_eq_some] at hi
    obtain ⟨hnone, hlt, hbefore⟩ := hi
    rw [List.mem_range] at hlt
    refine ⟨by omega, by omega, ?_, .inl (by simpa using hnone)⟩
    intro j hj hji
    have := hbefore (j - 1) (by omega)
    rw [Nat.sub_add_cancel hj] at this
    simpa [Option.isSome_iff_ne_none] using this
  · rename_i hi
    rw [List.find?_range_eq_none] at hi
    refine ⟨one_le_attemptLimit _, Nat.le_refl _, ?_, .inr rfl⟩
    intro j hj hjl
    have := hi (j - 1) (by omega)
    rw [Nat.sub_add_cancel hj] at this
    simpa [Option.isSome_iff_ne_none] using this

/-- The deciding attempt fails exactly when every allowed attempt fails. -/
theorem lastAttempt_fails_iff (outcome : Nat → Option String) (maxRetries : Int) :
    outcome (lastAttempt outcome maxRetries) ≠ none ↔
      ∀ j, 1 ≤ j → j ≤ attemptLimit maxRetries → outcome j ≠ none := by
  have hk := lastAttempt_spec outcome maxRetries
  constructor
  · intro hfail j hj hjl
    have hlimit := hk.decided.resolve_left hfail
    by_cases hjk : j = lastAttempt outcome maxRetries
    · rw [hjk]; exact hfail
    · exact hk.failing j hj (by omega)
  · intro h
    exact h _ hk.pos hk.le

theorem LastAttempt.eq_of_success {outcome : Nat → Option String} {maxRetries : Int} {k n : Nat}
    (h : LastAttempt outcome maxRetries k) (hn : 1 ≤ n) (hk : n ≤ k) (hs : outcome n = none) :
    n = k := by
  by_contra hne
  exact h.failing n hn (by omega) hs

theorem LastAttempt.lt_of_failure {outcome : Nat → Option String} {maxRetries : Int} {k n : Nat}
    (h : LastAttempt outcome maxRetries k) (hk : n ≤ k) (hf : outcome n ≠ none)
    (hlt : n < attemptLimit maxRetries) : n < k := by
  rcases h.decided with hd | hd
  · have : n ≠ k := by rintro rfl; exact hf hd
    omega
  · omega

/-! ## The book of one entry -/

def World.invocations (w : World) (m : MsgId) : Nat := w.log.count (m, .invoked)

def World.failures (w : World) (m : MsgId) : Nat := w.log.count (m, .failed)

def World.deadLetters (w : World) (m : MsgId) : Nat :=
  (w.dlq.map DeadLetter.originalMessageId).count m

structure Book where
  tried : Nat
  failed : Nat
  counted : Option Nat
  dead : Nat
  acked : Prop

def World.book (w : World) (m : MsgId) : Book :=
  ⟨w.invocations m, w.failures m, w.retries m, w.deadLetters m, m ∈ w.acked⟩

def Book.after (b : Book) (mv : Move) : Book where
  tried := b.tried + if mv.mark = some .invoked then 1 else 0
  failed := b.failed + if mv.mark = some .failed then 1 else 0
  counted :=
    match mv.effect with
    | some .increment => some (b.counted.getD 0 + 1)
    | some .clear => none
    | _ => b.counted
  dead :=
    match mv.effect with
    | some (.deadLetter _) => b.dead + 1
    | _ => b.dead
  acked := b.acked ∨ mv.effect = some .ack

theorem count_mark (m m' : MsgId) (mark : Option Mark) (k : Mark) :
    (mark.map (fun k => (m, k))).toList.count (m', k) =
      if m = m' ∧ mark = some k then 1 else 0 := by
  cases mark with
  | none => simp
  | some k' => simp [List.count_singleton]

theorem book_apply (w : World) (c : ConsumerConfig) (τ : TaskId) (m : MsgId) (rest : List MsgId)
    (mv : Move) : (w.apply c τ m rest mv).book m = (w.book m).after mv := by
  have hinv : (w.apply c τ m rest mv).invocations m = ((w.book m).after mv).tried := by
    simp [World.invocations, World.apply, count_mark, World.book, Book.after]
  have hfail : (w.apply c τ m rest mv).failures m = ((w.book m).after mv).failed := by
    simp [World.failures, World.apply, count_mark, World.book, Book.after]
  simp only [World.book, hinv, hfail, Book.mk.injEq, Book.after, true_and]
  rcases mv with ⟨_, _ | e, _⟩
  · simp [World.apply, World.perform, World.deadLetters]
  · cases e <;>
      simp [World.apply, World.perform, World.deadLetters, World.attempts]

theorem book_apply_ne (w : World) (c : ConsumerConfig) (τ : TaskId) {m m' : MsgId}
    (hne : m' ≠ m) (rest : List MsgId) (mv : Move) :
    (w.apply c τ m rest mv).book m' = w.book m' := by
  have hne' : m ≠ m' := fun h => hne h.symm
  have hinv : (w.apply c τ m rest mv).invocations m' = w.invocations m' := by
    simp [World.invocations, World.apply, count_mark, hne']
  have hfail : (w.apply c τ m rest mv).failures m' = w.failures m' := by
    simp [World.failures, World.apply, count_mark, hne']
  simp only [World.book, hinv, hfail, Book.mk.injEq, true_and]
  rcases mv with ⟨_, _ | e, _⟩
  · simp [World.apply, World.perform, World.deadLetters]
  · cases e <;> simp [World.apply, World.perform, World.deadLetters, hne, hne']

/-! ## One attempt -/

/-- Dead-letter records of an entry when it is acked. -/
def deaths (outcome : Nat → Option String) (maxRetries : Int) : Nat :=
  if outcome (lastAttempt outcome maxRetries) = none then 0 else 1

/-- The book while a task stands at `pc` with the entry, and (`none`) while nobody does. -/
def Standing (outcome : Nat → Option String) (maxRetries : Int) (b : Book) : Option Pc → Prop
  | none =>
    (¬ b.acked ∧ b.tried < lastAttempt outcome maxRetries ∧ b.failed = b.tried ∧
      b.counted.getD 0 = b.failed ∧ b.dead = 0) ∨
    (b.acked ∧ b.tried = lastAttempt outcome maxRetries ∧ b.counted = none ∧
      b.dead = deaths outcome maxRetries)
  | some (.handle _ _) =>
    ¬ b.acked ∧ b.tried ≤ lastAttempt outcome maxRetries ∧ b.failed + 1 = b.tried ∧
      b.counted.getD 0 = b.failed ∧ b.dead = 0
  | some (.increment _) =>
    ¬ b.acked ∧ b.tried ≤ lastAttempt outcome maxRetries ∧ 1 ≤ b.tried ∧ outcome b.tried ≠ none ∧
      b.failed = b.tried ∧ b.counted.getD 0 + 1 = b.failed ∧ b.dead = 0
  | some (.expire _ n) =>
    ¬ b.acked ∧ b.tried ≤ lastAttempt outcome maxRetries ∧ 1 ≤ b.tried ∧ outcome b.tried ≠ none ∧
      b.failed = b.tried ∧ b.counted.getD 0 = b.failed ∧ n = b.failed ∧ b.dead = 0
  | some (.exhausted _) =>
    ¬ b.acked ∧ b.tried = lastAttempt outcome maxRetries ∧ outcome b.tried ≠ none ∧
      b.counted.getD 0 = b.failed ∧ b.dead = 0
  | some (.clear _) =>
    ¬ b.acked ∧ b.tried = lastAttempt outcome maxRetries ∧ b.counted.getD 0 = b.failed ∧
      b.dead = deaths outcome maxRetries
  | some .ack =>
    ¬ b.acked ∧ b.tried = lastAttempt outcome maxRetries ∧ b.counted = none ∧
      b.dead = deaths outcome maxRetries
  | some _ => False

def Next.pc : Next → Option Pc
  | .await pc => some pc
  | .finished | .raised => none

theorem Standing.move {outcome : Nat → Option String} {c : ConsumerConfig} {retries : Nat}
    {b : Book} {pc : Pc} {e : Event} {mv : Move}
    (h : Standing outcome c.policy.maxRetries b (some pc)) (hm : Moves c retries pc e mv)
    (hidem : c.idempotency = false) (hretries : retries = b.counted.getD 0)
    (hcalm : ∀ reply, e = .redis reply → reply = .ok) (hsent : e ≠ .unsent)
    (hassigned : ∀ exc, e = .handler exc → exc = outcome b.tried) :
    Standing outcome c.policy.maxRetries (b.after mv) mv.next.pc := by
  have hk := lastAttempt_spec outcome c.policy.maxRetries
  cases hm with
  | malformed | checkRaised | skipped | resolve | marked => exact h.elim
  | succeeded =>
    obtain ⟨hack, htried, hfailed, hcount, hdead⟩ := h
    have hs : outcome b.tried = none := (hassigned none rfl).symm
    have heq := hk.eq_of_success (by omega) htried hs
    simp only [hidem, Bool.false_eq_true, if_false, Next.pc, Standing, Book.after]
    refine ⟨by simpa using hack, by simpa using heq, by simpa using hcount, ?_⟩
    simp [deaths, ← heq, hs, hdead]
  | @failed env handler exc =>
    obtain ⟨hack, htried, hfailed, hcount, hdead⟩ := h
    have hf : outcome b.tried ≠ none := by rw [← hassigned _ rfl]; simp
    simp only [Next.pc, Standing, Book.after]
    refine ⟨by simpa using hack, by simpa using htried, ?_, by simpa using hf, ?_, ?_, hdead⟩
    · simp; omega
    · simp; omega
    · simp; omega
  | cleared =>
    obtain ⟨hack, htried, hcount, hdead⟩ := h
    cases hcalm _ rfl
    exact ⟨by simpa [Book.after, took, Reply.took] using hack, by simpa [Book.after] using htried,
      rfl, hdead⟩
  | incremented =>
    obtain ⟨hack, htried, hpos, hf, hfailed, hcount, hdead⟩ := h
    cases hcalm _ rfl
    simp only [Reply.returned, if_true, Next.pc, Standing, Book.after, took, Reply.took]
    refine ⟨by simpa using hack, by simpa using htried, by simpa using hpos, by simpa using hf,
      by simpa using hfailed, ?_, ?_, hdead⟩
    · simpa using hcount
    · rw [hretries]; simpa using hcount
  | @expired exc count reply =>
    obtain ⟨hack, htried, hpos, hf, hfailed, hcount, hn, hdead⟩ := h
    cases hcalm _ rfl
    simp only [Reply.returned, if_true]
    rcases afterFailure_cases c exc count with ⟨hle, ha⟩ | ⟨hlt, ha⟩
    · rw [ha]
      rw [← attemptLimit_le_iff (by omega)] at hle
      have heq : b.tried = lastAttempt outcome c.policy.maxRetries := by
        have := hk.le
        omega
      exact ⟨by simpa [Book.after] using hack, by simpa [Book.after] using heq,
        by simpa [Book.after] using hf, by simpa [Book.after] using hcount, hdead⟩
    · rw [ha]
      have hlim : b.tried < attemptLimit c.policy.maxRetries := by
        rw [← Nat.not_le, attemptLimit_le_iff hpos]
        omega
      have := hk.lt_of_failure htried hf hlim
      left
      exact ⟨by simpa [Book.after] using hack, by simpa [Book.after] using this,
        by simpa [Book.after] using hfailed, by simpa [Book.after] using hcount, hdead⟩
  | exhausted =>
    obtain ⟨hack, htried, hf, hcount, hdead⟩ := h
    cases hcalm _ rfl
    refine ⟨by simpa [Book.after, took, Reply.took] using hack, by simpa [Book.after] using htried,
      by simpa [Book.after, took, Reply.took] using hcount, ?_⟩
    simp [Book.after, took, Reply.took, deaths, ← htried, hf, hdead]
  | acked =>
    obtain ⟨hack, htried, hcount, hdead⟩ := h
    cases hcalm _ rfl
    right
    exact ⟨.inr rfl, by simpa [Book.after] using htried, hcount, hdead⟩
  | unsent => exact absurd rfl hsent

theorem Standing.start {outcome : Nat → Option String} {maxRetries : Int} {b : Book} {mv : Move}
    {env : EventEnvelope} {handler : HandlerId} (h : Standing outcome maxRetries b none)
    (hack : ¬ b.acked)
    (hmv : mv = { next := .await (.handle env handler), mark := some .invoked }) :
    Standing outcome maxRetries (b.after mv) mv.next.pc := by
  subst hmv
  rcases h with ⟨_, htried, hfailed, hcount, hdead⟩ | ⟨hacked, _⟩
  · refine ⟨by simpa [Book.after] using hack, ?_, ?_, by simpa [Book.after] using hcount, hdead⟩
    · simp [Book.after]; omega
    · simp [Book.after]; omega
  · exact absurd hacked hack

/-! ## The group -/

/-- Every consumer parses the message and has a handler for it. -/
def Handles (cfg : ConsumerId → ConsumerConfig) (lib : Stdlib) (m : MsgId) (fields : Fields) : Prop :=
  ∀ c, ∃ env h, parse (cfg c).parseMode lib m fields = some env ∧
    resolveHandler (cfg c).handlers env.eventType = some (some h)

/-- Redis calls succeed, nothing crashes or expires, the entries are ours, the handler of an entry
ends as `outcome` says for this attempt, and an entry is only started when nobody is at it. -/
def Orderly (cfg : ConsumerId → ConsumerConfig) (lib : Stdlib) (outcome : MsgId → Nat → Option String)
    (w : World) : Act → Prop
  | .append fields => Handles cfg lib w.entries.length fields
  | .next τ => ∀ m, (w.tasks τ).head = some m → w.idle m
  | .event τ (.handler exc) => ∀ m, (w.tasks τ).works m = true → exc = outcome m (w.invocations m)
  | .expire => False
  | a => Calm a

/-- No task starts an entry that was acked since it was fetched. -/
def Unacked (w : World) : Act → Prop
  | .next τ => ∀ m, (w.tasks τ).head = some m → m ∉ w.acked
  | _ => True

/-- No ack is left out because its consumer was stopped meanwhile. -/
def Acking : Act → Prop
  | .event _ e => e ≠ .unsent
  | _ => True

structure Accounts (cfg : ConsumerId → ConsumerConfig) (lib : Stdlib)
    (outcome : MsgId → Nat → Option String) (maxRetries : Int) (w : World) : Prop where
  fetched : Fetched w
  handles : ∀ m, m < w.entries.length → Handles cfg lib m (w.fields m)
  alone : ∀ τ τ' m, (w.tasks τ).works m = true → (w.tasks τ').works m = true → τ = τ'
  busy : ∀ τ m pc rest, w.tasks τ = .busy m pc rest →
    Standing (outcome m) maxRetries (w.book m) (some pc)
  rest : ∀ m, w.idle m → Standing (outcome m) maxRetries (w.book m) none

variable {outcome : MsgId → Nat → Option String} {maxRetries : Int}

/-- A step that is not taken inside a message moves no number and nobody's work. -/
theorem Stepped.still {w w' : World} {a : Act} (h : Stepped cfg lib w a w')
    (ho : Orderly cfg lib outcome w a) (hnext : ∀ τ, a ≠ .next τ) (hevent : ∀ τ e, a ≠ .event τ e) :
    (∀ m, w'.book m = w.book m) ∧
      ∀ τ m pc rest, w'.tasks τ = .busy m pc rest ↔ w.tasks τ = .busy m pc rest := by
  have hcrash : ∀ τ, a ≠ .crash τ := by rintro τ rfl; exact ho.elim
  refine ⟨?_, fun τ m pc rest => h.busy_iff hnext hevent (hcrash τ)⟩
  intro m
  cases h with
  | next => exact absurd rfl (hnext _)
  | event => exact absurd rfl (hevent _ _)
  | expire => exact ho.elim
  | _ => rfl

theorem Accounts.still {w w' : World} (h : Accounts cfg lib outcome maxRetries w)
    (hfetched : Fetched w') (hhandles : ∀ m, m < w'.entries.length → Handles cfg lib m (w'.fields m))
    (hbook : ∀ m, w'.book m = w.book m)
    (hbusy : ∀ τ m pc rest, w'.tasks τ = .busy m pc rest ↔ w.tasks τ = .busy m pc rest) :
    Accounts cfg lib outcome maxRetries w' := by
  have hworks : ∀ τ m, (w'.tasks τ).works m = (w.tasks τ).works m := by
    intro τ m
    rw [Bool.eq_iff_iff, Task.works_iff, Task.works_iff]
    simp only [hbusy]
  refine ⟨hfetched, hhandles, ?_, ?_, ?_⟩
  · intro τ τ' m hτ hτ'
    rw [hworks] at hτ hτ'
    exact h.alone τ τ' m hτ hτ'
  · intro τ m pc rest htask
    rw [hbook]
    exact h.busy τ m pc rest ((hbusy τ m pc rest).1 htask)
  · intro m hidle
    rw [hbook]
    exact h.rest m (fun τ => by rw [← hworks]; exact hidle τ)

/-- A task that is the only one at `m` makes a move on it. -/
theorem Accounts.apply {w : World} (h : Accounts cfg lib outcome maxRetries w) {c : ConsumerConfig}
    {τ : TaskId} {m : MsgId} {rest : List MsgId} {mv : Move}
    (hfetched : Fetched (w.apply c τ m rest mv))
    (hself : ∀ m', (w.tasks τ).works m' = true → m' = m)
    (hothers : ∀ τ', τ' ≠ τ → (w.tasks τ').works m = false)
    (hst : Standing (outcome m) maxRetries ((w.book m).after mv) mv.next.pc) :
    Accounts cfg lib outcome maxRetries (w.apply c τ m rest mv) := by
  have hworks : ∀ τ' m', ((w.apply c τ m rest mv).tasks τ').works m' = true →
      (τ' = τ ∧ m' = m) ∨ (τ' ≠ τ ∧ (w.tasks τ').works m' = true) := by
    intro τ' m' hw
    obtain ⟨pc, rest', hb⟩ := Task.works_iff.1 hw
    rcases apply_busy hb with ⟨hτ, hm, _⟩ | ⟨hτ, hold⟩
    · exact .inl ⟨hτ, hm⟩
    · exact .inr ⟨hτ, Task.works_iff.2 ⟨pc, rest', hold⟩⟩
  refine ⟨hfetched, ?_, ?_, ?_, ?_⟩
  · intro m' hm'
    simp only [World.fields, apply_entries] at hm' ⊢
    exact h.handles m' hm'
  · intro τ₁ τ₂ m' h₁ h₂
    rcases hworks τ₁ m' h₁ with ⟨rfl, rfl⟩ | ⟨hne₁, hold₁⟩
    · rcases hworks τ₂ m' h₂ with ⟨rfl, _⟩ | ⟨hne₂, hold₂⟩
      · rfl
      · rw [hothers τ₂ hne₂] at hold₂; cases hold₂
    · rcases hworks τ₂ m' h₂ with ⟨rfl, rfl⟩ | ⟨hne₂, hold₂⟩
      · rw [hothers τ₁ hne₁] at hold₁; cases hold₁
      · exact h.alone τ₁ τ₂ m' hold₁ hold₂
  · intro τ' m' pc rest' hb
    rcases apply_busy hb with ⟨rfl, rfl, hn⟩ | ⟨hne, hold⟩
    · rw [book_apply]
      rwa [hn] at hst
    · have hm' : m' ≠ m := by
        rintro rfl
        have := hothers τ' hne
        simp [hold, Task.works] at this
      rw [book_apply_ne w c τ hm']
      exact h.busy τ' m' pc rest' hold
  · intro m' hidle
    by_cases hm' : m' = m
    · subst hm'
      have hnone : mv.next.pc = none := by
        have := hidle τ
        cases hn : mv.next with
        | await pc => simp [World.apply, hn, Next.task, Task.works] at this
        | finished => rfl
        | raised => rfl
      rw [book_apply, ← hnone]
      exact hst
    · rw [book_apply_ne w c τ hm']
      refine h.rest m' ?_
      intro τ'
      by_cases hτ : τ' = τ
      · subst hτ
        by_contra hw
        exact hm' (hself m' (by simpa using hw))
      · have := hidle τ'
        simpa only [World.apply, Function.update_of_ne hτ] using this

theorem Begins.invokes {c : ConsumerConfig} {m : MsgId} {fields : Fields} {mv : Move}
    {env : EventEnvelope} {handler : HandlerId} (h : Begins c lib m fields mv)
    (hidem : c.idempotency = false) (hparse : parse c.parseMode lib m fields = some env)
    (hresolve : resolveHandler c.handlers env.eventType = some (some handler)) :
    mv = { next := .await (.handle env handler), mark := some .invoked } := by
  cases h with
  | malformed h => rw [hparse] at h; cases h
  | check _ h => rw [hidem] at h; cases h
  | resolve h _ hr =>
    rw [hparse] at h
    cases h
    cases hr with
    | raised h => rw [hresolve] at h; cases h
    | unmatched h => rw [hresolve] at h; cases h
    | invoked h => rw [hresolve] at h; cases h; rfl

theorem Accounts.step {w w' : World} {a : Act}
    (hcfg : ∀ c, (cfg c).idempotency = false ∧ (cfg c).policy.maxRetries = maxRetries)
    (h : Accounts cfg lib outcome maxRetries w) (ho : Orderly cfg lib outcome w a)
    (hu : Unacked w a) (ha : Acking a) (hs : Consumer.step cfg lib w a = some w') :
    Accounts cfg lib outcome maxRetries w' := by
  have hfetched := h.fetched.step hs
  cases step_cases hs with
  | @next τ m rest mv htask hb =>
    have hidle : w.idle m := ho m (by rw [htask]; rfl)
    have hlt : m < w.entries.length := h.fetched.batch τ m (by rw [htask]; exact .head _)
    obtain ⟨env, handler, hparse, hresolve⟩ := h.handles m hlt τ.1
    have hmv := hb.invokes (hcfg τ.1).1 hparse hresolve
    refine h.apply hfetched ?_ (fun τ' _ => hidle τ') ?_
    · intro m' hw
      simp [htask, Task.works] at hw
    · exact (h.rest m hidle).start (hu m (by rw [htask]; rfl)) hmv
  | @event τ e m pc rest mv htask hadmits hm =>
    have hworks : (w.tasks τ).works m = true := by simp [htask, Task.works]
    refine h.apply hfetched ?_ ?_ ?_
    · intro m' hw
      simp only [htask, Task.works, beq_iff_eq] at hw
      exact hw.symm
    · intro τ' hne
      by_contra hw
      exact hne (h.alone τ' τ m (by simpa using hw) hworks)
    · rw [← (hcfg τ.1).2]
      refine Standing.move ?_ hm (hcfg τ.1).1 rfl ?_ ha ?_
      · rw [(hcfg τ.1).2]
        exact h.busy τ m pc rest htask
      · rintro reply rfl
        exact ho
      · rintro exc rfl
        exact ho m hworks
  | append fields =>
    obtain ⟨hbook, hbusy⟩ := (step_cases hs).still ho (by simp) (by simp)
    refine h.still hfetched ?_ hbook hbusy
    intro m hm
    by_cases hlast : m = w.entries.length
    · subst hlast
      simpa [World.fields, Orderly] using ho
    · have hlt : m < w.entries.length := by
        rw [List.length_append, List.length_singleton] at hm
        exact Nat.lt_of_le_of_ne (Nat.le_of_lt_succ hm) hlast
      simpa [World.fields, List.getElem?_append_left hlt] using h.handles m hlt
  | _ =>
    obtain ⟨hbook, hbusy⟩ := (step_cases hs).still ho (by simp) (by simp)
    exact h.still hfetched h.handles hbook hbusy

theorem Accounts.start : Accounts cfg lib outcome maxRetries {} where
  fetched := ⟨Nat.le_refl 0, fun _ hp => absurd hp List.not_mem_nil,
    fun _ _ hm => absurd hm List.not_mem_nil⟩
  handles := by intro m hm; cases hm
  alone := by intro τ τ' m hw; cases hw
  busy := by intro τ m pc rest hb; cases hb
  rest := by
    intro m _
    have := (lastAttempt_spec (outcome m) maxRetries).pos
    left
    exact ⟨by simp [World.book], this, rfl, rfl, rfl⟩

/-- The numbers of one entry: handler runs, the ack, dead-letter records, the retry field. -/
structure Accounted (outcome : Nat → Option String) (maxRetries : Int) (w : World) (m : MsgId) :
    Prop where
  invocations : w.invocations m ≤ lastAttempt outcome maxRetries
  acked : m ∈ w.acked ↔ w.invocations m = lastAttempt outcome maxRetries ∧ w.idle m
  deadLetters : m ∈ w.acked → (w.deadLetters m = 1 ↔
    ∀ j, 1 ≤ j → j ≤ attemptLimit maxRetries → outcome j ≠ none)
  noDeadLetter : ¬ (∀ j, 1 ≤ j → j ≤ attemptLimit maxRetries → outcome j ≠ none) →
    w.deadLetters m = 0
  oneDeadLetter : w.deadLetters m ≤ 1
  pending : m ∉ w.acked → w.idle m → w.attempts m = w.failures m
  running : ∀ τ env handler rest, w.tasks τ = .busy m (.handle env handler) rest →
    w.attempts m = w.failures m
  cleared : m ∈ w.acked → w.retries m = none

theorem Standing.tried_le {outcome : Nat → Option String} {b : Book} {at_ : Option Pc}
    (h : Standing outcome maxRetries b at_) : b.tried ≤ lastAttempt outcome maxRetries := by
  rcases at_ with _ | pc
  · rcases h with ⟨_, h, _⟩ | ⟨_, h, _⟩ <;> omega
  · cases pc with
    | malformed | check | mark => exact h.elim
    | handle | increment | expire => exact h.2.1
    | clear | exhausted | ack => exact Nat.le_of_eq h.2.1

theorem Standing.dead_le {outcome : Nat → Option String} {b : Book} {at_ : Option Pc}
    (h : Standing outcome maxRetries b at_) : b.dead ≤ deaths outcome maxRetries := by
  rcases at_ with _ | pc
  · rcases h with ⟨_, _, _, _, h⟩ | ⟨_, _, _, h⟩ <;> omega
  · cases pc with
    | malformed | check | mark => exact h.elim
    | handle => have := h.2.2.2.2; omega
    | increment => have := h.2.2.2.2.2.2; omega
    | expire => have := h.2.2.2.2.2.2.2; omega
    | exhausted => have := h.2.2.2.2; omega
    | clear | ack => exact Nat.le_of_eq h.2.2.2

theorem Standing.unacked {outcome : Nat → Option String} {b : Book} {pc : Pc}
    (h : Standing outcome maxRetries b (some pc)) : ¬ b.acked := by
  cases pc with
  | malformed | check | mark => exact h.elim
  | _ => exact h.1

theorem deaths_eq_one_iff (outcome : Nat → Option String) (maxRetries : Int) :
    deaths outcome maxRetries = 1 ↔
      ∀ j, 1 ≤ j → j ≤ attemptLimit maxRetries → outcome j ≠ none := by
  rw [← lastAttempt_fails_iff]
  simp [deaths]

theorem deaths_le_one (outcome : Nat → Option String) (maxRetries : Int) :
    deaths outcome maxRetries ≤ 1 := by
  simp only [deaths]
  split <;> omega

/-- Every entry is at rest or at some await. -/
theorem Accounts.standing {w : World} (h : Accounts cfg lib outcome maxRetries w) (m : MsgId) :
    (w.idle m ∧ Standing (outcome m) maxRetries (w.book m) none) ∨
      (¬ w.idle m ∧ ∃ pc, Standing (outcome m) maxRetries (w.book m) (some pc)) := by
  by_cases hidle : w.idle m
  · exact .inl ⟨hidle, h.rest m hidle⟩
  · right
    refine ⟨hidle, ?_⟩
    simp only [World.idle, not_forall, Bool.not_eq_false] at hidle
    obtain ⟨τ, hw⟩ := hidle
    obtain ⟨pc, rest, hb⟩ := Task.works_iff.1 hw
    exact ⟨pc, h.busy τ m pc rest hb⟩

theorem Accounts.accounted {w : World} (h : Accounts cfg lib outcome maxRetries w) (m : MsgId) :
    Accounted (outcome m) maxRetries w m := by
  have hdead : w.deadLetters m ≤ deaths (outcome m) maxRetries := by
    rcases h.standing m with ⟨_, hst⟩ | ⟨_, pc, hst⟩
    · exact hst.dead_le
    · exact hst.dead_le
  have hacked : m ∈ w.acked → w.idle m ∧ w.invocations m = lastAttempt (outcome m) maxRetries ∧
      w.retries m = none ∧ w.deadLetters m = deaths (outcome m) maxRetries := by
    intro hm
    rcases h.standing m with ⟨hidle, ⟨hno, _⟩ | ⟨_, htried, hcount, hd⟩⟩ | ⟨_, pc, hst⟩
    · exact absurd hm hno
    · exact ⟨hidle, htried, hcount, hd⟩
    · exact absurd hm hst.unacked
  constructor
  case invocations =>
    rcases h.standing m with ⟨_, hst⟩ | ⟨_, pc, hst⟩
    · exact hst.tried_le
    · exact hst.tried_le
  case acked =>
    constructor
    · intro hm
      exact ⟨(hacked hm).2.1, (hacked hm).1⟩
    · rintro ⟨htried, hidle⟩
      rcases h.rest m hidle with ⟨_, hlt, _⟩ | ⟨hm, _⟩
      · exact absurd htried (Nat.ne_of_lt hlt)
      · exact hm
  case deadLetters =>
    intro hm
    rw [(hacked hm).2.2.2, deaths_eq_one_iff]
  case noDeadLetter =>
    intro hsome
    rw [← deaths_eq_one_iff] at hsome
    have := deaths_le_one (outcome m) maxRetries
    omega
  case oneDeadLetter => exact Nat.le_trans hdead (deaths_le_one _ _)
  case pending =>
    intro hm hidle
    rcases h.rest m hidle with ⟨_, _, _, hcount, _⟩ | ⟨hack, _⟩
    · exact hcount
    · exact absurd hack hm
  case running =>
    intro τ env handler rest htask
    exact (h.busy τ m _ rest htask).2.2.2.1
  case cleared =>
    intro hm
    exact (hacked hm).2.2.1

theorem retry_accounting (cfg : ConsumerId → ConsumerConfig) (lib : Stdlib)
    (outcome : MsgId → Nat → Option String) (maxRetries : Int)
    (hcfg : ∀ c, (cfg c).idempotency = false ∧ (cfg c).policy.maxRetries = maxRetries)
    (as : List Act) (w : World)
    (h : Run (step cfg lib)
      (fun w a => Orderly cfg lib outcome w a ∧ Unacked w a ∧ Acking a) {} as w) :
    ∀ m, Accounted (outcome m) maxRetries w m := by
  have hi : Accounts cfg lib outcome maxRetries w :=
    h.invariant (fun _ _ _ hi ho hs => hi.step hcfg ho.1 ho.2.1 ho.2.2 hs) .start
  exact hi.accounted

/-! One event, its consumer and a claimer. -/

def demoTasks : List TaskId := [(0, .consume), (1, .claimer)]

theorem demo_handles (maxRetries : Int) (m : MsgId) :
    Handles (demoConfig maxRetries false) demoLib m demoEvent := by
  intro c
  exact ⟨_, 0, rfl, rfl⟩

/-- `Orderly`, for a schedule of the two tasks with this event. -/
def orderlyCheck (outcome : MsgId → Nat → Option String) (w : World) (a : Act) : Bool :=
  a.among demoTasks &&
    match a with
    | .append fields => fields == demoEvent
    | .next τ => (w.tasks τ).head.all (fun m => w.noneAmong demoTasks (fun t => t.works m))
    | .event τ (.handler exc) =>
      match w.tasks τ with
      | .busy m _ _ => exc == outcome m (w.invocations m)
      | .waiting _ => true
    | .event _ (.redis reply) | .read _ _ reply | .claim _ _ reply => reply == .ok
    | .event _ (.check _) | .crash _ | .expire => false
    | .event _ .unsent | .tick _ | .connect _ | .disconnect _ => true

def unackedCheck (w : World) : Act → Bool
  | .next τ => (w.tasks τ).head.all (fun m => !w.acked.contains m)
  | .event _ .unsent => false
  | _ => true

theorem orderlyCheck_sound {maxRetries : Int} {w : World} {a : Act} (hw : w.within demoTasks)
    (h : orderlyCheck outcome w a = true) :
    Orderly (demoConfig maxRetries false) demoLib outcome w a := by
  simp only [orderlyCheck, Bool.and_eq_true] at h
  obtain ⟨_, h⟩ := h
  cases a with
  | append fields =>
    simp only [beq_iff_eq] at h
    rw [h]
    exact demo_handles maxRetries _
  | next τ =>
    intro m hm τ'
    simp only [hm, Option.all_some] at h
    exact hw.none h rfl τ'
  | event τ e =>
    cases e with
    | handler exc =>
      intro m hm
      obtain ⟨pc, rest, hb⟩ := Task.works_iff.1 hm
      simpa [hb] using h
    | redis reply => exact beq_iff_eq.1 h
    | check r => cases h
    | unsent => trivial
  | read c n reply => exact beq_iff_eq.1 h
  | claim c ids reply => exact beq_iff_eq.1 h
  | crash τ => cases h
  | expire => cases h
  | tick | connect | disconnect => trivial

theorem unackedCheck_sound {w : World} {a : Act} (h : unackedCheck w a = true) :
    Unacked w a ∧ Acking a := by
  cases a with
  | next τ =>
    refine ⟨?_, trivial⟩
    intro m hm
    simpa [unackedCheck, hm] using h
  | event τ e =>
    refine ⟨trivial, ?_⟩
    rintro rfl
    cases h
  | _ => exact ⟨trivial, trivial⟩

def demoRetry : List Act :=
  [.append demoEvent, .read 0 1 .ok, .next (0, .consume),
    .event (0, .consume) (.handler (some "boom")), .disconnect 0, .event (0, .consume) (.redis .ok),
    .event (0, .consume) (.redis .ok), .tick 30000, .claim 1 [0] .ok, .next (1, .claimer),
    .event (1, .claimer) (.handler none), .event (1, .claimer) (.redis .ok),
    .event (1, .claimer) (.redis .ok)]

/-- The first attempt fails while its consumer is stopped, the second one succeeds. -/
def demoOutcome (_ : MsgId) (n : Nat) : Option String := if n = 1 then some "boom" else none

theorem second_attempt_acked :
    ∃ w, Run (step (demoConfig 3 false) demoLib)
        (fun w a => Orderly (demoConfig 3 false) demoLib demoOutcome w a ∧ Unacked w a ∧ Acking a) {}
        demoRetry w ∧
      w.acked = [0] ∧ w.invocations 0 = 2 ∧ ∀ m, Accounted (demoOutcome m) 3 w m := by
  obtain ⟨w, hw, hp⟩ := exec_any (p := fun w => w.acked == [0] && w.invocations 0 == 2)
    (show (exec (Run.guarded (step (demoConfig 3 false) demoLib)
      (fun w a => orderlyCheck demoOutcome w a && unackedCheck w a)) {} demoRetry).any _ = true
      by decide)
  have hrun : Run (step (demoConfig 3 false) demoLib)
      (fun w a => Orderly (demoConfig 3 false) demoLib demoOutcome w a ∧ Unacked w a ∧ Acking a) {}
      demoRetry w := by
    refine .of_guarded (I := fun w => w.within demoTasks) ?_ ?_ (within_start _) hw
    · intro s a s' hs hc hstep
      simp only [Bool.and_eq_true, orderlyCheck] at hc
      exact within_step hs hc.1.1 hstep
    · intro s a hs hc
      rw [Bool.and_eq_true] at hc
      exact ⟨orderlyCheck_sound hs hc.1, unackedCheck_sound hc.2⟩
  simp only [Bool.and_eq_true, beq_iff_eq] at hp
  exact ⟨w, hrun, hp.1, hp.2, retry_accounting _ _ _ _ (fun _ => ⟨rfl, rfl⟩) _ _ hrun⟩

def demoFailure (τ : TaskId) : List Act :=
  [.next τ, .event τ (.handler (some "boom")), .event τ (.redis .ok), .event τ (.redis .ok),
    .event τ (.redis .ok), .event τ (.redis .ok), .event τ (.redis .ok)]

/-- A slow handler, and a claimer whose `XAUTOCLAIM` comes just before the ack: the entry is handled
and dead-lettered again, though one attempt was allowed and the two do not overlap. -/
theorem reclaimed_entry_handled_again :
    ∃ w, Run (step (demoConfig 1 false) demoLib)
        (Orderly (demoConfig 1 false) demoLib (fun _ _ => some "boom")) {}
        ([.append demoEvent, .read 0 1 .ok, .next (0, .consume), .tick 30000, .claim 1 [0] .ok] ++
          (demoFailure (0, .consume)).tail ++ demoFailure (1, .claimer)) w ∧
      w.invocations 0 = 2 ∧ w.deadLetters 0 = 2 ∧
      ¬ ∀ m, Accounted (fun _ => some "boom") 1 w m := by
  obtain ⟨w, hw, hp⟩ := exec_any (p := fun w => w.invocations 0 == 2 && w.deadLetters 0 == 2)
    (show (exec (Run.guarded (step (demoConfig 1 false) demoLib)
      (orderlyCheck (fun _ _ => some "boom"))) {}
      ([.append demoEvent, .read 0 1 .ok, .next (0, .consume), .tick 30000, .claim 1 [0] .ok] ++
        (demoFailure (0, .consume)).tail ++ demoFailure (1, .claimer))).any _ = true by decide)
  simp only [Bool.and_eq_true, beq_iff_eq] at hp
  refine ⟨w, ?_, hp.1, hp.2, ?_⟩
  · refine .of_guarded (I := fun w => w.within demoTasks) ?_ ?_ (within_start _) hw
    · intro s a s' hs hc hstep
      simp only [Bool.and_eq_true, orderlyCheck] at hc
      exact within_step hs hc.1 hstep
    · intro s a hs hc
      exact orderlyCheck_sound hs hc
  · intro h
    have := (h 0).oneDeadLetter
    omega

/-- `stop` while the handler runs: its only attempt is dead-lettered and not acked, and the entry is
handled and dead-lettered again. -/
example : (exec (step (demoConfig 1 false) demoLib) {}
    ([.append demoEvent, .read 0 1 .ok, .next (0, .consume), .disconnect 0] ++
      (demoFailure (0, .consume)).tail.dropLast ++
      [.event (0, .consume) .unsent, .tick 30000, .claim 1 [0] .ok] ++
      demoFailure (1, .claimer))).any
    (fun w => w.invocations 0 == 2 && w.deadLetters 0 == 2) = true := by
  decide

end Consumer
end Events
end TrShared
