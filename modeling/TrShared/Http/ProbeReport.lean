import TrShared.Http.ServiceClient

/-!
# TrShared.Http.ProbeReport

Whether the request that a breaker admitted as its probe has reported by the time it returns or
raises. `request_reports_iff`: a request of `ServiceHTTPClient` has, unless its first answer is
a 4xx or it raises before any answer.
-/

namespace TrShared
namespace Http

open Machine Python

/-- The breaker waits for the report of the probe it admitted at `t`. -/
def CircuitBreaker.holdsProbe (b : CircuitBreaker) (t : Time) : Prop :=
  b.state = .halfOpen ∧ b.probeStartedAt = some t

/-- `is_open` lets a request through as the probe of a breaker that is not closed. -/
def CircuitBreaker.admitsProbe (c : BreakerConfig) (b : CircuitBreaker) (now : Time) : Prop :=
  b.state ≠ .closed ∧ (b.isOpen c now).1 = false

instance (b : CircuitBreaker) (t : Time) : Decidable (b.holdsProbe t) :=
  inferInstanceAs (Decidable (_ ∧ _))

instance (c : BreakerConfig) (b : CircuitBreaker) (now : Time) : Decidable (b.admitsProbe c now) :=
  inferInstanceAs (Decidable (_ ∧ _))

/-- How the first attempt of a request ends: its answer, or an exception instead of one. -/
def firstEnd (acts : List ClientAct) : Option ClientAct :=
  acts.find? fun
    | .answer _ | .raise => true
    | _ => false

/-- The first attempt is answered, and not by a 4xx. -/
def Reports (acts : List ClientAct) : Prop :=
  ∃ o, firstEnd acts = some (.answer o) ∧ o.isClientError = false

section Report

variable {c : ClientConfig} {w w' : ClientWorld} {acts : List ClientAct} {t : Time}

theorem CircuitBreaker.isOpen_of_admitsProbe {c : BreakerConfig} {b : CircuitBreaker} {now : Time}
    (h : b.admitsProbe c now) :
    b.isOpen c now = (false, { b with state := .halfOpen, probeStartedAt := some now }) := by
  rcases hb : b.isOpen c now with ⟨answer, b'⟩
  obtain rfl : answer = false := by simpa [hb] using h.2
  obtain ⟨hs, -⟩ | ⟨-, rfl⟩ := CircuitBreaker.isOpen_false hb
  · exact absurd hs h.1
  · rfl

theorem recordSuccess_not_halfOpen (b : CircuitBreaker) : b.recordSuccess.state ≠ .halfOpen := by
  simp only [CircuitBreaker.recordSuccess]
  split
  · simp [CircuitBreaker.transition]
  · assumption

theorem recordFailure_not_halfOpen (bc : BreakerConfig) (b : CircuitBreaker) (now : Time) :
    (b.recordFailure bc now).state ≠ .halfOpen := by
  simp only [CircuitBreaker.recordFailure]
  split
  · simp [CircuitBreaker.transition]
  · rename_i h
    exact fun hs => h (.inl hs)

@[simp] theorem loop_breaker {n : Nat} {lastExc : Option Outcome} :
    (w.loop c n t lastExc).breaker = w.breaker := by
  simp only [ClientWorld.loop]
  split <;> rfl

@[simp] theorem failed_breaker {n : Nat} {o : Outcome} :
    (w.failed c n o).breaker = w.breaker.recordFailure c.toBreakerConfig w.now := by
  simp [ClientWorld.failed, ClientWorld.setBreaker]

/-- Only `is_open` enters HALF_OPEN. -/
theorem not_halfOpen_of_no_call (hrun : Run (ClientWorld.step c) (fun _ a => a ≠ .call) w acts w')
    (h : w.breaker.state ≠ .halfOpen) : w'.breaker.state ≠ .halfOpen := by
  refine hrun.invariant (I := fun w => w.breaker.state ≠ .halfOpen) ?_ h
  intro w a w' hi ha hs
  cases clientStep_of_step hs with
  | tick _ => exact hi
  | reject _ _ _ => exact absurd rfl ha
  | allow _ _ => exact absurd rfl ha
  | send _ _ => exact hi
  | succeed _ _ => exact recordSuccess_not_halfOpen _
  | clientError _ _ => exact hi
  | fail _ _ => rw [failed_breaker]; exact recordFailure_not_halfOpen _ _ _
  | raised _ => exact hi

/-- Between requests the breaker does not change. -/
theorem breaker_of_idle (hrun : Run (ClientWorld.step c) (fun _ a => a ≠ .call) w acts w')
    (h : w.phase = .idle) : w'.breaker = w.breaker := by
  induction hrun with
  | nil => rfl
  | cons ha hs _ ih =>
    cases clientStep_of_step hs with
    | tick _ => exact ih h
    | reject _ _ _ => exact absurd rfl ha
    | allow _ _ => exact absurd rfl ha
    | send hp _ => rw [h] at hp; cases hp
    | succeed hp _ => rw [h] at hp; cases hp
    | clientError hp _ => rw [h] at hp; cases hp
    | fail hp _ => rw [h] at hp; cases hp
    | raised hp => exact absurd h hp

/-- From the admission of a probe to the end of its request. Up to the end of the first attempt nothing
happens to the breaker; that end decides. -/
theorem probe_run (hrun : Run (ClientWorld.step c) (fun _ a => a ≠ .call) w acts w')
    (hb : w.breaker.holdsProbe t) (hp : w.phase ≠ .idle) (hend : w'.phase = .idle) :
    ¬ w'.breaker.holdsProbe t ↔ Reports acts := by
  induction hrun with
  | nil => exact absurd hend hp
  | cons ha hs hrest ih =>
    cases clientStep_of_step hs with
    | tick _ => exact ih hb hp hend
    | reject _ _ _ => exact absurd rfl ha
    | allow _ _ => exact absurd rfl ha
    | send _ _ => exact ih hb (by simp) hend
    | @succeed _ r _ hr =>
      have hclosed := not_halfOpen_of_no_call hrest (recordSuccess_not_halfOpen _)
      refine iff_of_true (fun h => hclosed h.1) ⟨.response r, rfl, ?_⟩
      simp only [Response.isSuccess, decide_eq_true_eq] at hr
      simp only [Outcome.isClientError, Response.isClientError, decide_eq_false_iff_not]
      omega
    | @clientError _ r _ hr =>
      have hsame := breaker_of_idle hrest rfl
      refine iff_of_false (fun h => h (by rw [hsame]; exact hb)) ?_
      rintro ⟨o, ho, hno⟩
      cases ho
      rw [hr] at hno
      cases hno
    | @fail _ o _ ho =>
      have hopened := not_halfOpen_of_no_call hrest
        (by rw [failed_breaker]; exact recordFailure_not_halfOpen _ _ _)
      refine iff_of_true (fun h => hopened h.1) ⟨o, rfl, ?_⟩
      cases o with
      | response r => simp_all [Outcome.isFailure, Outcome.isClientError]
      | requestError => rfl
    | raised _ =>
      have hsame := breaker_of_idle hrest rfl
      refine iff_of_false (fun h => h (by rw [hsame]; exact hb)) ?_
      rintro ⟨o, ho, _⟩
      cases ho

/-- A request admitted as the probe leaves the breaker waiting for its report exactly when its first
attempt ends in a 4xx answer or in an exception of its own. -/
theorem request_reports_iff {w₀ w₁ : ClientWorld} (hr : 1 ≤ c.maxRetries)
    (hprobe : w₀.breaker.admitsProbe c.toBreakerConfig w₀.now)
    (hcall : w₀.step c .call = some w₁)
    (hrun : Run (ClientWorld.step c) (fun _ a => a ≠ .call) w₁ acts w') (hend : w'.phase = .idle) :
    ¬ w'.breaker.holdsProbe w₀.now ↔ Reports acts := by
  have hopen := CircuitBreaker.isOpen_of_admitsProbe hprobe
  cases clientStep_of_step hcall with
  | reject _ _ h => rw [hopen] at h; cases h
  | allow _ h =>
    rw [hopen] at h
    cases h
    refine probe_run hrun ?_ ?_ hend
    · rw [loop_breaker]; exact ⟨rfl, rfl⟩
    · have hr' : 0 < c.maxRetries := hr
      rw [ClientWorld.loop, if_pos hr']
      simp

end Report

end Http
end TrShared
