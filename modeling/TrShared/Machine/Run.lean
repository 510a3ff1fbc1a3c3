import Mathlib.Data.List.Basic

/-!
# TrShared.Machine.Run

Runs of a system given by a partial step function `step : σ → α → Option σ`: an action that is
not enabled has no successor.

* `exec` runs a list of actions; it is what a concrete schedule is evaluated with.
* `Run step ok s as s'` is a run from `s` to `s'` along `as` in which every action is taken in a
  state where `ok` allows it. What the environment is assumed to do is put into `ok`.
* `Run.invariant` and `Run.relation` are the induction rules: what one step keeps, a run keeps;
  `Run.along` is the first of them for an invariant that mentions the actions taken so far.
-/

namespace TrShared
namespace Machine

universe u v

variable {σ : Type u} {α : Type v}

/-- Run the actions in order; `none` when one of them is not enabled. -/
def exec (step : σ → α → Option σ) : σ → List α → Option σ
  | s, [] => some s
  | s, a :: as =>
    match step s a with
    | some s' => exec step s' as
    | none => none

/-- Evaluating a schedule gives its last state and what was checked there. -/
theorem exec_any {step : σ → α → Option σ} {s : σ} {as : List α} {p : σ → Bool}
    (h : (exec step s as).any p = true) : ∃ s', exec step s as = some s' ∧ p s' = true := by
  cases he : exec step s as with
  | none => rw [he] at h; cases h
  | some s' => rw [he] at h; exact ⟨s', rfl, h⟩

theorem exec_cons {step : σ → α → Option σ} {s s' : σ} {a : α} {as : List α}
    (h : exec step s (a :: as) = some s') :
    ∃ s₁, step s a = some s₁ ∧ exec step s₁ as = some s' := by
  simp only [exec] at h
  split at h
  · exact ⟨_, ‹_›, h⟩
  · cases h

theorem exec_append {step : σ → α → Option σ} {s s' : σ} {as bs : List α}
    (h : exec step s as = some s') : exec step s (as ++ bs) = exec step s' bs := by
  induction as generalizing s with
  | nil =>
    cases h
    rfl
  | cons a as ih =>
    obtain ⟨s₁, hs, h⟩ := exec_cons h
    simp only [List.cons_append, exec, hs, ih h]

inductive Run (step : σ → α → Option σ) (ok : σ → α → Prop) : σ → List α → σ → Prop where
  | nil {s : σ} : Run step ok s [] s
  | cons {s s' s'' : σ} {a : α} {as : List α} :
      ok s a → step s a = some s' → Run step ok s' as s'' → Run step ok s (a :: as) s''

namespace Run

variable {step : σ → α → Option σ} {ok : σ → α → Prop}

theorem single {s s' : σ} {a : α} (ho : ok s a) (h : step s a = some s') :
    Run step ok s [a] s' := .cons ho h .nil

theorem append {s s' s'' : σ} {as bs : List α} (h₁ : Run step ok s as s')
    (h₂ : Run step ok s' bs s'') : Run step ok s (as ++ bs) s'' := by
  induction h₁ with
  | nil => exact h₂
  | cons ho hs _ ih => exact .cons ho hs (ih h₂)

theorem mono {ok' : σ → α → Prop} (hok : ∀ s a, ok s a → ok' s a) {s s' : σ} {as : List α}
    (h : Run step ok s as s') : Run step ok' s as s' := by
  induction h with
  | nil => exact .nil
  | cons ho hs _ ih => exact .cons (hok _ _ ho) hs ih

/-- The invariant rule: what every allowed step keeps holds at the end of every run. -/
theorem invariant {I : σ → Prop}
    (hstep : ∀ s a s', I s → ok s a → step s a = some s' → I s')
    {s s' : σ} {as : List α} (h : Run step ok s as s') (hi : I s) : I s' := by
  induction h with
  | nil => exact hi
  | cons ho hs _ ih => exact ih (hstep _ _ _ hi ho hs)

/-- The same for a relation between the two ends of a run, under an invariant of its states. -/
theorem relation {I : σ → Prop} {R : σ → σ → Prop} (hrefl : ∀ s, R s s)
    (htrans : ∀ {s s' s''}, R s s' → R s' s'' → R s s'')
    (hinv : ∀ s a s', I s → ok s a → step s a = some s' → I s')
    (hstep : ∀ s a s', I s → ok s a → step s a = some s' → R s s')
    {s s' : σ} {as : List α} (h : Run step ok s as s') (hi : I s) : R s s' := by
  induction h with
  | nil => exact hrefl _
  | cons ho hs _ ih => exact htrans (hstep _ _ _ hi ho hs) (ih (hinv _ _ _ hi ho hs))

/-- The invariant rule for what also depends on the actions taken so far. -/
theorem along {I : List α → σ → Prop} {s₀ s : σ} {as : List α}
    (hstep : ∀ bs s a s', Run step ok s₀ bs s → I bs s → ok s a → step s a = some s' →
      I (bs ++ [a]) s')
    (h : Run step ok s₀ as s) (hi : I [] s₀) : I as s := by
  have hgen : ∀ {s₁ s₂ : σ} {cs : List α}, Run step ok s₁ cs s₂ → ∀ bs, Run step ok s₀ bs s₁ →
      I bs s₁ → I (bs ++ cs) s₂ := by
    intro s₁ s₂ cs hrun
    induction hrun with
    | nil => intro bs _ hb; simpa using hb
    | @cons s s' _ a as ho hs _ ih =>
      intro bs hbs hb
      simpa using ih (bs ++ [a]) (hbs.append (.single ho hs)) (hstep bs s a s' hbs hb ho hs)
  exact hgen h [] .nil hi

theorem exec_eq {s s' : σ} {as : List α} (h : Run step ok s as s') :
    exec step s as = some s' := by
  induction h with
  | nil => rfl
  | cons _ hs _ ih => simp only [exec, hs, ih]

/-- What is asked of the actions alone may be checked on the list of them. -/
theorem of_exec_all {s s' : σ} {as : List α} (hok : ∀ a ∈ as, ∀ s, ok s a)
    (h : exec step s as = some s') : Run step ok s as s' := by
  induction as generalizing s with
  | nil => simp only [exec, Option.some.injEq] at h; subst h; exact .nil
  | cons a as ih =>
    obtain ⟨s₁, hs, h⟩ := exec_cons h
    exact .cons (hok a (by simp) s) hs (ih (fun b hb => hok b (by simp [hb])) h)

/-- The same with something asked of the first step in its state. -/
theorem of_exec_cons {s s' : σ} {a : α} {as : List α} (ha : ok s a)
    (hok : ∀ b ∈ as, ∀ s, ok s b) (h : exec step s (a :: as) = some s') :
    Run step ok s (a :: as) s' := by
  obtain ⟨s₁, hs, h⟩ := exec_cons h
  exact .cons ha hs (of_exec_all hok h)

/-- `step` with a check in front of it. -/
def guarded (step : σ → α → Option σ) (check : σ → α → Bool) (s : σ) (a : α) : Option σ :=
  if check s a then step s a else none

/-- A schedule evaluated with a check of every step is a run that meets the condition, if the check
decides it in the states of the schedule (`I`). -/
theorem of_guarded {check : σ → α → Bool} {I : σ → Prop}
    (hinv : ∀ s a s', I s → check s a = true → step s a = some s' → I s')
    (hok : ∀ s a, I s → check s a = true → ok s a) {s s' : σ} {as : List α} (hi : I s)
    (h : exec (guarded step check) s as = some s') : Run step ok s as s' := by
  induction as generalizing s with
  | nil => simp only [exec, Option.some.injEq] at h; subst h; exact .nil
  | cons a as ih =>
    simp only [exec, guarded] at h
    split at h
    · rename_i s1 hs
      split at hs
      · rename_i hc
        exact .cons (hok s a hi hc) hs (ih (hinv s a s1 hi hc hs) h)
      · cases hs
    · cases h

end Run
end Machine
end TrShared
