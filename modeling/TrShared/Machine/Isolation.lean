import Mathlib.Data.List.Basic
import Mathlib.Order.Defs.PartialOrder

/-!
# TrShared.Machine.Isolation

Whether the requests of one party can tell that there are others. A server answers requests that carry
the time of their arrival; `Unwinding` is the relation between two of its states that one party cannot
tell apart, with what has to be shown of a single request.

* `Unwinding.answers`: then the answers to the party are those of a server that only the party uses.
-/

namespace TrShared
namespace Machine

section Isolation

variable {σ α β τ : Type} [Preorder τ]

/-- The requests with their answers. -/
def answers (step : σ → α → β × σ) : σ → List α → List (α × β)
  | _, [] => []
  | s, a :: as => (a, (step s a).1) :: answers step (step s a).2 as

/-- What the requests that are `mine` see of a state at a time: they get the same answer and change it
alike, the other requests do not change it, and it depends on the time only in that it fades. -/
structure Unwinding (step : σ → α → β × σ) (time : α → τ) (mine : α → Bool)
    (agree : τ → σ → σ → Prop) : Prop where
  later : ∀ {t t' s s₂}, t ≤ t' → agree t s s₂ → agree t' s s₂
  same : ∀ {a s s₂}, mine a = true → agree (time a) s s₂ →
    (step s a).1 = (step s₂ a).1 ∧ agree (time a) (step s a).2 (step s₂ a).2
  other : ∀ {a s s₂}, mine a = false → agree (time a) s s₂ → agree (time a) (step s a).2 s₂

theorem Unwinding.answers {step : σ → α → β × σ} {time : α → τ} {mine : α → Bool}
    {agree : τ → σ → σ → Prop} (h : Unwinding step time mine agree) {acts : List α} {t : τ} {s s₂ : σ}
    (hagree : agree t s s₂) (hstart : ∀ a ∈ acts, t ≤ time a)
    (hsorted : acts.Pairwise (fun a b => time a ≤ time b)) :
    (Machine.answers step s acts).filter (fun e => mine e.1) =
      Machine.answers step s₂ (acts.filter mine) := by
  induction acts generalizing t s s₂ with
  | nil => rfl
  | cons a acts ih =>
    obtain ⟨hfirst, hsorted⟩ := List.pairwise_cons.1 hsorted
    have hnow := h.later (hstart a List.mem_cons_self) hagree
    cases hmine : mine a with
    | true =>
      obtain ⟨hanswer, hnext⟩ := h.same hmine hnow
      rw [List.filter_cons_of_pos hmine, Machine.answers, Machine.answers,
        List.filter_cons_of_pos (p := fun e : α × β => mine e.1) hmine, hanswer,
        ih hnext hfirst hsorted]
    | false =>
      have hskip : ¬ mine a = true := by rw [hmine]; exact Bool.false_ne_true
      rw [List.filter_cons_of_neg hskip, Machine.answers,
        List.filter_cons_of_neg (p := fun e : α × β => mine e.1) hskip]
      exact ih (h.other hmine hnow) hfirst hsorted

end Isolation

end Machine
end TrShared
