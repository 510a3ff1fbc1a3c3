/-!
# TrShared.Machine.Rounds

A loop that runs rounds over a state until a round changes nothing, with a bound on the rounds.

* `rounds_spec`: from an invariant indexed by the number of rounds, and a number after which a round
  changes nothing, the loop stops by itself.
* `rounds_of_measure`: so it does when every round that changes something makes a measure smaller.
* `countP_lt`: the usual measure, how many members of a list are still without a mark.
-/

namespace TrShared
namespace Machine

variable {σ : Type}

/-- Runs `body` until it says that nothing changed, at most `n` times: the state, and whether the loop
stopped by itself. -/
def rounds (body : σ → σ × Bool) : Nat → σ → σ × Bool
  | 0, s => (s, false)
  | n + 1, s => if (body s).2 then rounds body n (body s).1 else ((body s).1, true)

variable {body : σ → σ × Bool}

theorem rounds_spec {inv : Nat → σ → Prop} {bound : Nat}
    (hstep : ∀ k s, inv k s → inv (k + 1) (body s).1)
    (hstop : ∀ s, inv bound s → (body s).2 = false) (n k : Nat) (s : σ) (h : inv k s)
    (hk : k ≤ bound) (hn : bound < k + n) :
    ∃ j s', j ≤ bound ∧ inv j s' ∧ (body s').2 = false ∧ rounds body n s = ((body s').1, true) := by
  induction n generalizing k s with
  | zero => omega
  | succ n ih =>
    by_cases hb : (body s).2 = true
    · have hlt : k < bound := by
        rcases Nat.lt_or_eq_of_le hk with hlt | rfl
        · exact hlt
        · rw [hstop s h] at hb
          cases hb
      obtain ⟨j, s', hj, hs', hb', hr⟩ := ih (k + 1) (body s).1 (hstep k s h) hlt (by omega)
      exact ⟨j, s', hj, hs', hb', by rw [rounds, if_pos hb, hr]⟩
    · exact ⟨k, s, hk, h, by simpa using hb, by rw [rounds, if_neg hb]⟩

theorem rounds_of_measure {inv : σ → Prop} {μ : σ → Nat} (hstep : ∀ s, inv s → inv (body s).1)
    (hdec : ∀ s, inv s → (body s).2 = true → μ (body s).1 < μ s) {n : Nat} {s : σ} (h : inv s)
    (hn : μ s < n) :
    ∃ s', inv s' ∧ (body s').2 = false ∧ rounds body n s = ((body s').1, true) := by
  induction n generalizing s with
  | zero => omega
  | succ n ih =>
    by_cases hb : (body s).2 = true
    · have hlt := hdec s h hb
      obtain ⟨s', hs', hb', hr⟩ := ih (hstep s h) (by omega)
      exact ⟨s', hs', hb', by rw [rounds, if_pos hb, hr]⟩
    · exact ⟨s, h, by simpa using hb, by rw [rounds, if_neg hb]⟩

theorem countP_lt {α : Type} {l : List α} {p q : α → Bool} (h : ∀ x ∈ l, p x = true → q x = true) {a : α}
    (ha : a ∈ l) (hq : q a = true) (hp : p a = false) : l.countP p < l.countP q := by
  induction l with
  | nil => cases ha
  | cons x l ih =>
    obtain ⟨hx, hl⟩ := List.forall_mem_cons.mp h
    rw [List.countP_cons, List.countP_cons]
    rcases List.mem_cons.mp ha with rfl | ha
    · have hle := List.countP_mono_left hl
      simp only [hp, hq, if_true]
      simp only [Bool.false_eq_true, if_false]
      omega
    · have hlt := ih hl ha
      by_cases hpx : p x = true
      · simp only [hpx, hx hpx, if_true]
        omega
      · rw [if_neg hpx]
        omega

end Machine
end TrShared
