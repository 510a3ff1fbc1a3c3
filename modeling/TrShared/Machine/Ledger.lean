import Mathlib.Data.List.Perm.Basic
import Mathlib.Data.List.Nodup
import TrShared.Machine.Run

/-!
# TrShared.Machine.Ledger

Resources that are made one after the other, numbered in that order, and handed from one place to the
next: a connection pool is bound to its holder, then being closed, then closed.

* `Ledger made places`: what the places hold has been made, and nothing is in two of them.
* `Missing made places n`: `n` was made and no place holds it any more.
* `Ledger.make`, `Ledger.move` and `Ledger.drop` are what an operation can do to the books.
* `missing_iff`: over a run, what is missing in the end is exactly what some step has dropped.
-/

namespace TrShared
namespace Machine

/-- Nothing is in two places, and only what was made is in one. -/
structure Ledger (made : Nat) (places : List Nat) : Prop where
  nodup : places.Nodup
  lt : ∀ n ∈ places, n < made

/-- Made, and in none of the places. -/
def Missing (made : Nat) (places : List Nat) (n : Nat) : Prop := n < made ∧ n ∉ places

namespace Ledger

variable {made : Nat} {places places' : List Nat}

theorem empty : Ledger 0 [] := ⟨.nil, by simp⟩

theorem not_missing_empty {n : Nat} : ¬ Missing 0 [] n := fun h => absurd h.1 (Nat.not_lt_zero n)

/-- The next resource is made and put somewhere. -/
theorem make (h : Ledger made places) (hp : places'.Perm (made :: places)) :
    Ledger (made + 1) places' where
  nodup := by
    refine hp.nodup_iff.2 (List.nodup_cons.2 ⟨?_, h.nodup⟩)
    intro hm
    exact Nat.lt_irrefl _ (h.lt _ hm)
  lt n hn := by
    rcases List.mem_cons.1 (hp.mem_iff.1 hn) with rfl | hn
    · exact Nat.lt_succ_self _
    · exact Nat.lt_succ_of_lt (h.lt n hn)

theorem missing_make (hp : places'.Perm (made :: places)) (n : Nat) :
    Missing (made + 1) places' n ↔ Missing made places n := by
  simp only [Missing, hp.mem_iff, List.mem_cons]
  constructor
  · rintro ⟨hlt, hn⟩
    have hne : n ≠ made := fun e => hn (.inl e)
    exact ⟨by omega, fun hm => hn (.inr hm)⟩
  · rintro ⟨hlt, hn⟩
    exact ⟨by omega, fun hm => hm.elim (fun e => by omega) hn⟩

/-- Resources go from one place to another, and the last reference to some (`dropped`) is given up. -/
theorem drop (h : Ledger made places) {dropped : List Nat}
    (hp : (dropped ++ places').Perm places) : Ledger made places' where
  nodup := (List.nodup_append'.1 (hp.nodup_iff.2 h.nodup)).2.1
  lt n hn := h.lt n (hp.mem_iff.1 (List.mem_append_right _ hn))

theorem missing_drop (h : Ledger made places) {dropped : List Nat}
    (hp : (dropped ++ places').Perm places) (n : Nat) :
    Missing made places' n ↔ Missing made places n ∨ n ∈ dropped := by
  have hd : List.Disjoint dropped places' := (List.nodup_append'.1 (hp.nodup_iff.2 h.nodup)).2.2
  simp only [Missing, ← hp.mem_iff, List.mem_append]
  constructor
  · rintro ⟨hlt, hn⟩
    by_cases hm : n ∈ dropped
    · exact .inr hm
    · exact .inl ⟨hlt, fun h' => h'.elim hm hn⟩
  · rintro (⟨hlt, hn⟩ | hm)
    · exact ⟨hlt, fun h' => hn (.inr h')⟩
    · exact ⟨h.lt n (hp.mem_iff.1 (List.mem_append_left _ hm)), fun h' => hd hm h'⟩

theorem move (h : Ledger made places) (hp : places'.Perm places) : Ledger made places' :=
  @drop _ _ _ h [] hp

theorem missing_move (hp : places'.Perm places) (n : Nat) :
    Missing made places' n ↔ Missing made places n := by
  simp only [Missing, hp.mem_iff]

/-- The task at the head of a queue, or anywhere in it, leaves the queue. -/
theorem perm_eraseIdx {β : Type} {l : List β} {i : Nat} {b : β} (h : l[i]? = some b) :
    (b :: l.eraseIdx i).Perm l := by
  obtain ⟨hi, rfl⟩ := List.getElem?_eq_some_iff.1 h
  exact List.getElem_cons_eraseIdx_perm hi

theorem count_eraseIdx {β : Type} {l : List β} {i : Nat} {b : β} (h : l[i]? = some b)
    (f : β → Nat) (n : Nat) :
    (l.map f).count n = ((l.eraseIdx i).map f).count n + [f b].count n := by
  rw [← ((perm_eraseIdx h).map f).count_eq n, List.map_cons, ← List.singleton_append,
    List.count_append, Nat.add_comm]

/-- Two places never share a resource. -/
theorem disjoint {l₁ l₂ : List Nat} (h : Ledger made (l₁ ++ l₂)) : List.Disjoint l₁ l₂ :=
  (List.nodup_append'.1 h.nodup).2.2

end Ledger

section Run

universe u v

variable {σ : Type u} {α : Type v} {step : σ → α → Option σ} {ok : σ → α → Prop}
  {made : σ → Nat} {places : σ → List Nat} {drops : σ → α → List Nat} {I : σ → Prop}

/-- What is missing at the end of a run was missing before it or was dropped by one of its steps. -/
theorem missing_iff
    (hinv : ∀ s a s', I s → ok s a → step s a = some s' → I s')
    (hstep : ∀ s a s', I s → ok s a → step s a = some s' → ∀ n,
      Missing (made s') (places s') n ↔ Missing (made s) (places s) n ∨ n ∈ drops s a)
    {s s' : σ} {as : List α} (h : Run step ok s as s') (hi : I s) (n : Nat) :
    Missing (made s') (places s') n ↔ Missing (made s) (places s) n ∨
      ∃ bs a cs s₁, as = bs ++ a :: cs ∧ Run step ok s bs s₁ ∧ n ∈ drops s₁ a := by
  induction h with
  | nil => simp
  | @cons s s₁ s' a as ho hs _ ih =>
    rw [ih (hinv _ _ _ hi ho hs), hstep _ _ _ hi ho hs]
    constructor
    · rintro ((hm | hd) | ⟨bs, b, cs, s₂, rfl, hr, hd⟩)
      · exact .inl hm
      · exact .inr ⟨[], a, as, s, rfl, .nil, hd⟩
      · exact .inr ⟨a :: bs, b, cs, s₂, rfl, .cons ho hs hr, hd⟩
    · rintro (hm | ⟨bs, b, cs, s₂, he, hr, hd⟩)
      · exact .inl (.inl hm)
      · cases hr with
        | nil =>
          obtain ⟨rfl, rfl⟩ := List.cons.inj he
          exact .inl (.inr hd)
        | cons _ hs' hr =>
          obtain ⟨rfl, rfl⟩ := List.cons.inj he
          rw [hs] at hs'
          cases hs'
          exact .inr ⟨_, b, cs, s₂, rfl, hr, hd⟩

end Run
end Machine
end TrShared
