import Mathlib.Data.List.Basic
import Mathlib.Logic.Function.Basic

/-!
# TrShared.Machine.Shared

What several parties share.

* `Reply`: how a command sent to a remote store can end, as its caller sees it. An exception does
  not say whether the command took effect.
* `update_cases`: what a move of one party does to a family indexed by the parties.
* `Exclusive hold`: a family of lists, one for each party, in which no key occurs twice. It is the
  invariant behind every "nobody else works on this row" argument, and it is kept when a party
  drops keys and when it takes keys that nobody holds.
-/

namespace TrShared
namespace Machine

/-- The end of a remote command: it took effect and said so, it took effect and the answer was
lost, or it was refused. The last two raise in the caller. -/
inductive Reply where
  | ok
  | lost
  | refused
  deriving DecidableEq, Repr

/-- The command took effect. -/
def Reply.took : Reply → Bool
  | .ok | .lost => true
  | .refused => false

/-- The command returned normally. -/
def Reply.returned : Reply → Bool
  | .ok => true
  | .lost | .refused => false

/-- A party after one of them has moved: the one that moved, or another one as it was. -/
theorem update_cases {ι α : Type} [DecidableEq ι] (f : ι → α) (i : ι) (v : α) (j : ι) :
    (j = i ∧ Function.update f i v j = v) ∨ (j ≠ i ∧ Function.update f i v j = f j) := by
  by_cases hj : j = i
  · subst hj
    exact .inl ⟨rfl, Function.update_self ..⟩
  · exact .inr ⟨hj, Function.update_of_ne hj ..⟩

section Exclusive

variable {ι κ : Type} {hold : ι → List κ}

structure Exclusive (hold : ι → List κ) : Prop where
  nodup : ∀ i, (hold i).Nodup
  disjoint : ∀ i j, i ≠ j → List.Disjoint (hold i) (hold j)

theorem Exclusive.owner_unique (h : Exclusive hold) {i j : ι} {k : κ} (hi : k ∈ hold i)
    (hj : k ∈ hold j) : i = j := by
  by_contra hne
  exact h.disjoint i j hne hi hj

/-- Every party drops some of the keys it holds. -/
theorem Exclusive.mono {hold' : ι → List κ} (h : Exclusive hold)
    (hsub : ∀ i, (hold' i).Sublist (hold i)) : Exclusive hold' where
  nodup i := (hsub i).nodup (h.nodup i)
  disjoint i j hne _ hi hj := h.disjoint i j hne ((hsub i).subset hi) ((hsub j).subset hj)

variable [DecidableEq ι]

/-- A party exchanges what it holds for keys nobody else holds. -/
theorem Exclusive.acquire (h : Exclusive hold) {i : ι} {l : List κ} (hn : l.Nodup)
    (hd : ∀ j, j ≠ i → List.Disjoint l (hold j)) : Exclusive (Function.update hold i l) := by
  constructor
  · intro j
    by_cases hj : j = i
    · subst hj; simpa using hn
    · simpa [hj] using h.nodup j
  · intro a b hab
    by_cases ha : a = i
    · subst ha
      have hb : b ≠ a := fun e => hab e.symm
      simpa [hb] using hd b hb
    · by_cases hb : b = i
      · subst hb
        simpa [ha] using List.disjoint_symm (hd a ha)
      · simpa [ha, hb] using h.disjoint a b hab

/-- A party drops some of the keys it holds. -/
theorem Exclusive.release (h : Exclusive hold) {i : ι} {l : List κ} (hl : l.Sublist (hold i)) :
    Exclusive (Function.update hold i l) := by
  refine h.acquire (hl.nodup (h.nodup i)) ?_
  intro j hj k hk
  exact h.disjoint i j (fun e => hj e.symm) (hl.subset hk)

end Exclusive

end Machine
end TrShared
