import Mathlib.Data.List.Basic

/-!
# TrShared.Machine.History

Histories that grow at their end, and two ways to point into one.

* `Ends l e m`: `e` stands in `l` and exactly `m` was recorded after it.
* `Follows l e m e'`: `e'` stands after `e` in `l`, with `m` between them.

A law about pairs of entries is proved along a run with `follows_snoc`: the pairs of a longer
history are the old ones and those that end in the new entry. `ends_snoc` keeps the entries the law
will be about.
-/

namespace TrShared
namespace Machine

variable {α : Type} {l m : List α} {e e' x : α}

def Ends (l : List α) (e : α) (m : List α) : Prop := ∃ l₁, l = l₁ ++ e :: m

def Follows (l : List α) (e : α) (m : List α) (e' : α) : Prop :=
  ∃ l₁ l₂, l = l₁ ++ e :: (m ++ e' :: l₂)

/-- What a longer history holds was there before or is the new entry. -/
theorem mem_snoc (h : e ∈ l ++ [x]) : e ∈ l ∨ e = x := by
  simpa using h

theorem Ends.mem (h : Ends l e m) : e ∈ l := by
  obtain ⟨l₁, rfl⟩ := h
  simp

theorem not_ends_nil : ¬ Ends [] e m := by
  rintro ⟨l₁, h⟩
  simp at h

theorem not_follows_nil : ¬ Follows [] e m e' := by
  rintro ⟨l₁, l₂, h⟩
  simp at h

/-- Where an entry of a longer history stands. -/
theorem split_snoc {l₁ : List α} (h : l ++ [x] = l₁ ++ e :: m) :
    (m = [] ∧ e = x ∧ l₁ = l) ∨ ∃ m', m = m' ++ [x] ∧ l = l₁ ++ e :: m' := by
  rcases m.eq_nil_or_concat with rfl | ⟨m', y, rfl⟩
  · obtain ⟨hl, hx⟩ := List.append_inj' h rfl
    exact .inl ⟨rfl, by simpa using hx.symm, hl.symm⟩
  · have h' : l ++ [x] = (l₁ ++ e :: m') ++ [y] := by simpa using h
    obtain ⟨hl, hx⟩ := List.append_inj' h' rfl
    obtain rfl : x = y := by simpa using hx
    exact .inr ⟨m', by simp, hl⟩

theorem ends_snoc (h : Ends (l ++ [x]) e m) :
    (m = [] ∧ e = x) ∨ ∃ m', m = m' ++ [x] ∧ Ends l e m' := by
  obtain ⟨l₁, h⟩ := h
  rcases split_snoc h with ⟨hm, he, _⟩ | ⟨m', hm, hl⟩
  · exact .inl ⟨hm, he⟩
  · exact .inr ⟨m', hm, l₁, hl⟩

theorem follows_snoc (h : Follows (l ++ [x]) e m e') :
    Follows l e m e' ∨ (e' = x ∧ Ends l e m) := by
  obtain ⟨l₁, l₂, h⟩ := h
  rcases l₂.eq_nil_or_concat with rfl | ⟨l₂', y, rfl⟩
  · have h' : l ++ [x] = (l₁ ++ e :: m) ++ [e'] := by simpa using h
    obtain ⟨hl, hx⟩ := List.append_inj' h' rfl
    exact .inr ⟨by simpa using hx.symm, l₁, hl⟩
  · have h' : l ++ [x] = (l₁ ++ e :: (m ++ e' :: l₂')) ++ [y] := by simpa using h
    obtain ⟨hl, -⟩ := List.append_inj' h' rfl
    exact .inl ⟨l₁, l₂', hl⟩

end Machine
end TrShared
