import Mathlib.Data.List.Infix

/-!
# TrShared.Sql.Like

The `LIKE` operator of SQL over any alphabet: a pattern is a text in which one character stands for any
text, one for any character, and one makes the next character literal. `like` is the backtracking
matcher; a pattern that ends in a lone escape character matches nothing.

* `like_literal_append`: the literal form of a text (`literal`) in front of a pattern matches exactly
  that text in front of a match.
* `like_literal`, `like_contains` and `literal_injective` follow.
-/

namespace TrShared
namespace Sql

/-- The three characters that a pattern does not match as they are. -/
structure Wildcards (α : Type) where
  escape : α
  any : α
  one : α
  escape_ne_any : escape ≠ any
  escape_ne_one : escape ≠ one
  any_ne_one : any ≠ one

section Match

variable {α : Type} [DecidableEq α]

/-- `s LIKE pattern ESCAPE escape`. -/
def like (w : Wildcards α) : (pattern s : List α) → Bool
  | [], s => s.isEmpty
  | c :: p, s =>
    if c = w.escape then
      match p, s with
      | a :: p, b :: s => decide (a = b) && like w p s
      | _, _ => false
    else if c = w.any then s.tails.any (fun t => like w p t)
    else
      match s with
      | [] => false
      | b :: s => (decide (c = w.one) || decide (c = b)) && like w p s

variable {w : Wildcards α} {a c : α} {p s : List α}

theorem like_nil : like w [] s = true ↔ s = [] := by
  simp [like]

theorem like_cons (he : c ≠ w.escape) : like w (c :: p) s =
    if c = w.any then s.tails.any (fun t => like w p t)
    else
      match s with
      | [] => false
      | b :: s => (decide (c = w.one) || decide (c = b)) && like w p s := by
  rw [like.eq_def]
  simp only [if_neg he]

theorem like_escape : like w (w.escape :: a :: p) s = true ↔ ∃ t, s = a :: t ∧ like w p t = true := by
  cases s with
  | nil => simp [like]
  | cons b s =>
    simp only [like, if_true, Bool.and_eq_true, decide_eq_true_eq, List.cons.injEq]
    constructor
    · rintro ⟨rfl, h⟩
      exact ⟨s, ⟨rfl, rfl⟩, h⟩
    · rintro ⟨t, ⟨rfl, rfl⟩, h⟩
      exact ⟨rfl, h⟩

theorem like_any : like w (w.any :: p) s = true ↔ ∃ t, t <:+ s ∧ like w p t = true := by
  have hne : ¬ w.any = w.escape := fun h => w.escape_ne_any h.symm
  rw [like_cons hne, if_pos rfl]
  simp [List.any_eq_true, List.mem_tails]

theorem like_ordinary (he : c ≠ w.escape) (ha : c ≠ w.any) (ho : c ≠ w.one) :
    like w (c :: p) s = true ↔ ∃ t, s = c :: t ∧ like w p t = true := by
  rw [like_cons he, if_neg ha]
  cases s with
  | nil => simp
  | cons b s =>
    simp only [decide_eq_false ho, Bool.false_or, Bool.and_eq_true,
      decide_eq_true_eq, List.cons.injEq]
    constructor
    · rintro ⟨rfl, h⟩
      exact ⟨s, ⟨rfl, rfl⟩, h⟩
    · rintro ⟨t, ⟨rfl, rfl⟩, h⟩
      exact ⟨rfl, h⟩

/-! ## Literal texts -/

/-- Each of the three characters behind an escape character, all others as they are. -/
def literal (w : Wildcards α) (t : List α) : List α :=
  t.flatMap (fun a => if a = w.escape ∨ a = w.any ∨ a = w.one then [w.escape, a] else [a])

theorem literal_cons {t : List α} : literal w (a :: t) =
    (if a = w.escape ∨ a = w.any ∨ a = w.one then [w.escape, a] else [a]) ++ literal w t := rfl

/-- By induction on the text: each of its characters is consumed as itself. -/
theorem like_literal_append (t : List α) :
    like w (literal w t ++ p) s = true ↔ ∃ u, s = t ++ u ∧ like w p u = true := by
  induction t generalizing s with
  | nil => simp [literal]
  | cons a t ih =>
    rw [literal_cons]
    have hcons : like w ((if a = w.escape ∨ a = w.any ∨ a = w.one then [w.escape, a] else [a]) ++
        literal w t ++ p) s = true ↔ ∃ v, s = a :: v ∧ like w (literal w t ++ p) v = true := by
      split
      · exact like_escape
      · rename_i h
        simp only [not_or] at h
        exact like_ordinary h.1 h.2.1 h.2.2
    rw [hcons]
    constructor
    · rintro ⟨v, rfl, hv⟩
      obtain ⟨u, rfl, hu⟩ := ih.mp hv
      exact ⟨u, rfl, hu⟩
    · rintro ⟨u, rfl, hu⟩
      exact ⟨t ++ u, rfl, ih.mpr ⟨u, rfl, hu⟩⟩

/-- A literal text matches itself only. -/
theorem like_literal (t : List α) : like w (literal w t) s = true ↔ s = t := by
  have h := @like_literal_append α _ w [] s t
  rw [List.append_nil] at h
  rw [h]
  simp [like_nil]

/-- Between two `any`, it matches the texts that contain it. -/
theorem like_contains (t : List α) :
    like w (w.any :: (literal w t ++ [w.any])) s = true ↔ t <:+: s := by
  rw [like_any]
  constructor
  · rintro ⟨v, ⟨pre, rfl⟩, hv⟩
    obtain ⟨u, rfl, -⟩ := (like_literal_append t).mp hv
    exact ⟨pre, u, by rw [List.append_assoc]⟩
  · rintro ⟨pre, post, rfl⟩
    refine ⟨t ++ post, ⟨pre, by rw [List.append_assoc]⟩, ?_⟩
    rw [like_literal_append]
    exact ⟨post, rfl, like_any.mpr ⟨[], List.nil_suffix, like_nil.mpr rfl⟩⟩

/-- Two texts with one literal form match each other. -/
theorem literal_injective (w : Wildcards α) : Function.Injective (literal w) := by
  intro t u h
  have ht : like w (literal w t) t = true := (like_literal t).mpr rfl
  rw [h] at ht
  exact (like_literal u).mp ht

end Match

end Sql
end TrShared
