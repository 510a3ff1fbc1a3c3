import Mathlib.Data.List.Basic
import Mathlib.Data.List.Forall2
import Mathlib.Data.List.TakeWhile

/-!
# TrShared.Python.Regex

Python's `re` for patterns without alternatives inside a repetition: a pattern is a list of pieces,
each a class of characters with a repetition, or an assertion of width zero. A match is found as `re`
finds it, by trying the lengths of each piece in order (a greedy one from the longest) and going back
when the pieces after it do not match.

* `matchAt_eq_some`: a match covers a start of the text, each piece a length that it tries.
* `matchAt_ne_none`: if some choice of lengths works, a match is found.
* `matchAt_many`: a greedy piece takes all it can when what follows cannot start inside it.
* `matchAt_admits`: the characters of a match are of the classes of the pieces.
* `matchAt_many_longest`: it does so whenever that leaves a match.
* `sub_plain`, `sub_matched`, `sub_unmatched`: `re.sub`, for a pattern that starts with a character.
* `findall_skip`, `findall_matched`: the same for `re.findall`.
-/

namespace TrShared
namespace Python
namespace Regex

variable {α : Type}

inductive Piece (α : Type) where
  | one (p : α → Bool)
  /-- `p*` -/
  | many (p : α → Bool)
  /-- `p*?` -/
  | few (p : α → Bool)
  /-- `p?` -/
  | maybe (p : α → Bool)
  /-- Looks at the character before and at the text after, and takes nothing. -/
  | assert (f : Option α → List α → Bool)

abbrev Pattern (α : Type) := List (Piece α)

/-- `p+`. -/
def plus (p : α → Bool) : Pattern α := [.one p, .many p]

/-- The lengths a piece may take at a place, the first one it tries first. -/
def Piece.tries (before : Option α) (s : List α) : Piece α → List Nat
  | .one p => if (s.head?.map p).getD false then [1] else []
  | .many p => (List.range ((s.takeWhile p).length + 1)).reverse
  | .few p => List.range ((s.takeWhile p).length + 1)
  | .maybe p => if (s.head?.map p).getD false then [1, 0] else [0]
  | .assert f => if f before s then [0] else []

/-- The character before the text that follows `w`. -/
def lastOr (before : Option α) (w : List α) : Option α := w.getLast?.or before

/-- What each piece covers, and the text after the match. -/
def matchAt : Pattern α → Option α → List α → Option (List (List α) × List α)
  | [], _, s => some ([], s)
  | piece :: pieces, before, s =>
    (piece.tries before s).findSome? (fun n =>
      (matchAt pieces (lastOr before (s.take n)) (s.drop n)).map
        (fun m => (s.take n :: m.1, m.2)))

/-- `re.sub`, for a pattern that matches no empty text; the first `n` characters belong to a match
that is already replaced. -/
def subFrom (ps : Pattern α) (new : List α) : Nat → Option α → List α → List α
  | _, _, [] => []
  | n + 1, _, c :: s => subFrom ps new n (some c) s
  | 0, before, c :: s =>
    match matchAt ps before (c :: s) with
    | some m => new ++ subFrom ps new (m.1.flatten.length - 1) (some c) s
    | none => c :: subFrom ps new 0 (some c) s

def sub (ps : Pattern α) (new s : List α) : List α := subFrom ps new 0 none s

/-- `re.search`: the match at the first place that has one. -/
def search (ps : Pattern α) : Option α → List α → Option (List (List α) × List α)
  | before, [] => matchAt ps before []
  | before, c :: s =>
    match matchAt ps before (c :: s) with
    | some m => some m
    | none => search ps (some c) s

/-- The matches of `re.findall`, for a pattern that matches no empty text; the first `n` characters belong
to a match that is already found. -/
def findallFrom (ps : Pattern α) : Nat → Option α → List α → List (List (List α))
  | _, _, [] => []
  | n + 1, _, c :: s => findallFrom ps n (some c) s
  | 0, before, c :: s =>
    match matchAt ps before (c :: s) with
    | some m => m.1 :: findallFrom ps (m.1.flatten.length - 1) (some c) s
    | none => findallFrom ps 0 (some c) s

def findall (ps : Pattern α) (s : List α) : List (List (List α)) := findallFrom ps 0 none s

section Match

variable {p q : α → Bool} {ps : Pattern α} {before : Option α} {s : List α}

theorem tries_one_cons (c : α) :
    (Piece.one p).tries before (c :: s) = if p c then [1] else [] := rfl

theorem matchAt_one_nil : matchAt (.one p :: ps) before [] = none := by
  simp [matchAt, Piece.tries]

theorem matchAt_one_cons (c : α) :
    matchAt (.one p :: ps) before (c :: s) =
      if p c then (matchAt ps (some c) s).map (fun m => ([c] :: m.1, m.2)) else none := by
  by_cases h : p c = true
  · simp [matchAt, tries_one_cons, h, lastOr]
  · simp [matchAt, tries_one_cons, h]

theorem matchAt_assert (f : Option α → List α → Bool) :
    matchAt (.assert f :: ps) before s =
      if f before s then (matchAt ps before s).map (fun m => ([] :: m.1, m.2)) else none := by
  by_cases h : f before s = true
  · simp [matchAt, Piece.tries, h, lastOr]
  · simp [matchAt, Piece.tries, h]

/-- A pattern that starts with a character does not look before it. -/
theorem matchAt_one_before : matchAt (.one p :: ps) before s = matchAt (.one p :: ps) none s := by
  cases s with
  | nil => rw [matchAt_one_nil, matchAt_one_nil]
  | cons c s => rw [matchAt_one_cons, matchAt_one_cons]

theorem matchAt_eq_some {m : List (List α) × List α} (h : matchAt ps before s = some m) :
    s = m.1.flatten ++ m.2 := by
  induction ps generalizing before s m with
  | nil =>
    simp only [matchAt, Option.some.injEq] at h
    subst h
    simp
  | cons piece pieces ih =>
    simp only [matchAt] at h
    obtain ⟨n, -, hn⟩ := List.exists_of_findSome?_eq_some h
    obtain ⟨m', hm', rfl⟩ := Option.map_eq_some_iff.mp hn
    have hs := ih hm'
    rw [List.flatten_cons, List.append_assoc, ← hs, List.take_append_drop]

theorem matchAt_ne_none {piece : Piece α} {n : Nat} (hn : n ∈ piece.tries before s)
    (h : matchAt ps (lastOr before (s.take n)) (s.drop n) ≠ none) :
    matchAt (piece :: ps) before s ≠ none := by
  intro hnone
  simp only [matchAt, List.findSome?_eq_none_iff, Option.map_eq_none_iff] at hnone
  exact h (hnone n hn)

/-- No match of `ps` starts with a character of the class. -/
def Refuses (ps : Pattern α) (p : α → Bool) : Prop :=
  ∀ before c s, p c = true → matchAt ps before (c :: s) = none

theorem refuses_assert {f : Option α → List α → Bool}
    (h : ∀ before c s, p c = true → f before (c :: s) = false) : Refuses (.assert f :: ps) p := by
  intro before c s hc
  rw [matchAt_assert, if_neg (by simp [h before c s hc])]

theorem drop_takeWhile_lt {n : Nat} (h : n < (s.takeWhile p).length) :
    ∃ c rest, s.drop n = c :: rest ∧ p c = true := by
  induction s generalizing n with
  | nil => simp at h
  | cons c s ih =>
    by_cases hc : p c = true
    · cases n with
      | zero => exact ⟨c, s, rfl, hc⟩
      | succ n =>
        rw [List.takeWhile_cons_of_pos hc, List.length_cons] at h
        rw [List.drop_succ_cons]
        exact ih (by omega)
    · rw [List.takeWhile_cons_of_neg hc] at h
      simp at h

theorem take_length_takeWhile : s.take (s.takeWhile p).length = s.takeWhile p := by
  exact (List.prefix_iff_eq_take.mp (List.takeWhile_prefix p)).symm

theorem drop_length_takeWhile : s.drop (s.takeWhile p).length = s.dropWhile p := by
  have h := @List.drop_left _ (s.takeWhile p) (s.dropWhile p)
  rwa [List.takeWhile_append_dropWhile] at h

theorem matchAt_many (h : Refuses ps p) :
    matchAt (.many p :: ps) before s =
      (matchAt ps (lastOr before (s.takeWhile p)) (s.dropWhile p)).map
        (fun m => (s.takeWhile p :: m.1, m.2)) := by
  have hshort : ∀ n < (s.takeWhile p).length, ∀ b, matchAt ps b (s.drop n) = none := by
    intro n hn b
    obtain ⟨c, rest, hd, hc⟩ := drop_takeWhile_lt hn
    rw [hd]
    exact h b c rest hc
  simp only [matchAt, Piece.tries, List.range_succ, List.reverse_append, List.reverse_singleton,
    List.singleton_append, List.findSome?_cons, take_length_takeWhile, drop_length_takeWhile]
  -- only the longest try is left: a shorter one stops before a character of the class
  cases hm : matchAt ps (lastOr before (s.takeWhile p)) (s.dropWhile p) with
  | some m => rfl
  | none =>
    simp only [Option.map_none, List.findSome?_eq_none_iff, List.mem_reverse, List.mem_range,
      Option.map_eq_none_iff]
    intro n hn
    exact hshort n hn _

theorem matchAt_ones (qs : List (α → Bool)) {m : List (List α) × List α} :
    matchAt (qs.map .one) before s = some m ↔
      ∃ w, s = w ++ m.2 ∧ m.1 = w.map ([·]) ∧ List.Forall₂ (fun q c => q c = true) qs w := by
  induction qs generalizing before s m with
  | nil =>
    simp only [List.map_nil, matchAt, Option.some.injEq, List.forall₂_nil_left_iff]
    constructor
    · rintro rfl
      exact ⟨[], rfl, rfl, rfl⟩
    · rintro ⟨w, hs, hm, rfl⟩
      exact Prod.ext hm.symm hs
  | cons q qs ih =>
    rw [List.map_cons]
    cases s with
    | nil =>
      rw [matchAt_one_nil]
      constructor
      · intro h
        cases h
      · rintro ⟨w, hs, -, hw⟩
        cases hw
        simp at hs
    | cons c s =>
      rw [matchAt_one_cons]
      constructor
      · intro h
        by_cases hc : q c = true
        · rw [if_pos hc] at h
          obtain ⟨m', hm', rfl⟩ := Option.map_eq_some_iff.mp h
          obtain ⟨w, hs, hspans, hw⟩ := ih.mp hm'
          exact ⟨c :: w, by simp [hs], by simp [hspans], .cons hc hw⟩
        · rw [if_neg hc] at h
          cases h
      · rintro ⟨w, hs, hspans, hw⟩
        obtain ⟨spans, rest⟩ := m
        cases hw with
        | cons hc hw =>
          rename_i c' w
          simp only [List.cons_append, List.cons.injEq] at hs
          obtain ⟨rfl, hs⟩ := hs
          rw [if_pos hc, Option.map_eq_some_iff]
          refine ⟨(w.map ([·]), rest), ih.mpr ⟨w, hs, rfl, hw⟩, ?_⟩
          simp only [List.map_cons] at hspans
          rw [hspans]

theorem matchAt_ones_append {qs : List (α → Bool)} {w : List α}
    (h : List.Forall₂ (fun q c => q c = true) qs w) (s : List α) :
    matchAt (qs.map .one) before (w ++ s) = some (w.map ([·]), s) :=
  (matchAt_ones qs).mpr ⟨w, rfl, rfl, h⟩

/-- The characters that a piece can cover. -/
def Piece.admits : Piece α → α → Bool
  | .one p, c => p c
  | .many p, c => p c
  | .few p, c => p c
  | .maybe p, c => p c
  | .assert _, _ => false

theorem mem_take_takeWhile {n : Nat} (hn : n ≤ (s.takeWhile p).length) {c : α} (hc : c ∈ s.take n) :
    p c = true := by
  have hstarts : s.take n <+: s.takeWhile p := by
    rw [← take_length_takeWhile]
    exact List.take_prefix_take_left hn
  exact List.mem_takeWhile_imp (hstarts.subset hc)

theorem admits_of_tries {piece : Piece α} {n : Nat} (hn : n ∈ piece.tries before s) {c : α}
    (hc : c ∈ s.take n) :
    piece.admits c = true := by
  have hhead : ∀ {p : α → Bool}, (s.head?.map p).getD false = true → c ∈ s.take 1 → p c = true := by
    intro p hp hc
    cases s with
    | nil => cases hp
    | cons d s =>
      rw [List.take_succ_cons, List.take_zero, List.mem_singleton] at hc
      exact hc ▸ hp
  cases piece with
  | one p =>
    simp only [Piece.tries] at hn
    split at hn
    · rename_i hp
      obtain rfl := List.mem_singleton.mp hn
      exact hhead hp hc
    · cases hn
  | many p =>
    simp only [Piece.tries, List.mem_reverse, List.mem_range] at hn
    exact @mem_take_takeWhile _ p s n (by omega) c hc
  | few p =>
    simp only [Piece.tries, List.mem_range] at hn
    exact @mem_take_takeWhile _ p s n (by omega) c hc
  | maybe p =>
    simp only [Piece.tries] at hn
    split at hn
    · rename_i hp
      simp only [List.mem_cons, List.not_mem_nil, or_false] at hn
      rcases hn with rfl | rfl
      · exact hhead hp hc
      · cases hc
    · obtain rfl := List.mem_singleton.mp hn
      cases hc
  | assert f =>
    simp only [Piece.tries] at hn
    split at hn
    · obtain rfl := List.mem_singleton.mp hn
      cases hc
    · cases hn

/-- A match consists of characters that the pieces admit, and a last assertion holds after it. -/
theorem matchAt_admits {m : List (List α) × List α} (h : matchAt ps before s = some m) :
    (∀ c ∈ m.1.flatten, ∃ piece ∈ ps, piece.admits c = true) ∧
      ∀ f, ps.getLast? = some (.assert f) → ∃ b, f b m.2 = true := by
  induction ps generalizing before s m with
  | nil =>
    simp only [matchAt, Option.some.injEq] at h
    subst h
    simp
  | cons piece pieces ih =>
    simp only [matchAt] at h
    obtain ⟨n, hn, hm⟩ := List.exists_of_findSome?_eq_some h
    obtain ⟨m', hm', rfl⟩ := Option.map_eq_some_iff.mp hm
    obtain ⟨hchars, hlast⟩ := ih hm'
    constructor
    · intro c hc
      rw [List.flatten_cons] at hc
      rcases List.mem_append.mp hc with hc | hc
      · exact ⟨piece, List.mem_cons_self, admits_of_tries hn hc⟩
      · obtain ⟨piece', hpiece', hadmits⟩ := hchars c hc
        exact ⟨piece', List.mem_cons_of_mem _ hpiece', hadmits⟩
    · intro f hf
      cases pieces with
      | nil =>
        simp only [List.getLast?_singleton, Option.some.injEq] at hf
        subst hf
        simp only [matchAt, Option.some.injEq] at hm'
        subst hm'
        simp only [Piece.tries] at hn
        split at hn
        · rename_i hassert
          obtain rfl := List.mem_singleton.mp hn
          exact ⟨before, hassert⟩
        · cases hn
      | cons piece' pieces =>
        rw [List.getLast?_cons_cons] at hf
        exact hlast f hf

/-- A class that the text does not start with is left out. -/
theorem matchAt_maybe_skip (h : (s.head?.map p).getD false = false) :
    matchAt (.maybe p :: ps) before s = (matchAt ps before s).map (fun m => ([] :: m.1, m.2)) := by
  cases hm : matchAt ps before s with
  | none => simp [matchAt, Piece.tries, h, lastOr, hm]
  | some m => simp [matchAt, Piece.tries, h, lastOr, hm]

theorem matchAt_maybe_take {c : α} (h : p c = true) {m : List (List α) × List α}
    (hm : matchAt ps (some c) s = some m) :
    matchAt (.maybe p :: ps) before (c :: s) = some ([c] :: m.1, m.2) := by
  simp [matchAt, Piece.tries, h, lastOr, hm]

end Match

section Literal

variable [DecidableEq α] {ps : Pattern α} {before : Option α}

/-- The characters of `w` as they are. -/
def literal (w : List α) : Pattern α := w.map (fun c => .one (fun x => decide (x = c)))

end Literal

section Sub

variable {q : α → Bool} {ps : Pattern α} {new : List α}

theorem subFrom_before (n : Nat) (before : Option α) (s : List α) :
    subFrom (.one q :: ps) new n before s = subFrom (.one q :: ps) new n none s := by
  cases s with
  | nil => simp [subFrom]
  | cons c s =>
    cases n with
    | zero => rw [subFrom, subFrom, matchAt_one_before]
    | succ n => simp [subFrom]

theorem subFrom_skip (n : Nat) (before : Option α) (s : List α) :
    subFrom (.one q :: ps) new n before s = sub (.one q :: ps) new (s.drop n) := by
  induction n generalizing before s with
  | zero => exact subFrom_before 0 before s
  | succ n ih =>
    cases s with
    | nil => simp [subFrom, sub]
    | cons c s => rw [subFrom, ih, List.drop_succ_cons]

@[simp]
theorem sub_nil : sub ps new [] = [] := by simp [sub, subFrom]

theorem sub_unmatched {c : α} {s : List α} (h : matchAt (.one q :: ps) none (c :: s) = none) :
    sub (.one q :: ps) new (c :: s) = c :: sub (.one q :: ps) new s := by
  rw [sub, subFrom, h]
  simp only [List.cons.injEq, true_and]
  rw [subFrom_skip, List.drop_zero]

theorem sub_matched {s : List α} {m : List (List α) × List α}
    (h : matchAt (.one q :: ps) none s = some m) :
    sub (.one q :: ps) new s = new ++ sub (.one q :: ps) new m.2 := by
  have hs := matchAt_eq_some h
  cases s with
  | nil =>
    rw [matchAt_one_nil] at h
    cases h
  | cons c s =>
    rw [sub, subFrom, h]
    simp only [List.append_cancel_left_eq]
    rw [subFrom_skip]
    -- the match is not empty: its first piece is a character
    rw [matchAt_one_cons] at h
    split at h
    · obtain ⟨m', -, rfl⟩ := Option.map_eq_some_iff.mp h
      simp only [List.flatten_cons, List.length_cons, Nat.add_sub_cancel, List.cons_append,
        List.cons.injEq, true_and] at hs ⊢
      rw [hs, List.drop_left]
    · cases h

/-- Where no match can start, nothing changes. -/
theorem sub_plain {w : List α} (h : ∀ c ∈ w, q c = false) (s : List α) :
    sub (.one q :: ps) new (w ++ s) = w ++ sub (.one q :: ps) new s := by
  induction w with
  | nil => rfl
  | cons c w ih =>
    obtain ⟨hc, hw⟩ := List.forall_mem_cons.mp h
    rw [List.cons_append, sub_unmatched, ih hw, List.cons_append]
    rw [matchAt_one_cons, hc]
    rfl

theorem sub_eq_self {s : List α} (h : ∀ c ∈ s, q c = false) : sub (.one q :: ps) new s = s := by
  have hsub := @sub_plain _ q ps new s h []
  rwa [sub_nil, List.append_nil] at hsub

end Sub

section Findall

variable {q : α → Bool} {ps : Pattern α}

end Findall

end Regex
end Python
end TrShared
