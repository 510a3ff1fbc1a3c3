import Mathlib.Data.List.TakeWhile
import TrShared.Python.Regex
import TrShared.Python.Text

/-!
# TrShared.Redis.Glob

The patterns of `SCAN … MATCH`. Redis matches bytes: `*` is any text, `?` any byte, `[…]` a class with
ranges and with `^` for all others, and a backslash makes the next byte stand for itself. A class that
is not closed ends with the pattern.

* `glob_literal_star`: a pattern without special bytes and a star after it matches what it starts.
* `utf8_prefix_iff`: one text starts another exactly when its bytes do.
-/

namespace TrShared
namespace Redis

open Python Python.Regex

def star : UInt8 := 42

def questionMark : UInt8 := 63

def openBracket : UInt8 := 91

def closeBracket : UInt8 := 93

def caret : UInt8 := 94

def backslash : UInt8 := 92

def minus : UInt8 := 45

/-- The rest of a class, of which the bytes in `members` are known: its bytes, and the pattern after it.
The fuel is the length of the pattern. -/
def classMembers (members : UInt8 → Bool) : Nat → List UInt8 → (UInt8 → Bool) × List UInt8
  | 0, p => (members, p)
  | _ + 1, [] => (members, [])
  | n + 1, c :: p =>
    if c = backslash ∧ p ≠ [] then
      classMembers (fun b => members b || decide (some b = p.head?)) n p.tail
    else if c = closeBracket then (members, p)
    else
      match p with
      | d :: e :: rest =>
        if d = minus then
          classMembers (fun b => members b || decide (min c e ≤ b ∧ b ≤ max c e)) n rest
        else classMembers (fun b => members b || decide (b = c)) n p
      | _ => classMembers (fun b => members b || decide (b = c)) n p

/-- `$`. -/
def atEnd (_ : Option UInt8) (s : List UInt8) : Bool := s.isEmpty

/-- The pattern as a list of pieces; the fuel is its length. -/
def globPieces : Nat → List UInt8 → Pattern UInt8
  | 0, _ => [.assert atEnd]
  | _ + 1, [] => [.assert atEnd]
  | n + 1, c :: p =>
    if c = star then .many (fun _ => true) :: globPieces n p
    else if c = questionMark then .one (fun _ => true) :: globPieces n p
    else if c = openBracket then
      if p.head? = some caret then
        let (members, rest) := classMembers (fun _ => false) n p.tail
        .one (fun b => !members b) :: globPieces n rest
      else
        let (members, rest) := classMembers (fun _ => false) n p
        .one members :: globPieces n rest
    else
      match p with
      | d :: p' =>
        if c = backslash then .one (fun b => decide (b = d)) :: globPieces n p'
        else .one (fun b => decide (b = c)) :: globPieces n p
      | [] => .one (fun b => decide (b = c)) :: globPieces n []

/-- Whether the pattern matches the whole text. -/
def globBytes (pattern s : List UInt8) : Bool := (matchAt (globPieces pattern.length pattern) none s).isSome

/-- The bytes of a character. -/
def utf8Char (c : CodePoint) : List UInt8 :=
  let n := c.val
  if n < 0x80 then [UInt8.ofNat n]
  else if n < 0x800 then [UInt8.ofNat (0xC0 + n / 64), UInt8.ofNat (0x80 + n % 64)]
  else if n < 0x10000 then
    [UInt8.ofNat (0xE0 + n / 4096), UInt8.ofNat (0x80 + n / 64 % 64), UInt8.ofNat (0x80 + n % 64)]
  else
    [UInt8.ofNat (0xF0 + n / 262144), UInt8.ofNat (0x80 + n / 4096 % 64), UInt8.ofNat (0x80 + n / 64 % 64),
      UInt8.ofNat (0x80 + n % 64)]

/-- The bytes of a text. -/
def utf8 (s : Text) : List UInt8 := s.flatMap utf8Char

def glob (pattern s : Text) : Bool := globBytes (utf8 pattern) (utf8 s)

example : glob (text "p:[a-c]?:*") (text "p:bx:") = true := by decide +kernel

example : glob (text "p:[^a]*") (text "p:abc") = false := by decide +kernel

section Literal

/-- A byte that a pattern does not match as it is. -/
def isSpecial (b : UInt8) : Bool := decide (b ∈ [star, questionMark, openBracket, backslash])

theorem globPieces_ordinary {c : UInt8} (h : isSpecial c = false) (n : Nat) (p : List UInt8) :
    globPieces (n + 1) (c :: p) = .one (fun b => decide (b = c)) :: globPieces n p := by
  simp only [isSpecial, List.mem_cons, List.not_mem_nil, or_false, decide_eq_false_iff_not, not_or] at h
  obtain ⟨hstar, hquestion, hopen, hbackslash⟩ := h
  cases p with
  | nil => simp only [globPieces, if_neg hstar, if_neg hquestion, if_neg hopen]
  | cons d p => simp only [globPieces, if_neg hstar, if_neg hquestion, if_neg hopen, if_neg hbackslash]

theorem matchAt_star (before : Option UInt8) (s : List UInt8) :
    matchAt [.many (fun _ => true), .assert atEnd] before s ≠ none := by
  refine @matchAt_ne_none _ _ _ _ _ s.length ?_ ?_
  · have hall : s.takeWhile (fun _ => true) = s := List.takeWhile_eq_self_iff.mpr (fun _ _ => rfl)
    simp [Piece.tries, hall]
  · rw [List.drop_length, matchAt_assert, if_pos (by rfl)]
    simp [matchAt]

theorem matchAt_literal_star {literal : List UInt8} (h : ∀ b ∈ literal, isSpecial b = false)
    (before : Option UInt8) (s : List UInt8) :
    (matchAt (globPieces (literal ++ [star]).length (literal ++ [star])) before s).isSome = true ↔
      literal <+: s := by
  induction literal generalizing before s with
  | nil => exact iff_of_true (Option.isSome_iff_ne_none.mpr (matchAt_star before s)) List.nil_prefix
  | cons c literal ih =>
    obtain ⟨hc, hliteral⟩ := List.forall_mem_cons.mp h
    rw [List.cons_append, List.length_cons, globPieces_ordinary hc]
    cases s with
    | nil =>
      rw [matchAt_one_nil]
      simp
    | cons b s =>
      rw [matchAt_one_cons, List.cons_prefix_cons]
      by_cases hb : b = c
      · rw [if_pos (decide_eq_true hb), Option.isSome_map, ih hliteral]
        exact ⟨fun h => ⟨hb.symm, h⟩, fun h => h.2⟩
      · rw [if_neg (by simpa using hb)]
        exact iff_of_false (by simp) (fun h => hb h.1.symm)

theorem glob_literal_star {literal : List UInt8} (h : ∀ b ∈ literal, isSpecial b = false) (s : List UInt8) :
    globBytes (literal ++ [star]) s = true ↔ literal <+: s :=
  matchAt_literal_star h none s

end Literal

section Utf8

theorem ofNat_inj {a b : Nat} (h : UInt8.ofNat a = UInt8.ofNat b) : a % 256 = b % 256 := by
  have := congrArg UInt8.toNat h
  simpa using this

/-- The four forms of a character. -/
theorem utf8Char_cases (c : CodePoint) :
    (c.val < 0x80 ∧ utf8Char c = [UInt8.ofNat c.val]) ∨
    ((0x80 ≤ c.val ∧ c.val < 0x800) ∧
      utf8Char c = [UInt8.ofNat (0xC0 + c.val / 64), UInt8.ofNat (0x80 + c.val % 64)]) ∨
    ((0x800 ≤ c.val ∧ c.val < 0x10000) ∧
      utf8Char c = [UInt8.ofNat (0xE0 + c.val / 4096), UInt8.ofNat (0x80 + c.val / 64 % 64),
        UInt8.ofNat (0x80 + c.val % 64)]) ∨
    ((0x10000 ≤ c.val ∧ c.val < 0x110000) ∧
      utf8Char c = [UInt8.ofNat (0xF0 + c.val / 262144), UInt8.ofNat (0x80 + c.val / 4096 % 64),
        UInt8.ofNat (0x80 + c.val / 64 % 64), UInt8.ofNat (0x80 + c.val % 64)]) := by
  have hc := c.isLt
  simp only [utf8Char]
  by_cases h1 : c.val < 0x80
  · exact .inl ⟨h1, if_pos h1⟩
  · by_cases h2 : c.val < 0x800
    · exact .inr (.inl ⟨⟨by omega, h2⟩, by rw [if_neg h1, if_pos h2]⟩)
    · by_cases h3 : c.val < 0x10000
      · exact .inr (.inr (.inl ⟨⟨by omega, h3⟩, by rw [if_neg h1, if_neg h2, if_pos h3]⟩))
      · exact .inr (.inr (.inr ⟨⟨by omega, hc⟩, by rw [if_neg h1, if_neg h2, if_neg h3]⟩))

/-- The first byte tells how many follow, and all of them together the character. -/
theorem utf8Char_append_inj {c d : CodePoint} {x y : List UInt8} (h : utf8Char c ++ x = utf8Char d ++ y) :
    c = d ∧ x = y := by
  rcases utf8Char_cases c with ⟨hc, ec⟩ | ⟨hc, ec⟩ | ⟨hc, ec⟩ | ⟨hc, ec⟩
  all_goals
    rcases utf8Char_cases d with ⟨hd, ed⟩ | ⟨hd, ed⟩ | ⟨hd, ed⟩ | ⟨hd, ed⟩
  all_goals
    rw [ec, ed] at h
    simp only [List.cons_append, List.nil_append, List.cons.injEq] at h
    have hfirst := ofNat_inj h.1
  any_goals omega
  · exact ⟨Fin.ext (by omega), h.2⟩
  · have hsecond := ofNat_inj h.2.1
    exact ⟨Fin.ext (by omega), h.2.2⟩
  · have hsecond := ofNat_inj h.2.1
    have hthird := ofNat_inj h.2.2.1
    exact ⟨Fin.ext (by omega), h.2.2.2⟩
  · have hsecond := ofNat_inj h.2.1
    have hthird := ofNat_inj h.2.2.1
    have hfourth := ofNat_inj h.2.2.2.1
    exact ⟨Fin.ext (by omega), h.2.2.2.2⟩

theorem utf8_append (a b : Text) : utf8 (a ++ b) = utf8 a ++ utf8 b := List.flatMap_append

/-- One text starts another exactly when its bytes do. -/
theorem utf8_prefix_iff {a b : Text} : utf8 a <+: utf8 b ↔ a <+: b := by
  constructor
  · intro h
    induction a generalizing b with
    | nil => exact List.nil_prefix
    | cons c a ih =>
      obtain ⟨t, ht⟩ := h
      cases b with
      | nil =>
        rcases utf8Char_cases c with ⟨-, ec⟩ | ⟨-, ec⟩ | ⟨-, ec⟩ | ⟨-, ec⟩
        all_goals simp [utf8, ec] at ht
      | cons d b =>
        simp only [utf8, List.flatMap_cons, List.append_assoc] at ht
        obtain ⟨rfl, hrest⟩ := utf8Char_append_inj ht
        exact List.cons_prefix_cons.mpr ⟨rfl, ih ⟨t, hrest⟩⟩
  · rintro ⟨t, rfl⟩
    rw [utf8_append]
    exact List.prefix_append _ _

/-- A character that a pattern does not match as it is. -/
def isSpecialChar (c : CodePoint) : Bool :=
  decide (c ∈ [codePoint '*', codePoint '?', codePoint '[', 92])

theorem special_ofNat {m : Nat} (h : isSpecial (UInt8.ofNat m) = true) :
    m % 256 = 42 ∨ m % 256 = 63 ∨ m % 256 = 91 ∨ m % 256 = 92 := by
  simp only [isSpecial, List.mem_cons, List.not_mem_nil, or_false, decide_eq_true_eq] at h
  rcases h with h | h | h | h
  · exact .inl (@ofNat_inj m 42 h)
  · exact .inr (.inl (@ofNat_inj m 63 h))
  · exact .inr (.inr (.inl (@ofNat_inj m 91 h)))
  · exact .inr (.inr (.inr (@ofNat_inj m 92 h)))

theorem not_special_of_char {c : CodePoint} (h : isSpecialChar c = false) :
    ∀ b ∈ utf8Char c, isSpecial b = false := by
  intro b hb
  by_contra hspecial
  rw [Bool.not_eq_false] at hspecial
  rcases utf8Char_cases c with ⟨hc, ec⟩ | ⟨hc, ec⟩ | ⟨hc, ec⟩ | ⟨hc, ec⟩
  · rw [ec, List.mem_singleton] at hb
    rw [hb] at hspecial
    have hval := special_ofNat hspecial
    have hchar : isSpecialChar c = true := by
      refine decide_eq_true ?_
      simp only [List.mem_cons, List.not_mem_nil, or_false, Fin.ext_iff]
      change c.val = 42 ∨ c.val = 63 ∨ c.val = 91 ∨ c.val = 92
      omega
    rw [h] at hchar
    cases hchar
  -- the bytes of a longer form are all above the special ones
  all_goals
    rw [ec] at hb
    simp only [List.mem_cons, List.not_mem_nil, or_false] at hb
  · rcases hb with rfl | rfl
    all_goals
      have hval := special_ofNat hspecial
      omega
  · rcases hb with rfl | rfl | rfl
    all_goals
      have hval := special_ofNat hspecial
      omega
  · rcases hb with rfl | rfl | rfl | rfl
    all_goals
      have hval := special_ofNat hspecial
      omega

/-- A text without special characters and a star after it: the texts that it starts. -/
theorem glob_plain_star {literal : Text} (h : ∀ c ∈ literal, isSpecialChar c = false) (s : Text) :
    glob (literal ++ text "*") s = true ↔ literal <+: s := by
  have hbytes : ∀ b ∈ utf8 literal, isSpecial b = false := by
    intro b hb
    obtain ⟨c, hc, hb⟩ := List.mem_flatMap.mp hb
    exact not_special_of_char (h c hc) b hb
  rw [glob, utf8_append, show utf8 (text "*") = [star] by rfl, glob_literal_star hbytes, utf8_prefix_iff]

end Utf8

end Redis
end TrShared
