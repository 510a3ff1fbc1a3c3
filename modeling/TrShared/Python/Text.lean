import Mathlib.Algebra.GroupWithZero.Nat
import Mathlib.Data.List.Infix
import Mathlib.Data.Fin.Basic

/-!
# TrShared.Python.Text

Python's `str`: a list of code points, surrogates included, and the methods that the database helpers
apply to it. The operations do not look at what a code point is, so they are stated for lists over any
type.

* `replaceAll_singleton`: replacing one character is a replacement in every place.
-/

namespace TrShared
namespace Python

/-- What `ord` can return. -/
abbrev CodePoint := Fin 0x110000

abbrev Text := List CodePoint

instance neZero_codePoints : NeZero 0x110000 := ⟨by decide⟩

instance : LawfulBEq CodePoint := instLawfulBEq

instance : LawfulBEq Text := List.instLawfulBEq

/-- A character as its code point. -/
def codePoint (c : Char) : CodePoint :=
  ⟨c.toNat, by
    have h := c.valid
    simp only [UInt32.isValidChar, Nat.isValidChar] at h
    simp only [Char.toNat]
    omega⟩

/-- A literal of the source. -/
def text (s : String) : Text := s.toList.map codePoint

theorem codePoint_injective : Function.Injective codePoint := by
  intro c d h
  rw [codePoint, codePoint, Fin.mk.injEq] at h
  exact Char.toNat_inj.1 h

theorem text_injective : Function.Injective text := by
  intro s t h
  exact String.toList_inj.1 (List.map_injective_iff.2 codePoint_injective h)

def slash : CodePoint := codePoint '/'

def dot : CodePoint := codePoint '.'

def colon : CodePoint := codePoint ':'

def hyphen : CodePoint := codePoint '-'

def newline : CodePoint := 10

def isSurrogate (c : CodePoint) : Bool := decide (0xD800 ≤ c.val ∧ c.val ≤ 0xDFFF)

/-- `s.encode("utf-8")` does not raise. -/
def encodable (s : Text) : Bool := s.all (fun c => !isSurrogate c)

/-- `bytes.decode("latin-1")`: each byte is the code point of its value. -/
def decodeLatin1 (bytes : List UInt8) : Text :=
  bytes.map (fun b => ⟨b.toNat, by have := b.toNat_lt; omega⟩)

/-- `str.isspace` for one character. -/
def isSpace (c : CodePoint) : Bool :=
  decide ((9 ≤ c.val ∧ c.val ≤ 13) ∨ (28 ≤ c.val ∧ c.val ≤ 32) ∨ c.val = 133 ∨ c.val = 160 ∨
    c.val = 0x1680 ∨ (0x2000 ≤ c.val ∧ c.val ≤ 0x200A) ∨ c.val = 0x2028 ∨ c.val = 0x2029 ∨
    c.val = 0x202F ∨ c.val = 0x205F ∨ c.val = 0x3000)

/-- `s.strip()`. -/
def strip (s : Text) : Text := ((s.dropWhile isSpace).reverse.dropWhile isSpace).reverse

/-- `str.lower` on ASCII. A text compared with ASCII words without a k or an i is not told apart by
what else `lower` does. -/
def asciiLower (s : Text) : Text := s.map (fun c => if 65 ≤ c.val ∧ c.val ≤ 90 then c + 32 else c)

section Partition

variable {α : Type} [DecidableEq α]

/-- `s.partition(c)` without its middle part: `s` and nothing when `c` is not there. -/
def partition (c : α) (s : List α) : List α × List α :=
  (s.takeWhile (fun a => decide (a ≠ c)), (s.dropWhile (fun a => decide (a ≠ c))).tail)

/-- `s.rpartition(c)[2]`: what follows the last `c`, or all of `s`. -/
def afterLast (c : α) (s : List α) : List α :=
  (s.reverse.takeWhile (fun a => decide (a ≠ c))).reverse

end Partition

section Replace

variable {α : Type} [DecidableEq α]

/-- `s.replace(old, new, 1)`, for an `old` that is not empty. -/
def replaceFirst (old new : List α) : List α → List α
  | [] => []
  | c :: s =>
    if old.isPrefixOf (c :: s) then new ++ (c :: s).drop old.length
    else c :: replaceFirst old new s

/-- `s.replace(old, new)`, for an `old` that is not empty; `skip` characters are left of the occurrence
that was just replaced. -/
def replaceFrom (old new : List α) : (skip : Nat) → List α → List α
  | _, [] => []
  | skip + 1, _ :: s => replaceFrom old new skip s
  | 0, c :: s =>
    if old.isPrefixOf (c :: s) then new ++ replaceFrom old new (old.length - 1) s
    else c :: replaceFrom old new 0 s

def replaceAll (old new s : List α) : List α := replaceFrom old new 0 s

variable {c : α} {new s : List α}

theorem replaceAll_singleton :
    replaceAll [c] new s = s.flatMap (fun a => if a = c then new else [a]) := by
  induction s with
  | nil => rfl
  | cons a s ih =>
    rw [replaceAll] at ih
    rw [replaceAll, replaceFrom, List.flatMap_cons]
    by_cases ha : a = c
    · simp [ha, ih]
    · have hc : ¬ c = a := fun h => ha h.symm
      simp [ha, hc, ih]

end Replace

end Python
end TrShared
