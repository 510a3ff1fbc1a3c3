import Mathlib.Data.Nat.Digits.Defs
import TrShared.Python.Text

/-!
# TrShared.Python.Decimal

Decimal digits: what `\d` matches, `int` of a text of digits and `str` of a natural number.

* `toNat_str`: `int(str(n))` is `n`.
* `str_injective`: different numbers have different texts.
-/

namespace TrShared
namespace Python

/-- The first of each ten decimal digits. -/
def decimalZeros : List Nat :=
  [0x30, 0x660, 0x6F0, 0x7C0, 0x966, 0x9E6, 0xA66, 0xAE6, 0xB66, 0xBE6, 0xC66, 0xCE6, 0xD66, 0xDE6,
   0xE50, 0xED0, 0xF20, 0x1040, 0x1090, 0x17E0, 0x1810, 0x1946, 0x19D0, 0x1A80, 0x1A90, 0x1B50, 0x1BB0,
   0x1C40, 0x1C50, 0xA620, 0xA8D0, 0xA900, 0xA9D0, 0xA9F0, 0xAA50, 0xABF0, 0xFF10, 0x104A0, 0x10D30,
   0x11066, 0x110F0, 0x11136, 0x111D0, 0x112F0, 0x11450, 0x114D0, 0x11650, 0x116C0, 0x11730, 0x118E0,
   0x11950, 0x11C50, 0x11D50, 0x11DA0, 0x11F50, 0x16A60, 0x16AC0, 0x16B50, 0x1D7CE, 0x1D7D8, 0x1D7E2,
   0x1D7EC, 0x1D7F6, 0x1E140, 0x1E2F0, 0x1E4F0, 0x1E950, 0x1FBF0]

def isDigitOf (c : CodePoint) (z : Nat) : Bool := decide (z ≤ c.val ∧ c.val < z + 10)

/-- `\d`. -/
def isDecimal (c : CodePoint) : Bool := decimalZeros.any (isDigitOf c)

def digitValue (c : CodePoint) : Nat := c.val - (decimalZeros.find? (isDigitOf c)).getD 0

/-- The number that a text of digits writes. -/
def toNat (s : Text) : Nat := s.foldl (fun n c => 10 * n + digitValue c) 0

/-- The most digits that `int` reads, `sys.int_info.default_max_str_digits`. -/
def maxStrDigits : Nat := 4300

/-- `int(s)` of a text of digits; `none` for a `ValueError`. -/
def int (s : Text) : Option Nat := if s.length ≤ maxStrDigits then some (toNat s) else none

def digit (d : Nat) : CodePoint := Fin.ofNat 0x110000 (48 + d)

/-- `str(n)`. -/
def str (n : Nat) : Text := if n = 0 then [digit 0] else (Nat.digits 10 n).reverse.map digit

theorem digit_spec : ∀ d < 10, isDecimal (digit d) = true ∧ digitValue (digit d) = d := by decide

theorem digit_of_mem_str {n : Nat} {c : CodePoint} (h : c ∈ str n) : ∃ d < 10, c = digit d := by
  rw [str] at h
  split at h
  · exact ⟨0, by decide, List.mem_singleton.mp h⟩
  · obtain ⟨d, hd, rfl⟩ := List.mem_map.mp h
    exact ⟨d, Nat.digits_lt_base (by decide) (List.mem_reverse.mp hd), rfl⟩

theorem str_ne_nil (n : Nat) : str n ≠ [] := by
  rw [str]
  split
  · simp
  · rename_i h
    simpa [Nat.digits_eq_nil_iff_eq_zero] using h

theorem toNat_str (n : Nat) : toNat (str n) = n := by
  rw [str]
  split
  · rename_i h
    rw [h]
    decide
  · rw [toNat, List.foldl_map, List.foldl_reverse]
    calc (Nat.digits 10 n).foldr (fun d m => 10 * m + digitValue (digit d)) 0
        = (Nat.digits 10 n).foldr (fun d m => d + 10 * m) 0 := by
          refine List.foldr_ext _ _ 0 ?_
          intro d hd m
          rw [(digit_spec d (Nat.digits_lt_base (by decide) hd)).2, Nat.add_comm]
      _ = Nat.ofDigits 10 (Nat.digits 10 n) := (Nat.ofDigits_eq_foldr 10 _).symm
      _ = n := Nat.ofDigits_digits 10 n

theorem str_injective : Function.Injective str := by
  intro m n h
  rw [← toNat_str m, ← toNat_str n, h]

end Python
end TrShared
