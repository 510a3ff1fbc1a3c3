import Mathlib.Data.List.Basic
import TrShared.Python.Decimal

/-!
# TrShared.Python.Repr

`repr` of a string, and `bytes.hex`. What `isprintable` says of characters beyond ASCII is a parameter.

* `reprText_encodable`: `repr` escapes the surrogates.
-/

namespace TrShared
namespace Python

/-- `str.isprintable` beyond ASCII; the surrogates are of the category `Cs`. -/
structure UnicodeData where
  isPrintable : CodePoint → Bool
  surrogate : ∀ c, isSurrogate c = true → isPrintable c = false

/-- A hexadecimal digit. -/
def hexChar (d : Nat) : CodePoint :=
  if d < 10 then Fin.ofNat 0x110000 (48 + d) else Fin.ofNat 0x110000 (87 + d)

/-- The last `width` hexadecimal digits. -/
def hexText : (width : Nat) → Nat → Text
  | 0, _ => []
  | width + 1, n => hexText width (n / 16) ++ [hexChar (n % 16)]

/-- `bytes.hex`. -/
def hex (bytes : List UInt8) : Text := bytes.flatMap (fun b => hexText 2 b.toNat)

def backslash : CodePoint := 92

/-- One character of `repr`, between these quotes. -/
def reprChar (u : UnicodeData) (quote c : CodePoint) : Text :=
  if c = quote ∨ c = backslash then [backslash, c]
  else if c.val = 9 then backslash :: text "t"
  else if c.val = 10 then backslash :: text "n"
  else if c.val = 13 then backslash :: text "r"
  else if 32 ≤ c.val ∧ c.val < 127 then [c]
  else if 128 ≤ c.val ∧ u.isPrintable c then [c]
  else if c.val < 0x100 then backslash :: text "x" ++ hexText 2 c.val
  else if c.val < 0x10000 then backslash :: text "u" ++ hexText 4 c.val
  else backslash :: text "U" ++ hexText 8 c.val

def quoteOf (s : Text) : CodePoint :=
  if codePoint '\'' ∈ s ∧ codePoint '"' ∉ s then codePoint '"' else codePoint '\''

/-- `repr(s)`. -/
def reprText (u : UnicodeData) (s : Text) : Text :=
  quoteOf s :: s.flatMap (reprChar u (quoteOf s)) ++ [quoteOf s]

/-- `sep.join(parts)`. -/
def join (sep : Text) (parts : List Text) : Text := sep.intercalate parts

section Encodable

variable {a b s : Text} {c : CodePoint}

@[simp] theorem encodable_nil : encodable [] = true := rfl

@[simp] theorem encodable_cons : encodable (c :: s) = (!isSurrogate c && encodable s) := rfl

@[simp] theorem encodable_append : encodable (a ++ b) = (encodable a && encodable b) := List.all_append

theorem encodable_iff : encodable s = true ↔ ∀ c ∈ s, isSurrogate c = false := by
  simp [encodable]

theorem encodable_flatMap {α : Type} {l : List α} {f : α → Text} (h : ∀ a ∈ l, encodable (f a) = true) :
    encodable (l.flatMap f) = true := by
  induction l with
  | nil => rfl
  | cons a l ih =>
    obtain ⟨ha, hl⟩ := List.forall_mem_cons.mp h
    rw [List.flatMap_cons, encodable_append, ha, ih hl]
    rfl

theorem encodable_join {sep : Text} (hsep : encodable sep = true) {parts : List Text}
    (h : ∀ p ∈ parts, encodable p = true) : encodable (join sep parts) = true := by
  induction parts with
  | nil => rfl
  | cons p parts ih =>
    obtain ⟨hp, hparts⟩ := List.forall_mem_cons.mp h
    cases parts with
    | nil => simpa [join, List.intercalate] using hp
    | cons q parts =>
      have hrest := ih hparts
      simp only [join, List.intercalate, List.intersperse, List.flatten_cons, encodable_append] at hrest ⊢
      simp [hp, hsep, hrest]

/-- A character is no surrogate. -/
theorem codePoint_not_surrogate (c : Char) : isSurrogate (codePoint c) = false := by
  have h := c.valid
  simp only [UInt32.isValidChar, Nat.isValidChar] at h
  rw [isSurrogate, decide_eq_false_iff_not]
  change ¬ (0xD800 ≤ c.val.toNat ∧ c.val.toNat ≤ 0xDFFF)
  omega

theorem text_encodable (s : String) : encodable (text s) = true := by
  rw [encodable_iff]
  intro c hc
  obtain ⟨d, -, rfl⟩ := List.mem_map.mp hc
  exact codePoint_not_surrogate d

theorem hexChar_not_surrogate (n : Nat) : isSurrogate (hexChar (n % 16)) = false := by
  have hdigits : ∀ d < 16, isSurrogate (hexChar d) = false := by decide
  exact hdigits _ (Nat.mod_lt n (by omega))

theorem hexText_encodable (width n : Nat) : encodable (hexText width n) = true := by
  induction width generalizing n with
  | zero => rfl
  | succ width ih => simp [hexText, ih, hexChar_not_surrogate]

theorem hex_encodable (bytes : List UInt8) : encodable (hex bytes) = true :=
  encodable_flatMap (fun b _ => hexText_encodable 2 b.toNat)

theorem latin1_encodable (bytes : List UInt8) : encodable (decodeLatin1 bytes) = true := by
  rw [encodable_iff]
  intro c hc
  obtain ⟨b, -, rfl⟩ := List.mem_map.mp hc
  have hb := b.toNat_lt
  simp only [isSurrogate, decide_eq_false_iff_not]
  omega

theorem str_encodable (n : Nat) : encodable (str n) = true := by
  have hdigits : ∀ d < 10, isSurrogate (digit d) = false := by decide
  rw [encodable_iff]
  intro c hc
  obtain ⟨d, hd, rfl⟩ := digit_of_mem_str hc
  exact hdigits d hd

end Encodable

theorem reprChar_encodable (u : UnicodeData) {quote : CodePoint} (hquote : isSurrogate quote = false)
    (c : CodePoint) : encodable (reprChar u quote c) = true := by
  have hbackslash : isSurrogate backslash = false := rfl
  by_cases hc : isSurrogate c = true
  · -- a surrogate is written with its number
    have hprintable := u.surrogate c hc
    have hrange : 0xD800 ≤ c.val ∧ c.val ≤ 0xDFFF := by simpa [isSurrogate] using hc
    have hne : ¬ (c = quote ∨ c = backslash) := by
      rintro (rfl | rfl)
      · rw [hquote] at hc
        cases hc
      · rw [hbackslash] at hc
        cases hc
    unfold reprChar
    rw [if_neg hne, if_neg (by omega), if_neg (by omega), if_neg (by omega), if_neg (by omega),
      if_neg (by simp [hprintable]), if_neg (by omega), if_pos (by omega)]
    simp [hbackslash, text_encodable, hexText_encodable]
  · rw [Bool.not_eq_true] at hc
    unfold reprChar
    repeat' split
    all_goals simp [hc, hbackslash, text_encodable, hexText_encodable]

theorem quoteOf_not_surrogate (s : Text) : isSurrogate (quoteOf s) = false := by
  unfold quoteOf
  split
  · rfl
  · rfl

theorem reprText_encodable (u : UnicodeData) (s : Text) : encodable (reprText u s) = true := by
  have hchars : encodable (s.flatMap (reprChar u (quoteOf s))) = true :=
    encodable_flatMap (fun c _ => reprChar_encodable u (quoteOf_not_surrogate s) c)
  simp [reprText, hchars, quoteOf_not_surrogate]

end Python
end TrShared
