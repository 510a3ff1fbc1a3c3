import Mathlib.Data.List.Basic

/-!
# TrShared.Python.Utf8

`str.encode("utf-8")` and `bytes.decode("utf-8", errors="replace")`. The decoder reads one byte at a
time and remembers what a character that has begun still owes. A byte that does not fit ends the
character: all of it so far becomes one U+FFFD, and the byte is read again as a first byte.

* `encodeUtf8_decodeReplace_iff`: decoding and encoding again gives the bytes back exactly when they
  are valid UTF-8.
-/

namespace TrShared
namespace Python

/-- `s.encode("utf-8")`. -/
def encodeUtf8 (s : String) : List UInt8 := s.toList.flatMap String.utf8EncodeChar

def ValidUtf8 (bytes : List UInt8) : Prop := bytes.toByteArray.IsValidUTF8

def replacement : Char := Char.ofNat 0xFFFD

/-- Between characters, or inside one: the ranges of the bytes it still owes and its value so far. -/
inductive DecoderState where
  | start
  | inside (owed : List (Nat × Nat)) (value : Nat)

def continuation : Nat × Nat := (0x80, 0xBF)

/-- The character is complete when it owes nothing. -/
def owing : List (Nat × Nat) → Nat → List Char × DecoderState
  | [], value => ([Char.ofNat value], .start)
  | owed, value => ([], .inside owed value)

/-- A first byte. After `E0`, `ED`, `F0` and `F4` the second byte has a narrower range: no overlong
form, no surrogate and nothing above U+10FFFF. -/
def firstByte (b : Nat) : List Char × DecoderState :=
  if b < 0x80 then owing [] b
  else if b < 0xC2 then ([replacement], .start)
  else if b < 0xE0 then owing [continuation] (b - 0xC0)
  else if b = 0xE0 then owing [(0xA0, 0xBF), continuation] 0
  else if b = 0xED then owing [(0x80, 0x9F), continuation] 0xD
  else if b < 0xF0 then owing [continuation, continuation] (b - 0xE0)
  else if b = 0xF0 then owing [(0x90, 0xBF), continuation, continuation] 0
  else if b < 0xF4 then owing [continuation, continuation, continuation] (b - 0xF0)
  else if b = 0xF4 then owing [(0x80, 0x8F), continuation, continuation] 4
  else ([replacement], .start)

def readByte : DecoderState → Nat → List Char × DecoderState
  | .inside (range :: owed) value, b =>
    if range.1 ≤ b ∧ b ≤ range.2 then owing owed (value * 64 + (b - 0x80))
    else
      let (chars, q) := firstByte b
      (replacement :: chars, q)
  | _, b => firstByte b

def decodeFrom : DecoderState → List UInt8 → List Char
  | .start, [] => []
  | .inside _ _, [] => [replacement]
  | q, b :: bytes => (readByte q b.toNat).1 ++ decodeFrom (readByte q b.toNat).2 bytes

/-- `bytes.decode("utf-8", errors="replace")`. -/
def decodeReplace (bytes : List UInt8) : String := String.ofList (decodeFrom .start bytes)

/-! ## Decoding what was encoded -/

theorem decodeFrom_cons (q : DecoderState) (b : UInt8) (bytes : List UInt8) :
    decodeFrom q (b :: bytes) =
      (readByte q b.toNat).1 ++ decodeFrom (readByte q b.toNat).2 bytes := by
  cases q <;> rfl

/-- A character that owes something takes a byte of the range it owes. -/
theorem decodeFrom_owed {range : Nat × Nat} {owed : List (Nat × Nat)} {value n : Nat}
    {bytes : List UInt8} (hn : n < 256) (hr : range.1 ≤ n ∧ n ≤ range.2) :
    decodeFrom (.inside (range :: owed) value) (UInt8.ofNat n :: bytes) =
      (owing owed (value * 64 + (n - 0x80))).1 ++
        decodeFrom (owing owed (value * 64 + (n - 0x80))).2 bytes := by
  rw [decodeFrom_cons, UInt8.toNat_ofNat_of_lt' hn, readByte, if_pos hr]

theorem decodeFrom_first {n : Nat} {bytes : List UInt8} (hn : n < 256) :
    decodeFrom .start (UInt8.ofNat n :: bytes) =
      (firstByte n).1 ++ decodeFrom (firstByte n).2 bytes := by
  rw [decodeFrom_cons, UInt8.toNat_ofNat_of_lt' hn, readByte]
  simp

/-- What the first byte of three leaves open. -/
theorem firstByte_three {b : Nat} (hlow : 0xE0 ≤ b) (hhigh : b < 0xF0) : ∃ range : Nat × Nat,
    firstByte b = ([], .inside [range, continuation] (b - 0xE0)) ∧
    ∀ n, 0x80 ≤ n → n ≤ 0xBF → (b = 0xE0 → 0xA0 ≤ n) → (b = 0xED → n ≤ 0x9F) →
      range.1 ≤ n ∧ n ≤ range.2 := by
  have hnot : ¬ b < 0x80 ∧ ¬ b < 0xC2 ∧ ¬ b < 0xE0 := by omega
  obtain ⟨h₁, h₂, h₃⟩ := hnot
  by_cases he0 : b = 0xE0
  · subst he0
    exact ⟨(0xA0, 0xBF), rfl, fun n _ h he _ => ⟨he rfl, h⟩⟩
  · by_cases hed : b = 0xED
    · subst hed
      exact ⟨(0x80, 0x9F), rfl, fun n h _ _ he => ⟨h, he rfl⟩⟩
    · refine ⟨continuation, ?_, fun n h h' _ _ => ⟨h, h'⟩⟩
      rw [firstByte, if_neg h₁, if_neg h₂, if_neg h₃, if_neg he0, if_neg hed, if_pos hhigh, owing]
      simp

/-- What the first byte of four leaves open. -/
theorem firstByte_four {b : Nat} (hlow : 0xF0 ≤ b) (hhigh : b ≤ 0xF4) : ∃ range : Nat × Nat,
    firstByte b = ([], .inside [range, continuation, continuation] (b - 0xF0)) ∧
    ∀ n, 0x80 ≤ n → n ≤ 0xBF → (b = 0xF0 → 0x90 ≤ n) → (b = 0xF4 → n ≤ 0x8F) →
      range.1 ≤ n ∧ n ≤ range.2 := by
  have hnot : ¬ b < 0x80 ∧ ¬ b < 0xC2 ∧ ¬ b < 0xE0 ∧ ¬ b = 0xE0 ∧ ¬ b = 0xED ∧ ¬ b < 0xF0 := by
    omega
  obtain ⟨h₁, h₂, h₃, h₄, h₅, h₆⟩ := hnot
  by_cases hf0 : b = 0xF0
  · subst hf0
    exact ⟨(0x90, 0xBF), rfl, fun n _ h he _ => ⟨he rfl, h⟩⟩
  · by_cases hf4 : b = 0xF4
    · subst hf4
      exact ⟨(0x80, 0x8F), rfl, fun n h _ _ he => ⟨h, he rfl⟩⟩
    · have hlt : b < 0xF4 := by omega
      refine ⟨continuation, ?_, fun n h h' _ _ => ⟨h, h'⟩⟩
      rw [firstByte, if_neg h₁, if_neg h₂, if_neg h₃, if_neg h₄, if_neg h₅, if_neg h₆, if_neg hf0,
        if_pos hlt, owing]
      simp

theorem continuation_bounds (n : Nat) :
    continuation.1 ≤ n % 0x40 + 0x80 ∧ n % 0x40 + 0x80 ≤ continuation.2 := by
  simp only [continuation]
  omega

section Sizes

variable {v : Nat} {bytes : List UInt8}

theorem decodeFrom_one (h : v ≤ 0x7F) :
    decodeFrom .start (UInt8.ofNat v :: bytes) = Char.ofNat v :: decodeFrom .start bytes := by
  have hlt : v < 0x80 := by omega
  rw [decodeFrom_first (by omega), firstByte, if_pos hlt]
  rfl

theorem decodeFrom_two (hlow : 0x7F < v) (hhigh : v ≤ 0x7FF) :
    decodeFrom .start (UInt8.ofNat (v / 64 % 0x20 + 0xC0) :: UInt8.ofNat (v % 0x40 + 0x80) :: bytes) =
      Char.ofNat v :: decodeFrom .start bytes := by
  have hfirst : firstByte (v / 64 % 0x20 + 0xC0) = ([], .inside [continuation] (v / 64)) := by
    have hnot : ¬ v / 64 % 0x20 + 0xC0 < 0x80 ∧ ¬ v / 64 % 0x20 + 0xC0 < 0xC2 := by omega
    have hlt : v / 64 % 0x20 + 0xC0 < 0xE0 := by omega
    have hval : v / 64 % 0x20 + 0xC0 - 0xC0 = v / 64 := by omega
    rw [firstByte, if_neg hnot.1, if_neg hnot.2, if_pos hlt, hval, owing]
    simp
  have hval : v / 64 * 64 + (v % 0x40 + 0x80 - 0x80) = v := by omega
  rw [decodeFrom_first (by omega), hfirst, List.nil_append,
    decodeFrom_owed (by omega) (continuation_bounds v), hval]
  rfl

theorem decodeFrom_three (hlow : 0x7FF < v) (hhigh : v ≤ 0xFFFF)
    (hvalid : v < 0xD800 ∨ 0xDFFF < v) :
    decodeFrom .start (UInt8.ofNat (v / 4096 % 0x10 + 0xE0) ::
        UInt8.ofNat (v / 64 % 0x40 + 0x80) :: UInt8.ofNat (v % 0x40 + 0x80) :: bytes) =
      Char.ofNat v :: decodeFrom .start bytes := by
  obtain ⟨range, hfirst, hrange⟩ := firstByte_three
    (b := v / 4096 % 0x10 + 0xE0) (by omega) (by omega)
  have hsecond : range.1 ≤ v / 64 % 0x40 + 0x80 ∧ v / 64 % 0x40 + 0x80 ≤ range.2 :=
    hrange _ (by omega) (by omega) (by omega) (by omega)
  have hval : ((v / 4096 % 0x10 + 0xE0 - 0xE0) * 64 + (v / 64 % 0x40 + 0x80 - 0x80)) * 64 +
      (v % 0x40 + 0x80 - 0x80) = v := by omega
  rw [decodeFrom_first (by omega), hfirst, List.nil_append, decodeFrom_owed (by omega) hsecond,
    owing, List.nil_append, decodeFrom_owed (by omega) (continuation_bounds v), hval]
  · rfl
  · simp

theorem decodeFrom_four (hlow : 0xFFFF < v) (hhigh : v < 0x110000) :
    decodeFrom .start (UInt8.ofNat (v / 262144 % 0x08 + 0xF0) ::
        UInt8.ofNat (v / 4096 % 0x40 + 0x80) :: UInt8.ofNat (v / 64 % 0x40 + 0x80) ::
        UInt8.ofNat (v % 0x40 + 0x80) :: bytes) =
      Char.ofNat v :: decodeFrom .start bytes := by
  obtain ⟨range, hfirst, hrange⟩ := firstByte_four
    (b := v / 262144 % 0x08 + 0xF0) (by omega) (by omega)
  have hsecond : range.1 ≤ v / 4096 % 0x40 + 0x80 ∧ v / 4096 % 0x40 + 0x80 ≤ range.2 :=
    hrange _ (by omega) (by omega) (by omega) (by omega)
  have hval : (((v / 262144 % 0x08 + 0xF0 - 0xF0) * 64 + (v / 4096 % 0x40 + 0x80 - 0x80)) * 64 +
      (v / 64 % 0x40 + 0x80 - 0x80)) * 64 + (v % 0x40 + 0x80 - 0x80) = v := by omega
  rw [decodeFrom_first (by omega), hfirst, List.nil_append, decodeFrom_owed (by omega) hsecond,
    owing, List.nil_append, decodeFrom_owed (by omega) (continuation_bounds (v / 64)),
    owing, List.nil_append, decodeFrom_owed (by omega) (continuation_bounds v), hval]
  · rfl
  · simp
  · simp

end Sizes

theorem decodeFrom_encodeChar (c : Char) (bytes : List UInt8) :
    decodeFrom .start (String.utf8EncodeChar c ++ bytes) = c :: decodeFrom .start bytes := by
  have hvalid : c.toNat < 0xD800 ∨ (0xDFFF < c.toNat ∧ c.toNat < 0x110000) := c.valid
  have hc : Char.ofNat c.toNat = c := Char.ofNat_toNat c
  simp only [String.utf8EncodeChar, Char.toNat_val]
  split
  · rename_i h₁
    rw [List.singleton_append, decodeFrom_one h₁, hc]
  · split
    · rename_i h₁ h₂
      simp only [List.cons_append, List.nil_append]
      rw [decodeFrom_two (Nat.lt_of_not_le h₁) h₂, hc]
    · split
      · rename_i _ h₂ h₃
        simp only [List.cons_append, List.nil_append]
        rw [decodeFrom_three (Nat.lt_of_not_le h₂) h₃ (by omega), hc]
      · rename_i h₃
        simp only [List.cons_append, List.nil_append]
        rw [decodeFrom_four (Nat.lt_of_not_le h₃) (by omega), hc]

theorem decodeFrom_encoded (chars : List Char) :
    decodeFrom .start (chars.flatMap String.utf8EncodeChar) = chars := by
  induction chars with
  | nil => rfl
  | cons c chars ih => rw [List.flatMap_cons, decodeFrom_encodeChar, ih]

theorem toByteArray_injective {l m : List UInt8} (h : l.toByteArray = m.toByteArray) : l = m := by
  have := congrArg (fun b : ByteArray => b.data.toList) h
  simpa using this

/-- Bytes are valid when some text encodes to them. -/
theorem validUtf8_iff {bytes : List UInt8} : ValidUtf8 bytes ↔ ∃ s, encodeUtf8 s = bytes := by
  constructor
  · rintro ⟨chars, h⟩
    exact ⟨String.ofList chars, by
      rw [encodeUtf8, String.toList_ofList]
      exact (toByteArray_injective h).symm⟩
  · rintro ⟨s, rfl⟩
    exact ⟨s.toList, rfl⟩

theorem encodeUtf8_decodeReplace_iff (bytes : List UInt8) :
    encodeUtf8 (decodeReplace bytes) = bytes ↔ ValidUtf8 bytes := by
  rw [validUtf8_iff]
  constructor
  · intro h
    exact ⟨decodeReplace bytes, h⟩
  · rintro ⟨s, rfl⟩
    rw [decodeReplace, encodeUtf8, encodeUtf8, decodeFrom_encoded, String.toList_ofList]

/-- A byte that begins no character, a character cut short by the next one, and one cut short by
the end. -/
example : decodeFrom .start [0xFF, 0xE2, 0x82, 0x41, 0xE2, 0x82] =
    [replacement, replacement, 'A', replacement] := by decide

end Python
end TrShared
