import Mathlib.Data.Nat.Digits.Lemmas
import Mathlib.Tactic.IntervalCases
import TrShared.Python.JsonText

/-!
# TrShared.Python.JsonRoundTrip

`json.loads` undoes `json.dumps` on the values that hold no key twice and no float but those which `float`
reads back from the text that `repr` gives them (`Plain`).

* `loads_dumpsAs`, `loads_dumps`, and with them `dumps_injective`.
* `sortEntries_unique`: with sorted keys, two dicts have the same entries if their texts are the same.
-/

namespace TrShared
namespace Python

/-! ## Strings -/

theorem hexValue_escapeDigit : ∀ d < 16, hexValue (escapeDigit d) = some d := by decide

theorem hex4_unicodeEscape {n : Nat} (h : n < 0x10000) :
    hex4 (escapeDigit (n / 4096 % 16)) (escapeDigit (n / 256 % 16)) (escapeDigit (n / 16 % 16))
      (escapeDigit (n % 16)) = some n := by
  simp only [hex4, hexValue_escapeDigit _ (Nat.mod_lt _ (by decide : 0 < 16))]
  congr 1
  omega

/-- The characters with an escape of their own. -/
theorem scanString_short {c e : Char} (h : shortEscapes.lookup c = some e) (s : List Char) :
    scanString (reverseSolidus :: e :: s) = (scanString s).map (fun p => (c :: p.1, p.2)) := by
  have hmem : (c, e) ∈ shortEscapes := by
    obtain ⟨l₁, l₂, hl, _⟩ := List.lookup_eq_some_iff.1 h
    rw [hl]
    simp
  simp only [shortEscapes, List.mem_cons, Prod.mk.injEq, List.not_mem_nil, or_false] at hmem
  rcases hmem with h | h | h | h | h | h | h <;>
    · obtain ⟨rfl, rfl⟩ := h
      rfl

theorem scanString_plain {c : Char} (hq : c ≠ quote) (hb : c ≠ reverseSolidus) (hc : 32 ≤ c.toNat)
    (s : List Char) : scanString (c :: s) = (scanString s).map (fun p => (c :: p.1, p.2)) := by
  rw [scanString.eq_def]
  simp only [if_neg hq, if_neg hb, if_neg (Nat.not_lt.2 hc)]

/-- An escape of a character of the basic plane. -/
theorem scanString_unicode {n : Nat} (h : n < 0x10000) (hh : isHigh n = false) (hl : isLow n = false)
    (s : List Char) :
    scanString (unicodeEscape n ++ s) =
      (scanString s).map (fun p => (Char.ofNat n :: p.1, p.2)) := by
  simp only [unicodeEscape, List.cons_append, List.nil_append]
  rw [scanString, if_neg (by decide), if_pos rfl]
  simp [hex4_unicodeEscape h, hh, hl]

/-- An escape of any other character: a high surrogate and a low one. -/
theorem scanString_pair {n m : Nat} (hn : isHigh n = true) (hm : isLow m = true) (s : List Char) :
    scanString (unicodeEscape n ++ (unicodeEscape m ++ s)) =
      (scanString s).map (fun p =>
        (Char.ofNat (0x10000 + (n - 0xD800) * 0x400 + (m - 0xDC00)) :: p.1, p.2)) := by
  have hn' : n < 0x10000 := by
    simp only [isHigh, decide_eq_true_eq] at hn
    omega
  have hm' : m < 0x10000 := by
    simp only [isLow, decide_eq_true_eq] at hm
    omega
  simp only [unicodeEscape, List.cons_append, List.nil_append]
  rw [scanString, if_neg (by decide), if_pos rfl]
  simp [hex4_unicodeEscape hn', hn, reverseSolidus, hex4_unicodeEscape hm', hm]

theorem char_not_surrogate (c : Char) : isHigh c.toNat = false ∧ isLow c.toNat = false := by
  have h : c.toNat < 0xD800 ∨ (0xDFFF < c.toNat ∧ c.toNat < 0x110000) := c.valid
  simp only [isHigh, isLow, decide_eq_false_iff_not]
  omega

/-- One character is read back, whatever follows. -/
theorem scanString_escapeChar (ensureAscii : Bool) (c : Char) (s : List Char) :
    scanString (escapeChar ensureAscii c ++ s) = (scanString s).map (fun p => (c :: p.1, p.2)) := by
  unfold escapeChar
  cases hs : shortEscapes.lookup c with
  | some e => exact scanString_short hs s
  | none =>
    simp only
    split
    · rename_i hprint
      have hq : c ≠ quote := by rintro rfl; cases hs
      have hb : c ≠ reverseSolidus := by rintro rfl; cases hs
      exact scanString_plain hq hb hprint.1 s
    · rename_i hescaped
      split
      · rename_i hlt
        rw [scanString_unicode hlt (char_not_surrogate c).1 (char_not_surrogate c).2,
          Char.ofNat_toNat]
      · have hmax : c.toNat < 0x110000 := by
          have h : c.toNat < 0xD800 ∨ (0xDFFF < c.toNat ∧ c.toNat < 0x110000) := c.valid
          omega
        rw [List.append_assoc, scanString_pair]
        · have hc : 0x10000 + (0xD800 + (c.toNat - 0x10000) / 0x400 - 0xD800) * 0x400 +
              (0xDC00 + (c.toNat - 0x10000) % 0x400 - 0xDC00) = c.toNat := by omega
          rw [hc, Char.ofNat_toNat]
        · simp only [isHigh, decide_eq_true_eq]
          omega
        · simp only [isLow, decide_eq_true_eq]
          omega

theorem scanString_escaped (ensureAscii : Bool) (l s : List Char) :
    scanString (l.flatMap (escapeChar ensureAscii) ++ quote :: s) = some (l, s) := by
  induction l with
  | nil => rw [List.flatMap_nil, List.nil_append, scanString.eq_def]; rfl
  | cons c l ih =>
    rw [List.flatMap_cons, List.append_assoc, scanString_escapeChar, ih]
    rfl

/-! ## Numbers -/

/-- The text does not go on like a number. -/
def Stops (s : List Char) : Prop :=
  ∀ c ∈ s.head?, isAsciiDigit c = false ∧ c ≠ '.' ∧ c ≠ 'e' ∧ c ≠ 'E'

theorem digitChar_spec : ∀ d < 10, isAsciiDigit (digitChar d) = true ∧ (digitChar d).toNat - 48 = d := by
  decide

theorem natText_digits (n : Nat) : ∀ c ∈ natText n, isAsciiDigit c = true := by
  intro c hc
  unfold natText at hc
  split at hc
  · rw [List.mem_singleton] at hc
    rw [hc]
    decide
  · rw [List.mem_map] at hc
    obtain ⟨d, hd, rfl⟩ := hc
    rw [List.mem_reverse] at hd
    exact (digitChar_spec d (Nat.digits_lt_base (by decide) hd)).1

theorem digitsValue_natText (n : Nat) : digitsValue (natText n) = n := by
  have hgen : ∀ l : List Nat, (∀ d ∈ l, d < 10) →
      digitsValue (l.reverse.map digitChar) = Nat.ofDigits 10 l := by
    intro l hl
    induction l with
    | nil => rfl
    | cons d l ih =>
      obtain ⟨hd, hl⟩ := List.forall_mem_cons.mp hl
      have hih := ih hl
      simp only [digitsValue] at hih
      simp only [digitsValue, List.reverse_cons, List.map_append, List.foldl_append, hih,
        List.map_cons, List.map_nil, List.foldl_cons, List.foldl_nil, Nat.ofDigits_cons,
        (digitChar_spec d hd).2]
      omega
  unfold natText
  split
  · rename_i h
    rw [h]
    decide
  · rw [hgen _ (fun d hd => Nat.digits_lt_base (by decide) hd), Nat.ofDigits_digits]

theorem natText_ne_zero {n : Nat} (h : n ≠ 0) :
    ∃ c s, natText n = c :: s ∧ c ≠ '0' := by
  unfold natText
  rw [if_neg h]
  have hne : Nat.digits 10 n ≠ [] := Nat.digits_ne_nil_iff_ne_zero.2 h
  have hlast := Nat.getLast_digit_ne_zero 10 h
  have hlt : (Nat.digits 10 n).getLast hne < 10 :=
    Nat.digits_lt_base (by decide) (List.getLast_mem hne)
  refine ⟨digitChar ((Nat.digits 10 n).getLast hne), (Nat.digits 10 n).dropLast.reverse.map digitChar,
    ?_, ?_⟩
  · conv_lhs => rw [← List.dropLast_append_getLast hne]
    rw [List.reverse_append]
    rfl
  · generalize (Nat.digits 10 n).getLast hne = d at hlast hlt
    interval_cases d
    · exact absurd rfl hlast
    all_goals decide

theorem takeWhile_digits {l s : List Char} (hl : ∀ c ∈ l, isAsciiDigit c = true)
    (hs : ∀ c ∈ s.head?, isAsciiDigit c = false) :
    (l ++ s).takeWhile isAsciiDigit = l ∧ (l ++ s).dropWhile isAsciiDigit = s := by
  have hstop : s.takeWhile isAsciiDigit = [] ∧ s.dropWhile isAsciiDigit = s := by
    cases s with
    | nil => exact ⟨rfl, rfl⟩
    | cons c s =>
      have hc := hs c (by simp)
      simp [hc]
  rw [List.takeWhile_append_of_pos hl, List.dropWhile_append_of_pos hl, hstop.1, hstop.2,
    List.append_nil]
  exact ⟨rfl, rfl⟩

theorem scanDigits_natText (n : Nat) {s : List Char} (hs : ∀ c ∈ s.head?, isAsciiDigit c = false) :
    scanDigits (natText n ++ s) = some (natText n, s) := by
  by_cases hn : n = 0
  · subst hn
    rfl
  · obtain ⟨c, l, hcl, hc⟩ := natText_ne_zero hn
    have hall := natText_digits n
    rw [hcl] at hall ⊢
    obtain ⟨hd, hl⟩ := List.forall_mem_cons.mp hall
    obtain ⟨ht, hdr⟩ := takeWhile_digits hl hs
    rw [List.cons_append, scanDigits, if_neg hc, if_pos hd, ht, hdr]

theorem scanFraction_stops {s : List Char} (hs : Stops s) : scanFraction s = ([], s) := by
  unfold scanFraction
  split
  · exact absurd rfl (hs '.' (by simp)).2.1
  · rfl

theorem scanExponent_stops {s : List Char} (hs : Stops s) : scanExponent s = ([], s) := by
  cases s with
  | nil => rfl
  | cons c s =>
    obtain ⟨_, _, he, hE⟩ := hs c (by simp)
    rw [scanExponent, if_neg (by simp [he, hE])]

theorem natText_length {n : Nat} (h : n < 10 ^ intMaxStrDigits) :
    (natText n).length ≤ intMaxStrDigits := by
  unfold natText
  split
  · decide
  · simpa using (Nat.digits_length_le_iff (by decide) n).2 h

theorem numberOf_natText (f : Floats) {m : Int} (hm : m.natAbs < 10 ^ intMaxStrDigits) :
    numberOf f (decide (m < 0)) (natText m.natAbs) [] [] = some (.num m 0) := by
  rw [numberOf, if_pos ⟨rfl, rfl⟩, if_pos (natText_length hm), digitsValue_natText]
  by_cases h : m < 0
  · have hval : - (m.natAbs : Int) = m := by omega
    rw [if_pos (by simpa using h), hval]
  · have hval : (m.natAbs : Int) = m := by omega
    rw [if_neg (by simpa using h), hval]

theorem scanMinus_natText (n : Nat) (s : List Char) :
    scanMinus (natText n ++ s) = (false, natText n ++ s) := by
  unfold scanMinus
  split
  · rename_i t ht
    cases hd : natText n with
    | nil =>
      have h := scanDigits_natText n (s := []) (by simp)
      rw [hd] at h
      cases h
    | cons c l =>
      have hc := natText_digits n c (by simp [hd])
      rw [hd, List.cons_append, List.cons.injEq] at ht
      rw [ht.1] at hc
      cases hc
  · rfl

/-- An integer within the limit of `int` is read back. -/
theorem scanNumber_intText (f : Floats) {m : Int} (hm : m.natAbs < 10 ^ intMaxStrDigits)
    {s : List Char} (hs : Stops s) :
    scanNumber f (intText m ++ s) = some (some (.num m 0, s)) := by
  have hsign : scanMinus (intText m ++ s) = (decide (m < 0), natText m.natAbs ++ s) := by
    unfold intText
    split
    · rename_i h
      simp [scanMinus, h]
    · rename_i h
      simp [scanMinus_natText, h]
  have hnum := numberOf_natText f hm
  have hdigits := scanDigits_natText m.natAbs (fun c hc => (hs c hc).1)
  simp only [scanNumber, hsign, hdigits, scanFraction_stops hs, scanExponent_stops hs, hnum]
  rfl

/-- `(\.[0-9]+)?` -/
def IsFraction (s : List Char) : Prop :=
  s = [] ∨ ∃ ds, ds ≠ [] ∧ (∀ c ∈ ds, isAsciiDigit c = true) ∧ s = '.' :: ds

/-- `(e[-+]?[0-9]+)?` -/
def IsExponent (s : List Char) : Prop :=
  s = [] ∨ ∃ sign ds, (sign = ['-'] ∨ sign = ['+'] ∨ sign = []) ∧ ds ≠ [] ∧
    (∀ c ∈ ds, isAsciiDigit c = true) ∧ s = 'e' :: (sign ++ ds)

/-- A float that is written with a fraction or an exponent, and that `float` reads back. -/
structure Floats.Exact (f : Floats) (m e : Int) : Prop where
  parse : f.parse (f.repr m e) = .num m e
  text : ∃ (negative : Bool) (n : Nat) (fraction exponent : List Char),
    f.repr m e = (if negative then ['-'] else []) ++ (natText n ++ (fraction ++ exponent)) ∧
      IsFraction fraction ∧ IsExponent exponent ∧ (fraction ≠ [] ∨ exponent ≠ [])

theorem scanFraction_fraction {w s : List Char} (hw : IsFraction w)
    (hs : ∀ c ∈ s.head?, isAsciiDigit c = false ∧ c ≠ '.') : scanFraction (w ++ s) = (w, s) := by
  rcases hw with rfl | ⟨ds, hne, hds, rfl⟩
  · rw [List.nil_append]
    unfold scanFraction
    split
    · exact absurd rfl (hs '.' (by simp)).2
    · rfl
  · obtain ⟨ht, hd⟩ := takeWhile_digits hds (fun c hc => (hs c hc).1)
    rw [List.cons_append, scanFraction, ht, hd, if_neg hne]

theorem scanSign_digits {ds : List Char} (hne : ds ≠ []) (hds : ∀ c ∈ ds, isAsciiDigit c = true)
    (s : List Char) : scanSign (ds ++ s) = ([], ds ++ s) := by
  obtain ⟨c, cs, rfl⟩ := List.exists_cons_of_ne_nil hne
  have hc := hds c List.mem_cons_self
  rw [List.cons_append]
  unfold scanSign
  split
  · rename_i heq
    rw [(List.cons.inj heq).1] at hc
    cases hc
  · rename_i heq
    rw [(List.cons.inj heq).1] at hc
    cases hc
  · rfl

theorem scanExponent_exponent {w s : List Char} (hw : IsExponent w) (hs : Stops s) :
    scanExponent (w ++ s) = (w, s) := by
  rcases hw with rfl | ⟨sign, ds, hsign, hne, hds, rfl⟩
  · exact scanExponent_stops hs
  · obtain ⟨ht, hd⟩ := takeWhile_digits hds (fun c hc => (hs c hc).1)
    have hscan : scanSign (sign ++ ds ++ s) = (sign, ds ++ s) := by
      rcases hsign with rfl | rfl | rfl
      · rfl
      · rfl
      · exact scanSign_digits hne hds s
    rw [List.cons_append, scanExponent, if_pos (.inl rfl), hscan]
    simp only [ht, hd, if_neg hne]

/-- Such a float is read back. -/
theorem scanNumber_float {f : Floats} {m e : Int} (h : f.Exact m e) {s : List Char} (hs : Stops s) :
    scanNumber f (f.repr m e ++ s) = some (some (.num m e, s)) := by
  obtain ⟨negative, n, fraction, exponent, hrepr, hfraction, hexponent, hne⟩ := h.text
  have hsign : scanMinus (f.repr m e ++ s) = (negative, natText n ++ (fraction ++ (exponent ++ s))) := by
    rw [hrepr]
    cases negative with
    | true => simp [scanMinus]
    | false => simp [scanMinus_natText]
  have hhead : ∀ c ∈ (exponent ++ s).head?, isAsciiDigit c = false ∧ c ≠ '.' := by
    rcases hexponent with rfl | ⟨sign, ds, -, -, -, rfl⟩
    · exact fun c hc => ⟨(hs c hc).1, (hs c hc).2.1⟩
    · intro c hc
      obtain rfl := Option.some.inj hc
      decide
  have hdigits : scanDigits (natText n ++ (fraction ++ (exponent ++ s))) =
      some (natText n, fraction ++ (exponent ++ s)) := by
    refine scanDigits_natText n ?_
    rcases hfraction with rfl | ⟨ds, -, -, rfl⟩
    · exact fun c hc => (hhead c hc).1
    · intro c hc
      obtain rfl := Option.some.inj hc
      decide
  have hnum : numberOf f negative (natText n) fraction exponent = some (.num m e) := by
    rw [numberOf, if_neg (by rw [not_and_or]; exact hne), ← hrepr, h.parse]
  simp only [scanNumber, hsign, hdigits, scanFraction_fraction hfraction hhead,
    scanExponent_exponent hexponent hs, hnum]
  rfl

/-! ## Values -/

mutual

/-- Floats that are read back, integers within the limit of `int`, no lone surrogates, and no key twice in
an object. -/
def Plain (f : Floats) : Json → Prop
  | .null => True
  | .bool _ => True
  | .num m e => if e = 0 then m.natAbs < 10 ^ intMaxStrDigits else f.Exact m e
  | .str _ => True
  | .lone _ => False
  | .arr items => PlainItems f items
  | .obj entries => (entries.map Prod.fst).Nodup ∧ PlainEntries f entries

def PlainItems (f : Floats) : List Json → Prop
  | [] => True
  | x :: items => Plain f x ∧ PlainItems f items

def PlainEntries (f : Floats) : List (String × Json) → Prop
  | [] => True
  | (_, v) :: entries => Plain f v ∧ PlainEntries f entries

end

theorem plainEntries_iff {f : Floats} {entries : List (String × Json)} :
    PlainEntries f entries ↔ ∀ p ∈ entries, Plain f p.2 := by
  induction entries with
  | nil => simp [PlainEntries]
  | cons p entries ih =>
    obtain ⟨k, v⟩ := p
    simp [PlainEntries, ih]

theorem setItem_new {β : Type} {d : List (String × β)} {k : String} {v : β}
    (h : k ∉ d.map Prod.fst) : setItem d k v = d ++ [(k, v)] := by
  induction d with
  | nil => rfl
  | cons p d ih =>
    obtain ⟨k', v'⟩ := p
    rw [List.map_cons, List.mem_cons, not_or] at h
    rw [setItem, if_neg h.1, ih h.2, List.cons_append]

theorem plainEntries_setItem {f : Floats} {d : Dict} (h : PlainEntries f d) (k : String) {v : Json} (hv : Plain f v) :
    PlainEntries f (setItem d k v) := by
  induction d with
  | nil => exact ⟨hv, trivial⟩
  | cons p d ih =>
    obtain ⟨k', v'⟩ := p
    rw [setItem]
    split
    · exact ⟨hv, h.2⟩
    · exact ⟨h.1, ih h.2⟩

theorem map_fst_setItem {β : Type} (d : List (String × β)) (k : String) (v : β) :
    (setItem d k v).map Prod.fst = if k ∈ d.map Prod.fst then d.map Prod.fst
      else d.map Prod.fst ++ [k] := by
  induction d with
  | nil => rfl
  | cons p d ih =>
    obtain ⟨k', v'⟩ := p
    by_cases hk : k = k'
    · simp [setItem, hk]
    · have hiff : k ∈ ((k', v') :: d).map Prod.fst ↔ k ∈ d.map Prod.fst := by simp [hk]
      rw [setItem, if_neg hk, List.map_cons, ih, if_congr hiff rfl rfl]
      split <;> simp

theorem keys_setItem_nodup {β : Type} {d : List (String × β)} (h : (d.map Prod.fst).Nodup)
    (k : String) (v : β) : ((setItem d k v).map Prod.fst).Nodup := by
  rw [map_fst_setItem]
  split
  · exact h
  · rename_i hk
    exact List.nodup_append'.2 ⟨h, List.nodup_singleton k, by simpa using hk⟩

theorem lookup_eq_some_iff_mem {β : Type} {d : List (String × β)} (h : (d.map Prod.fst).Nodup)
    {k : String} {v : β} : d.lookup k = some v ↔ (k, v) ∈ d := by
  induction d with
  | nil => simp
  | cons p d ih =>
    obtain ⟨k', v'⟩ := p
    rw [List.map_cons, List.nodup_cons] at h
    rw [List.lookup_cons]
    by_cases hk : k = k'
    · subst hk
      have hnot : (k, v) ∉ d := fun hm => h.1 (List.mem_map.2 ⟨_, hm, rfl⟩)
      simp [hnot, eq_comm]
    · have hb : (k == k') = false := by simpa using hk
      simp [hb, ih h.2, hk]

/-- Pairs with distinct keys are a dict as they are. -/
theorem dictOf_nodup {pairs : List (String × Json)} (h : (pairs.map Prod.fst).Nodup) :
    dictOf pairs = pairs := by
  have hgen : ∀ d : Dict, ((d ++ pairs).map Prod.fst).Nodup →
      pairs.foldl (fun d p => setItem d p.1 p.2) d = d ++ pairs := by
    clear h
    induction pairs with
    | nil => intro d _; simp
    | cons p pairs ih =>
      intro d hd
      have hnew : p.1 ∉ d.map Prod.fst := by
        rw [List.map_append, List.map_cons] at hd
        intro hm
        exact (List.nodup_append'.1 hd).2.2 hm List.mem_cons_self
      rw [List.foldl_cons, setItem_new hnew, ih _ (by simpa using hd)]
      simp
  exact hgen [] h

theorem skipSpace_cons {c : Char} (h : isJsonSpace c = false) (s : List Char) :
    skipSpace (c :: s) = c :: s := by
  simp [skipSpace, h]

theorem skipSpace_gap (o : Format) (s : List Char) : skipSpace (o.gap ++ s) = skipSpace s := by
  unfold Format.gap
  split <;> rfl

theorem scanString_dumpString (o : Format) (k : String) (s : List Char) :
    ∃ t, dumpString o k ++ s = quote :: t ∧ scanString t = some (k.toList, s) := by
  refine ⟨k.toList.flatMap (escapeChar o.ensureAscii) ++ (quote :: s), by simp [dumpString], ?_⟩
  exact scanString_escaped o.ensureAscii k.toList s

/-- The character a value can begin with: no space, no closing bracket, no byte order mark. -/
def Begins (c : Char) : Prop := isJsonSpace c = false ∧ c ≠ ']' ∧ c ≠ Char.ofNat 0xFEFF

instance Begins.decidable (c : Char) : Decidable (Begins c) := inferInstanceAs (Decidable (_ ∧ _))

theorem natText_head (n : Nat) : ∃ c t, natText n = c :: t ∧ Begins c ∧
    c ≠ quote ∧ c ≠ Char.ofNat 0x7b ∧ c ≠ '[' := by
  have hdigit : ∀ c, isAsciiDigit c = true →
      Begins c ∧ c ≠ quote ∧ c ≠ Char.ofNat 0x7b ∧ c ≠ '[' := by
    intro c hc
    refine ⟨⟨?_, ?_, ?_⟩, ?_, ?_, ?_⟩
    · simp only [isJsonSpace, decide_eq_false_iff_not]
      rintro (rfl | rfl | rfl | rfl) <;> cases hc
    all_goals
      rintro rfl
      cases hc
  cases hd : natText n with
  | nil =>
    have h := scanDigits_natText n (s := []) (by simp)
    rw [hd] at h
    cases h
  | cons c l => exact ⟨c, l, rfl, hdigit c (natText_digits n c (by simp [hd]))⟩

/-- The start of a number that is plain. -/
theorem number_head {f : Floats} {m e : Int} (o : Format) (h : Plain f (.num m e)) :
    ∃ c t, dumpValue f o (.num m e) = c :: t ∧ Begins c ∧ c ≠ quote ∧ c ≠ Char.ofNat 0x7b ∧ c ≠ '[' := by
  have hsigned : ∀ (negative : Bool) (n : Nat) (s : List Char),
      ∃ c t, (if negative then ['-'] else []) ++ (natText n ++ s) = c :: t ∧ Begins c ∧
        c ≠ quote ∧ c ≠ Char.ofNat 0x7b ∧ c ≠ '[' := by
    intro negative n s
    cases negative with
    | true => exact ⟨'-', _, rfl, by decide⟩
    | false =>
      obtain ⟨c, t, hct, hc⟩ := natText_head n
      exact ⟨c, t ++ s, by rw [hct]; rfl, hc⟩
  rw [Plain] at h
  rw [dumpValue]
  split at h
  · rename_i he
    have hint : intText m = (if decide (m < 0) = true then ['-'] else []) ++ (natText m.natAbs ++ []) := by
      rw [intText]
      split
      · rename_i hm
        simp [hm]
      · rename_i hm
        simp [hm]
    rw [if_pos he, hint]
    exact hsigned _ _ _
  · rename_i he
    obtain ⟨negative, n, fraction, exponent, hrepr, -⟩ := h.text
    rw [if_neg he, hrepr]
    exact hsigned _ _ _

theorem dumpValue_head (f : Floats) (o : Format) {j : Json} (h : Plain f j) :
    ∃ c t, dumpValue f o j = c :: t ∧ Begins c := by
  cases j with
  | null => exact ⟨_, _, rfl, by decide⟩
  | bool b => cases b <;> exact ⟨_, _, rfl, by decide⟩
  | num m e =>
    obtain ⟨c, t, hct, hbegins, _⟩ := number_head o h
    exact ⟨c, t, hct, hbegins⟩
  | str s => exact ⟨_, _, rfl, by decide⟩
  | lone t => exact h.elim
  | arr items => cases items <;> exact ⟨_, _, rfl, by decide⟩
  | obj entries =>
    cases entries with
    | nil => exact ⟨_, _, rfl, by decide⟩
    | cons p entries => exact ⟨_, _, rfl, by decide⟩

theorem skipSpace_dumpValue (f : Floats) (o : Format) {j : Json} (h : Plain f j) (s : List Char) :
    skipSpace (dumpValue f o j ++ s) = dumpValue f o j ++ s := by
  obtain ⟨c, t, hct, hbegins⟩ := dumpValue_head f o h
  rw [hct, List.cons_append, skipSpace_cons hbegins.1]

theorem dumpValue_length (f : Floats) (o : Format) {j : Json} (h : Plain f j) :
    0 < (dumpValue f o j).length := by
  obtain ⟨c, t, hct, _⟩ := dumpValue_head f o h
  rw [hct]
  exact Nat.succ_pos _

/-- `scan_once` reads the value back off the front of a text. -/
def Reads (f : Floats) (o : Format) (j : Json) : Prop :=
  ∀ n s, 2 * (dumpValue f o j).length ≤ n → Stops s →
    scanValue f n (dumpValue f o j ++ s) = some (j, s)

/-- A value whose text is read in one call. -/
theorem reads_of_succ {f : Floats} {o : Format} {j : Json} (hp : Plain f j)
    (h : ∀ n s, scanValue f (n + 1) (dumpValue f o j ++ s) = some (j, s)) : Reads f o j := by
  intro n s hn _
  have hlen := dumpValue_length f o hp
  cases n with
  | zero => omega
  | succ n => exact h n s

theorem stops_of_head {c : Char} {s : List Char}
    (h : isAsciiDigit c = false ∧ c ≠ '.' ∧ c ≠ 'e' ∧ c ≠ 'E') : Stops (c :: s) := by
  intro d hd
  cases Option.some.inj hd
  exact h

theorem reads_num {f : Floats} (o : Format) {m e : Int} (h : Plain f (.num m e)) : Reads f o (.num m e) := by
  intro n s hn hs
  obtain ⟨c, t, hct, _, hq, hb, ha⟩ := number_head o h
  have hnum : scanNumber f (dumpValue f o (.num m e) ++ s) = some (some (.num m e, s)) := by
    rw [Plain] at h
    rw [dumpValue]
    split at h
    · rename_i he
      subst he
      rw [if_pos rfl]
      exact scanNumber_intText f h hs
    · rename_i he
      rw [if_neg he]
      exact scanNumber_float h hs
  rw [hct] at hn hnum ⊢
  rw [List.cons_append] at hnum ⊢
  cases n with
  | zero =>
    rw [List.length_cons] at hn
    omega
  | succ n => rw [scanValue, if_neg hq, if_neg hb, if_neg ha, hnum]

theorem reads_str (f : Floats) (o : Format) (k : String) : Reads f o (.str k) := by
  intro n s hn hs
  obtain ⟨t, ht, hscan⟩ := scanString_dumpString o k s
  have hval : dumpValue f o (.str k) = dumpString o k := rfl
  rw [hval] at hn ⊢
  cases n with
  | zero =>
    simp only [dumpString, List.length_cons] at hn
    omega
  | succ n =>
    rw [ht, scanValue, if_pos rfl, hscan]
    simp [String.ofList_toList]

/-- One item and then the further ones. -/
theorem scanItems_step {f : Floats} {o : Format} {x : Json} {n : Nat} {acc : List Json} {s : List Char}
    (hx : Reads f o x) (hn : 2 * (dumpValue f o x).length ≤ n) {c : Char} (hc : c = ']' ∨ c = ',') :
    scanItems f (n + 1) (dumpValue f o x ++ c :: s) acc =
      if c = ']' then some (.arr (acc ++ [x]), s)
      else scanItems f n (skipSpace s) (acc ++ [x]) := by
  have hread := hx n (c :: s) hn (stops_of_head (by rcases hc with rfl | rfl <;> decide))
  rw [scanItems, hread]
  rcases hc with rfl | rfl <;> rfl

/-- One entry and then the further ones. -/
theorem scanEntries_step {f : Floats} {o : Format} {k : String} {v : Json} {n : Nat}
    {acc : List (String × Json)} {s : List Char} (hp : Plain f v) (hv : Reads f o v)
    (hn : 2 * (dumpValue f o v).length ≤ n) {c : Char} (hc : c = Char.ofNat 0x7d ∨ c = ',') :
    scanEntries f (n + 1) (dumpString o k ++ (':' :: (o.gap ++ (dumpValue f o v ++ c :: s)))) acc =
      if c = Char.ofNat 0x7d then some (.obj (dictOf (acc ++ [(k, v)])), s)
      else scanEntries f n (skipSpace s) (acc ++ [(k, v)]) := by
  obtain ⟨t, ht, hscan⟩ := scanString_dumpString o k (':' :: (o.gap ++ (dumpValue f o v ++ c :: s)))
  have hread := hv n (c :: s) hn (stops_of_head (by rcases hc with rfl | rfl <;> decide))
  have hspace : skipSpace (o.gap ++ (dumpValue f o v ++ c :: s)) = dumpValue f o v ++ c :: s := by
    rw [skipSpace_gap, skipSpace_dumpValue f o hp]
  rw [ht, scanEntries, if_pos rfl, hscan]
  have hcolon : skipSpace (':' :: (o.gap ++ (dumpValue f o v ++ c :: s))) =
      ':' :: (o.gap ++ (dumpValue f o v ++ c :: s)) := rfl
  simp only [hcolon, hspace, hread, String.ofList_toList]
  rcases hc with rfl | rfl <;> rfl

mutual

theorem reads_value (f : Floats) (o : Format) : ∀ j : Json, Plain f j → Reads f o j
  | .null, _ => reads_of_succ trivial (fun _ _ => rfl)
  | .bool true, _ => reads_of_succ trivial (fun _ _ => rfl)
  | .bool false, _ => reads_of_succ trivial (fun _ _ => rfl)
  | .num _ _, h => reads_num o h
  | .str k, _ => reads_str f o k
  | .arr [], h => reads_of_succ h (fun _ _ => rfl)
  | .arr (x :: items), h => by
    obtain ⟨hx, hitems⟩ := h
    intro n s hn _
    simp only [dumpValue, List.length_cons, List.length_append] at hn
    cases n with
    | zero => omega
    | succ n =>
      have hrest := reads_items f o items hitems x hx (reads_value f o x hx) n s [] (by omega)
      obtain ⟨c, t, hct, hbegins⟩ := dumpValue_head f o hx
      have hskip := skipSpace_dumpValue f o hx (dumpItems f o items ++ s)
      simp only [dumpValue, List.cons_append, List.append_assoc]
      rw [scanValue, if_neg (by decide), if_neg (by decide), if_pos rfl, hskip]
      split
      · rename_i heq
        rw [hct, List.cons_append, List.cons.injEq] at heq
        exact absurd heq.1 hbegins.2.1
      · exact hrest
  | .obj [], h => reads_of_succ h (fun _ _ => rfl)
  | .obj ((k, v) :: entries), h => by
    obtain ⟨hnd, hv, hentries⟩ := h
    intro n s hn _
    simp only [dumpValue, List.length_cons, List.length_append] at hn
    cases n with
    | zero => omega
    | succ n =>
      have hrest := reads_entries f o entries hentries k v hv (reads_value f o v hv) n s []
        (by omega) (by simpa using hnd)
      have hkey : ∀ t, dumpString o k ++ t =
          quote :: (k.toList.flatMap (escapeChar o.ensureAscii) ++ [quote] ++ t) := by
        intro t
        simp [dumpString]
      have hskip : ∀ t, skipSpace (dumpString o k ++ t) = dumpString o k ++ t := by
        intro t
        rw [hkey, skipSpace_cons (by decide)]
      simp only [dumpValue, List.cons_append, List.append_assoc]
      rw [scanValue, if_neg (by decide), if_pos rfl, hskip]
      split
      · rename_i heq
        rw [hkey] at heq
        exact absurd (List.cons.inj heq).1 (by decide)
      · exact hrest

theorem reads_items (f : Floats) (o : Format) : ∀ items : List Json, PlainItems f items → ∀ x, Plain f x →
    Reads f o x → ∀ n s acc, 2 * ((dumpValue f o x).length + (dumpItems f o items).length) ≤ n →
      scanItems f n (dumpValue f o x ++ (dumpItems f o items ++ s)) acc =
        some (.arr (acc ++ x :: items), s)
  | [], _ => by
    intro x hp hx n s acc hn
    have hlen : (dumpItems f o []).length = 1 := rfl
    cases n with
    | zero => omega
    | succ n => exact scanItems_step hx (by omega) (.inl rfl)
  | y :: items, h => by
    obtain ⟨hy, hitems⟩ := h
    intro x hp hx n s acc hn
    have hlen : (dumpItems f o (y :: items)).length =
        1 + (o.gap.length + ((dumpValue f o y).length + (dumpItems f o items).length)) := by
      simp only [dumpItems, List.length_cons, List.length_append]
      omega
    cases n with
    | zero => omega
    | succ n =>
      have hrest := reads_items f o items hitems y hy (reads_value f o y hy) n s (acc ++ [x]) (by omega)
      have hstep := @scanItems_step f o x n acc
        (o.gap ++ (dumpValue f o y ++ (dumpItems f o items ++ s))) hx (by omega) ',' (.inr rfl)
      have hspace : skipSpace (o.gap ++ (dumpValue f o y ++ (dumpItems f o items ++ s))) =
          dumpValue f o y ++ (dumpItems f o items ++ s) := by
        rw [skipSpace_gap, skipSpace_dumpValue f o hy]
      rw [if_neg (by decide), hspace, hrest] at hstep
      simpa [dumpItems] using hstep

theorem reads_entries (f : Floats) (o : Format) : ∀ entries : List (String × Json),
    PlainEntries f entries →
    ∀ k v, Plain f v → Reads f o v → ∀ n s acc,
      2 * ((dumpString o k).length + (1 + (o.gap.length + ((dumpValue f o v).length +
        (dumpEntries f o entries).length)))) ≤ n →
      ((acc ++ (k, v) :: entries).map Prod.fst).Nodup →
      scanEntries f n
        (dumpString o k ++
          (':' :: (o.gap ++ (dumpValue f o v ++ (dumpEntries f o entries ++ s))))) acc =
        some (.obj (acc ++ (k, v) :: entries), s)
  | [], _ => by
    intro k v hp hv n s acc hn hnd
    have hlen : (dumpEntries f o []).length = 1 := rfl
    cases n with
    | zero => omega
    | succ n =>
      have hstep := @scanEntries_step f o k v n acc s hp hv (by omega) _ (.inl rfl)
      rw [if_pos rfl, dictOf_nodup hnd] at hstep
      exact hstep
  | (l, w) :: entries, h => by
    obtain ⟨hw, hentries⟩ := h
    intro k v hp hv n s acc hn hnd
    have hlen : (dumpEntries f o ((l, w) :: entries)).length =
        1 + (o.gap.length + ((dumpString o l).length + (1 + (o.gap.length +
          ((dumpValue f o w).length + (dumpEntries f o entries).length))))) := by
      simp only [dumpEntries, List.length_cons, List.length_append]
      omega
    cases n with
    | zero => omega
    | succ n =>
      have hrest := reads_entries f o entries hentries l w hw (reads_value f o w hw) n s
        (acc ++ [(k, v)]) (by omega) (by simpa using hnd)
      have hstep := @scanEntries_step f o k v n acc
        (o.gap ++ (dumpString o l ++
          (':' :: (o.gap ++ (dumpValue f o w ++ (dumpEntries f o entries ++ s))))))
        hp hv (by omega) ',' (.inr rfl)
      have hspace : ∀ t, skipSpace (o.gap ++ (dumpString o l ++ t)) = dumpString o l ++ t := by
        intro t
        rw [skipSpace_gap]
        have hkey : dumpString o l ++ t =
            quote :: (l.toList.flatMap (escapeChar o.ensureAscii) ++ [quote] ++ t) := by
          simp [dumpString]
        rw [hkey]
        rfl
      rw [if_neg (by decide), hspace, hrest] at hstep
      simpa [dumpEntries] using hstep

end

/-- `json.loads(json.dumps(value)) == value` in every format, for plain values. -/
theorem loads_dumpsAs (f : Floats) (o : Format) {j : Json} (h : Plain f j) :
    loads f (dumpsAs f o j) = some j := by
  have hread := reads_value f o j h (scanFuel (dumpValue f o j)) []
    (by simp only [scanFuel]; omega) (by simp [Stops])
  have hskip := skipSpace_dumpValue f o h []
  rw [List.append_nil] at hread hskip
  obtain ⟨c, t, hct, hbegins⟩ := dumpValue_head f o h
  have hbom : (dumpValue f o j).head? ≠ some (Char.ofNat 0xFEFF) := by
    rw [hct]
    exact fun he => hbegins.2.2 (Option.some.inj he)
  have hend : skipSpace [] = [] := rfl
  simp only [loads, dumpsAs, String.toList_ofList, if_neg hbom, hskip, hread, hend, if_pos]

theorem loads_dumps (f : Floats) {j : Json} (h : Plain f j) : loads f (dumps f j) = some j :=
  loads_dumpsAs f {} h

theorem dumps_injective (f : Floats) {a b : Json} (ha : Plain f a) (hb : Plain f b)
    (h : dumps f a = dumps f b) : a = b := by
  have := loads_dumps f ha
  rw [h, loads_dumps f hb] at this
  exact (Option.some.inj this).symm

/-! ## Sorted keys -/

theorem sortEntries_perm {β : Type} (d : List (String × β)) : (sortEntries d).Perm d :=
  List.mergeSort_perm d _

/-- Sorting forgets the order in which distinct keys were inserted. -/
theorem sortEntries_congr {β : Type} {a b : List (String × β)} (ha : (a.map Prod.fst).Nodup)
    (h : a.Perm b) : sortEntries a = sortEntries b := by
  have htrans : ∀ x y z : String × β, decide (x.1 ≤ y.1) = true → decide (y.1 ≤ z.1) = true →
      decide (x.1 ≤ z.1) = true := by
    intro x y z hxy hyz
    simp only [decide_eq_true_eq] at hxy hyz ⊢
    exact String.le_trans hxy hyz
  have htotal : ∀ x y : String × β, (decide (x.1 ≤ y.1) || decide (y.1 ≤ x.1)) = true := by
    intro x y
    simpa using String.le_total x.1 y.1
  refine List.Perm.eq_of_pairwise ?_ (List.pairwise_mergeSort htrans htotal a)
    (List.pairwise_mergeSort htrans htotal b)
    ((sortEntries_perm a).trans (h.trans (sortEntries_perm b).symm))
  intro x y hx hy hxy hyx
  simp only [decide_eq_true_eq] at hxy hyx
  have hkey : x.1 = y.1 := String.le_antisymm hxy hyx
  have hxa : x ∈ a := (sortEntries_perm a).mem_iff.1 hx
  have hya : y ∈ a := h.mem_iff.2 ((sortEntries_perm b).mem_iff.1 hy)
  exact List.inj_on_of_nodup_map ha hxa hya hkey

/-- Two dicts of texts whose sorted forms have one text have the same entries. -/
theorem sortEntries_unique (f : Floats) {a b : List (String × String)}
    (ha : (a.map Prod.fst).Nodup) (hb : (b.map Prod.fst).Nodup)
    (h : dumps f (.obj ((sortEntries a).map (fun p => (p.1, .str p.2)))) =
      dumps f (.obj ((sortEntries b).map (fun p => (p.1, .str p.2))))) : a.Perm b := by
  have hplain : ∀ d : List (String × String), (d.map Prod.fst).Nodup →
      Plain f (.obj ((sortEntries d).map (fun p => (p.1, .str p.2)))) := by
    intro d hd
    refine ⟨?_, plainEntries_iff.2 ?_⟩
    · rw [List.map_map]
      exact ((sortEntries_perm d).map Prod.fst).nodup_iff.2 hd
    · intro p hp
      obtain ⟨q, _, rfl⟩ := List.mem_map.1 hp
      exact trivial
  have hsame := Json.obj.inj (dumps_injective f (hplain a ha) (hplain b hb) h)
  have hsort : sortEntries a = sortEntries b := by
    refine List.map_injective_iff.2 ?_ hsame
    intro p q hpq
    simp only [Prod.mk.injEq, Json.str.injEq] at hpq
    exact Prod.ext hpq.1 hpq.2
  exact (sortEntries_perm a).symm.trans (hsort ▸ sortEntries_perm b)

end Python
end TrShared
