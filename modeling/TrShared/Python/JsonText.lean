import Mathlib.Data.Nat.Digits.Defs
import Mathlib.Data.List.TakeWhile
import TrShared.Python.Json

/-!
# TrShared.Python.JsonText

`json.dumps`, with the separators and the escapes it has by default or without spaces and with all
characters as they are, and `json.loads` of a text. A text is the list of its characters while it is
being scanned.

What a float looks like, and which float a text denotes, is a parameter (`Floats`). Left out are how
deep values may be nested, and texts with lone surrogates: their escapes are written, and not read.
-/

namespace TrShared
namespace Python

/-- `float.__repr__`, and `float` of a text with a fraction or an exponent or of a name of no number. -/
structure Floats where
  repr : Int → Int → List Char
  parse : List Char → Json

/-- For values that hold no float. -/
def noFloats : Floats := ⟨fun _ _ => [], fun _ => .null⟩

def quote : Char := '"'

def reverseSolidus : Char := '\\'

/-! ## `json.dumps` -/

/-- `separators=(",", ":")` or the default ones, and `ensure_ascii`. -/
structure Format where
  compact : Bool := false
  ensureAscii : Bool := true

/-- What follows a comma or a colon. -/
def Format.gap (o : Format) : List Char := if o.compact then [] else [' ']

def escapeDigit (d : Nat) : Char := if d < 10 then Char.ofNat (48 + d) else Char.ofNat (87 + d)

/-- `"\\u{0:04x}".format(n)`. -/
def unicodeEscape (n : Nat) : List Char :=
  [reverseSolidus, 'u', escapeDigit (n / 4096 % 16), escapeDigit (n / 256 % 16), escapeDigit (n / 16 % 16),
    escapeDigit (n % 16)]

/-- `ESCAPE_DCT`. -/
def shortEscapes : List (Char × Char) :=
  [(reverseSolidus, reverseSolidus), (quote, quote), (Char.ofNat 8, 'b'), (Char.ofNat 12, 'f'),
    (Char.ofNat 10, 'n'), (Char.ofNat 13, 'r'), (Char.ofNat 9, 't')]

/-- One character as `encode_basestring_ascii` writes it, or `encode_basestring`. -/
def escapeChar (ensureAscii : Bool) (c : Char) : List Char :=
  match shortEscapes.lookup c with
  | some e => [reverseSolidus, e]
  | none =>
    if 32 ≤ c.toNat ∧ (c.toNat ≤ 126 ∨ ensureAscii = false) then [c]
    else if c.toNat < 0x10000 then unicodeEscape c.toNat
    else
      unicodeEscape (0xD800 + (c.toNat - 0x10000) / 0x400) ++
        unicodeEscape (0xDC00 + (c.toNat - 0x10000) % 0x400)

/-- The same for the code points of a text with lone surrogates. Without `ensure_ascii` such a text has
no encoding, and nothing is sent. -/
def escapePoint (ensureAscii : Bool) (p : CodePoint) : List Char :=
  if isSurrogate p then unicodeEscape p.val else escapeChar ensureAscii (Char.ofNat p.val)

def dumpString (o : Format) (s : String) : List Char :=
  quote :: (s.toList.flatMap (escapeChar o.ensureAscii) ++ [quote])

def digitChar (d : Nat) : Char := Char.ofNat (48 + d)

/-- `str` of a natural number. -/
def natText (n : Nat) : List Char :=
  if n = 0 then [digitChar 0] else (Nat.digits 10 n).reverse.map digitChar

/-- `int.__repr__`. -/
def intText (m : Int) : List Char := if m < 0 then '-' :: natText m.natAbs else natText m.natAbs

mutual

def dumpValue (f : Floats) (o : Format) : Json → List Char
  | .null => "null".toList
  | .bool true => "true".toList
  | .bool false => "false".toList
  | .num m e => if e = 0 then intText m else f.repr m e
  | .str s => dumpString o s
  | .lone t => quote :: (t.points.flatMap (escapePoint o.ensureAscii) ++ [quote])
  | .arr [] => "[]".toList
  | .arr (x :: items) => '[' :: (dumpValue f o x ++ dumpItems f o items)
  | .obj [] => "\x7b\x7d".toList
  | .obj ((k, v) :: entries) =>
    Char.ofNat 0x7b :: (dumpString o k ++
      (':' :: (o.gap ++ (dumpValue f o v ++ dumpEntries f o entries))))

/-- The further items of an array, and its end. -/
def dumpItems (f : Floats) (o : Format) : List Json → List Char
  | [] => "]".toList
  | x :: items => ',' :: (o.gap ++ (dumpValue f o x ++ dumpItems f o items))

/-- The further entries of an object, and its end. -/
def dumpEntries (f : Floats) (o : Format) : List (String × Json) → List Char
  | [] => "\x7d".toList
  | (k, v) :: entries =>
    ',' :: (o.gap ++ (dumpString o k ++
      (':' :: (o.gap ++ (dumpValue f o v ++ dumpEntries f o entries)))))

end

/-- `json.dumps` in a format. -/
def dumpsAs (f : Floats) (o : Format) (j : Json) : String := String.ofList (dumpValue f o j)

/-- `json.dumps(value)`. -/
def dumps (f : Floats) (j : Json) : String := dumpsAs f {} j

/-- The entries as `sort_keys` orders them: by their keys, code point by code point. -/
def sortEntries {β : Type} (d : List (String × β)) : List (String × β) :=
  d.mergeSort (fun a b => decide (a.1 ≤ b.1))

/-! ## `json.loads` -/

/-- `WHITESPACE`. -/
def isJsonSpace (c : Char) : Bool := c = ' ' ∨ c = '\t' ∨ c = '\n' ∨ c = '\r'

def skipSpace (s : List Char) : List Char := s.dropWhile isJsonSpace

def hexValue (c : Char) : Option Nat :=
  if 48 ≤ c.toNat ∧ c.toNat ≤ 57 then some (c.toNat - 48)
  else if 97 ≤ c.toNat ∧ c.toNat ≤ 102 then some (c.toNat - 87)
  else if 65 ≤ c.toNat ∧ c.toNat ≤ 70 then some (c.toNat - 55)
  else none

/-- `_decode_uXXXX`. -/
def hex4 (a b c d : Char) : Option Nat :=
  match hexValue a, hexValue b, hexValue c, hexValue d with
  | some a, some b, some c, some d => some (4096 * a + 256 * b + 16 * c + d)
  | _, _, _, _ => none

/-- `BACKSLASH`. -/
def unescapes : List (Char × Char) :=
  [(quote, quote), (reverseSolidus, reverseSolidus), ('/', '/'), ('b', Char.ofNat 8),
    ('f', Char.ofNat 12), ('n', Char.ofNat 10), ('r', Char.ofNat 13), ('t', Char.ofNat 9)]

def isHigh (n : Nat) : Bool := decide (0xD800 ≤ n ∧ n ≤ 0xDBFF)

def isLow (n : Nat) : Bool := decide (0xDC00 ≤ n ∧ n ≤ 0xDFFF)

/-- `scanstring`, after the opening quote. -/
def scanString : List Char → Option (List Char × List Char)
  | [] => none
  | c :: s =>
    if c = quote then some ([], s)
    else if c = reverseSolidus then
      match s with
      | [] => none
      | 'u' :: x1 :: x2 :: x3 :: x4 :: s =>
        match hex4 x1 x2 x3 x4 with
        | none => none
        | some n =>
          if isHigh n then
            match s with
            | '\\' :: 'u' :: y1 :: y2 :: y3 :: y4 :: s =>
              match hex4 y1 y2 y3 y4 with
              | none => none
              | some m =>
                if isLow m then
                  (scanString s).map (fun p =>
                    (Char.ofNat (0x10000 + (n - 0xD800) * 0x400 + (m - 0xDC00)) :: p.1, p.2))
                else none
            | _ => none
          else if isLow n then none
          else (scanString s).map (fun p => (Char.ofNat n :: p.1, p.2))
      | e :: s =>
        match unescapes.lookup e with
        | some d => (scanString s).map (fun p => (d :: p.1, p.2))
        | none => none
    else if c.toNat < 32 then none
    else (scanString s).map (fun p => (c :: p.1, p.2))

def isAsciiDigit (c : Char) : Bool := decide (48 ≤ c.toNat ∧ c.toNat ≤ 57)

def digitsValue (s : List Char) : Nat := s.foldl (fun n c => 10 * n + (c.toNat - 48)) 0

/-- `sys.get_int_max_str_digits()`. -/
def intMaxStrDigits : Nat := 4300

/-- `(\.[0-9]+)?`. -/
def scanFraction : List Char → List Char × List Char
  | '.' :: s => if s.takeWhile isAsciiDigit = [] then ([], '.' :: s)
      else ('.' :: s.takeWhile isAsciiDigit, s.dropWhile isAsciiDigit)
  | s => ([], s)

/-- `[-+]?` -/
def scanSign : List Char → List Char × List Char
  | '-' :: s => (['-'], s)
  | '+' :: s => (['+'], s)
  | s => ([], s)

/-- `([eE][-+]?[0-9]+)?`. -/
def scanExponent : List Char → List Char × List Char
  | [] => ([], [])
  | c :: s =>
    if c = 'e' ∨ c = 'E' then
      let (sign, t) := scanSign s
      if t.takeWhile isAsciiDigit = [] then ([], c :: s)
      else (c :: (sign ++ t.takeWhile isAsciiDigit), t.dropWhile isAsciiDigit)
    else ([], c :: s)

/-- `(0|[1-9][0-9]*)`. -/
def scanDigits : List Char → Option (List Char × List Char)
  | [] => none
  | c :: s =>
    if c = '0' then some ([c], s)
    else if isAsciiDigit c then some (c :: s.takeWhile isAsciiDigit, s.dropWhile isAsciiDigit)
    else none

/-- `int` or `float` of a matched number. -/
def numberOf (f : Floats) (negative : Bool) (digits fraction exponent : List Char) : Option Json :=
  if fraction = [] ∧ exponent = [] then
    if digits.length ≤ intMaxStrDigits then
      some (.num (if negative then - (digitsValue digits : Int) else digitsValue digits) 0)
    else none
  else
    some (f.parse ((if negative then ['-'] else []) ++ (digits ++ (fraction ++ exponent))))

/-- `-?`, and whether it is there. -/
def scanMinus : List Char → Bool × List Char
  | '-' :: s => (true, s)
  | s => (false, s)

/-- `NUMBER_RE`: `none` when it does not match, and `some none` when the digits are too many. -/
def scanNumber (f : Floats) (s : List Char) : Option (Option (Json × List Char)) :=
  let (negative, t) := scanMinus s
  match scanDigits t with
  | none => none
  | some (digits, t) =>
    let (fraction, t) := scanFraction t
    let (exponent, t) := scanExponent t
    some ((numberOf f negative digits fraction exponent).map (fun j => (j, t)))

/-- The names `scan_once` knows, and their values. -/
def names (f : Floats) : List (List Char × Json) :=
  [("null".toList, .null), ("true".toList, .bool true), ("false".toList, .bool false)] ++
    ["NaN", "Infinity", "-Infinity"].map (fun s => (s.toList, f.parse s.toList))

def scanName (f : Floats) (s : List Char) : Option (Json × List Char) :=
  ((names f).find? (fun p => p.1.isPrefixOf s)).map (fun p => (p.2, s.drop p.1.length))

/-- `dict(pairs)`. -/
def dictOf (pairs : List (String × Json)) : Dict :=
  pairs.foldl (fun d p => setItem d p.1 p.2) []

mutual

/-- `scan_once`. -/
def scanValue (f : Floats) : Nat → List Char → Option (Json × List Char)
  | 0, _ => none
  | _ + 1, [] => none
  | n + 1, c :: s =>
    if c = quote then (scanString s).map (fun p => (.str (String.ofList p.1), p.2))
    else if c = Char.ofNat 0x7b then
      match skipSpace s with
      | '}' :: s => some (.obj [], s)
      | s => scanEntries f n s []
    else if c = '[' then
      match skipSpace s with
      | ']' :: s => some (.arr [], s)
      | s => scanItems f n s []
    else
      match scanNumber f (c :: s) with
      | some r => r
      | none => scanName f (c :: s)

/-- `JSONArray`, from an item on. -/
def scanItems (f : Floats) : Nat → List Char → List Json → Option (Json × List Char)
  | 0, _, _ => none
  | n + 1, s, items =>
    match scanValue f n s with
    | none => none
    | some (x, s) =>
      match skipSpace s with
      | ']' :: s => some (.arr (items ++ [x]), s)
      | ',' :: s => scanItems f n (skipSpace s) (items ++ [x])
      | _ => none

/-- `JSONObject`, from a key on. -/
def scanEntries (f : Floats) : Nat → List Char → List (String × Json) → Option (Json × List Char)
  | 0, _, _ => none
  | _ + 1, [], _ => none
  | n + 1, c :: s, pairs =>
    if c = quote then
      match scanString s with
      | none => none
      | some (k, s) =>
        match skipSpace s with
        | ':' :: s =>
          match scanValue f n (skipSpace s) with
          | none => none
          | some (v, s) =>
            match skipSpace s with
            | '}' :: s => some (.obj (dictOf (pairs ++ [(String.ofList k, v)])), s)
            | ',' :: s => scanEntries f n (skipSpace s) (pairs ++ [(String.ofList k, v)])
            | _ => none
        | _ => none
    else none

end

/-- Enough for every call: a value or an item is one call for each of its characters at most. -/
def scanFuel (s : List Char) : Nat := 2 * s.length + 2

/-- `json.loads(text)`; `none` when it raises. -/
def loads (f : Floats) (text : String) : Option Json :=
  if text.toList.head? = some (Char.ofNat 0xFEFF) then none
  else
    match scanValue f (scanFuel text.toList) (skipSpace text.toList) with
    | none => none
    | some (j, s) => if skipSpace s = [] then some j else none

end Python
end TrShared
