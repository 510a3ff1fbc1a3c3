import TrShared.Python.Text
import TrShared.Python.Utf8

/-!
# TrShared.Python.Urlencoded

`urllib.parse.parse_qsl` with `keep_blank_values=True`, for a text: the pairs of a query string or of a
urlencoded form. `unquote` decodes each run of ASCII characters by itself and leaves the others alone.
-/

namespace TrShared
namespace Python

/-- The value of an ASCII hexadecimal digit. -/
def hexDigit (b : UInt8) : Option Nat :=
  let n := b.toNat
  if 0x30 ≤ n ∧ n ≤ 0x39 then some (n - 0x30)
  else if 0x41 ≤ n ∧ n ≤ 0x46 then some (n - 0x41 + 10)
  else if 0x61 ≤ n ∧ n ≤ 0x66 then some (n - 0x61 + 10)
  else none

/-- The byte that `%ab` stands for. -/
def percentEscape (c a b : UInt8) : Option UInt8 :=
  if c = 0x25 then
    match hexDigit a, hexDigit b with
    | some x, some y => some (UInt8.ofNat (16 * x + y))
    | _, _ => none
  else none

/-- `unquote_to_bytes`; a `%` without two digits behind it stays. -/
def unquoteToBytes : List UInt8 → List UInt8
  | c :: a :: b :: s =>
    match percentEscape c a b with
    | some byte => byte :: unquoteToBytes s
    | none => c :: unquoteToBytes (a :: b :: s)
  | s => s

def isAscii (c : CodePoint) : Bool := decide (c.val < 0x80)

/-- A run of ASCII characters is decoded as UTF-8 with replacement. -/
def unquoteRun (run : Text) : Text :=
  if run.all isAscii then
    text (decodeReplace (unquoteToBytes (run.map (fun c => UInt8.ofNat c.val))))
  else run

def unquote (s : Text) : Text :=
  if codePoint '%' ∈ s then (s.splitBy (fun a b => isAscii a == isAscii b)).flatMap unquoteRun
  else s

def unquotePlus (s : Text) : Text := unquote (replaceAll (text "+") (text " ") s)

/-- A field without `=` is a name with a blank value; an empty field is skipped. -/
def parseQsl (qs : Text) : List (Text × Text) :=
  ((qs.splitOn (codePoint '&')).filter (fun field => !field.isEmpty)).map (fun field =>
    let (name, value) := partition (codePoint '=') field
    (unquotePlus name, unquotePlus value))

example : parseQsl (text "a=%00&&b+c=%4%41&d") =
    [(text "a", [0]), (text "b c", text "%4A"), (text "d", [])] := by
  decide +kernel

end Python
end TrShared
