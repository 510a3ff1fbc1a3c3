import Mathlib.Data.List.Basic
import TrShared.Python.Text

/-!
# TrShared.Python.Json

The Python values that pass through the event code, and the few built-in operations it applies
to them. A `Json` is what `json.loads` can return; `None` is `null`, and a `dict` with string keys
is `obj` with its entries in insertion order. A `str` is a `String`, or a `LoneText` when an escape such
as `\ud800` has left a lone surrogate in it.

`Stdlib` holds the standard library functions whose text format no code here depends on:
`json.dumps`, `json.loads` (`none` when it raises) and `datetime.isoformat`.
-/

namespace TrShared
namespace Python

/-- `timedelta(seconds=n)`. Moments and spans are counted in microseconds. -/
def seconds (n : Int) : Int := n * 1000000

/-- A `str` that no `String` is, and that has no encoding in UTF-8. -/
structure LoneText where
  points : Text
  lone : encodable points = false
  deriving DecidableEq

/-- A JSON value; a number is `mantissa * 10 ^ exponent`. -/
inductive Json where
  | null
  | bool (b : Bool)
  | num (mantissa exponent : Int)
  | str (s : String)
  | lone (t : LoneText)
  | arr (items : List Json)
  | obj (entries : List (String × Json))

mutual

def Json.decEq : (a b : Json) → Decidable (a = b)
  | .null, .null => isTrue rfl
  | .bool a, .bool b => decidable_of_iff (a = b) (by simp)
  | .num a x, .num b y => decidable_of_iff (a = b ∧ x = y) (by simp)
  | .str a, .str b => decidable_of_iff (a = b) (by simp)
  | .lone a, .lone b => decidable_of_iff (a = b) (by simp)
  | .arr a, .arr b =>
    match Json.decEqItems a b with
    | isTrue h => isTrue (by rw [h])
    | isFalse h => isFalse (by simpa using h)
  | .obj a, .obj b =>
    match Json.decEqEntries a b with
    | isTrue h => isTrue (by rw [h])
    | isFalse h => isFalse (by simpa using h)
  | .null, .bool _ | .null, .num _ _ | .null, .str _ | .null, .lone _ | .null, .arr _ | .null, .obj _ =>
    isFalse (by simp)
  | .bool _, .null | .bool _, .num _ _ | .bool _, .str _ | .bool _, .lone _ | .bool _, .arr _
  | .bool _, .obj _ => isFalse (by simp)
  | .num _ _, .null | .num _ _, .bool _ | .num _ _, .str _ | .num _ _, .lone _ | .num _ _, .arr _
  | .num _ _, .obj _ => isFalse (by simp)
  | .str _, .null | .str _, .bool _ | .str _, .num _ _ | .str _, .lone _ | .str _, .arr _
  | .str _, .obj _ => isFalse (by simp)
  | .lone _, .null | .lone _, .bool _ | .lone _, .num _ _ | .lone _, .str _ | .lone _, .arr _
  | .lone _, .obj _ => isFalse (by simp)
  | .arr _, .null | .arr _, .bool _ | .arr _, .num _ _ | .arr _, .str _ | .arr _, .lone _
  | .arr _, .obj _ => isFalse (by simp)
  | .obj _, .null | .obj _, .bool _ | .obj _, .num _ _ | .obj _, .str _ | .obj _, .lone _
  | .obj _, .arr _ => isFalse (by simp)

def Json.decEqItems : (a b : List Json) → Decidable (a = b)
  | [], [] => isTrue rfl
  | [], _ :: _ | _ :: _, [] => isFalse (by simp)
  | x :: a, y :: b =>
    match Json.decEq x y, Json.decEqItems a b with
    | isTrue h, isTrue h' => isTrue (by rw [h, h'])
    | isFalse h, _ => isFalse (by simp [h])
    | _, isFalse h => isFalse (by simp [h])

def Json.decEqEntries : (a b : List (String × Json)) → Decidable (a = b)
  | [], [] => isTrue rfl
  | [], _ :: _ | _ :: _, [] => isFalse (by simp)
  | (k, x) :: a, (l, y) :: b =>
    match instDecidableEqString k l, Json.decEq x y, Json.decEqEntries a b with
    | isTrue h, isTrue h', isTrue h'' => isTrue (by rw [h, h', h''])
    | isFalse h, _, _ => isFalse (by simp [h])
    | _, isFalse h, _ => isFalse (by simp [h])
    | _, _, isFalse h => isFalse (by simp [h])

end

instance : DecidableEq Json := Json.decEq

abbrev Dict := List (String × Json)

/-- `bool(value)`. -/
def Json.truthy : Json → Bool
  | .null => false
  | .bool b => b
  | .num m _ => m != 0
  | .str s => s != ""
  | .lone _ => true
  | .arr items => !items.isEmpty
  | .obj entries => !entries.isEmpty

/-- `d.get(k, default)`. -/
def getD {β : Type} (d : List (String × β)) (k : String) (default : β) : β :=
  (d.lookup k).getD default

/-- `d[k] = v`: in place when the key is there, else at the end. -/
def setItem {β : Type} : List (String × β) → String → β → List (String × β)
  | [], k, v => [(k, v)]
  | (k', v') :: d, k, v => if k = k' then (k, v) :: d else (k', v') :: setItem d k v

theorem setItem_lookup {β : Type} {d : List (String × β)} {k : String} {v : β}
    (h : d.lookup k = some v) : setItem d k v = d := by
  induction d with
  | nil => simp at h
  | cons p d ih =>
    obtain ⟨k', v'⟩ := p
    simp only [List.lookup_cons] at h
    simp only [setItem]
    by_cases hk : k = k'
    · subst hk
      simp only [beq_self_eq_true] at h
      cases h
      simp
    · have hb : (k == k') = false := by simpa using hk
      rw [hb] at h
      rw [if_neg hk, ih h]

theorem lookup_setItem {β : Type} (d : List (String × β)) (k t : String) (v : β) :
    (setItem d k v).lookup t = if t = k then some v else d.lookup t := by
  induction d with
  | nil =>
    by_cases ht : t = k
    · simp [setItem, ht]
    · have hb : (t == k) = false := by simpa using ht
      simp [setItem, ht, List.lookup_cons, hb]
  | cons p d ih =>
    obtain ⟨k', v'⟩ := p
    simp only [setItem]
    by_cases hk : k = k'
    · subst hk
      by_cases ht : t = k
      · simp [ht]
      · have hb : (t == k) = false := by simpa using ht
        simp [List.lookup_cons, ht, hb]
    · rw [if_neg hk, List.lookup_cons, List.lookup_cons, ih]
      by_cases ht : t = k'
      · subst ht
        have hkt : ¬ t = k := fun h => hk h.symm
        simp [hkt]
      · have hb : (t == k') = false := by simpa using ht
        simp [hb]

/-- `s[:n]`. -/
def prefixOf (n : Nat) (s : String) : String := String.ofList (s.toList.take n)

/-- `s.startswith(p)`. -/
def startswith (s p : String) : Bool := p.toList.isPrefixOf s.toList

/-- `s.endswith(p)`. -/
def endswith (s p : String) : Bool := p.toList.isSuffixOf s.toList

structure Stdlib where
  /-- `json.dumps` -/
  dumps : Json → String
  /-- `json.loads` -/
  loads : String → Option Json
  /-- `datetime.isoformat` -/
  isoformat : Int → String

/-- Agrees with Python on the empty object, on text that is not JSON and at the epoch, which is all
that the concrete schedules of the other modules use. -/
def demoLib : Stdlib where
  dumps
    | .obj [] => "\x7b\x7d"
    | _ => "null"
  loads s := if s = "\x7b\x7d" then some (.obj []) else none
  isoformat _ := "1970-01-01T00:00:00+00:00"

end Python
end TrShared
