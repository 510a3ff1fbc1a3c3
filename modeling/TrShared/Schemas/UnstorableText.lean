import TrShared.Python.Text

/-!
# TrShared.Schemas.UnstorableText

`unstorable_text_location` of `schemas/validators.py`: the search with an explicit stack for a text that
the database cannot store, one with a NUL or a surrogate, in a value of nested dicts and lists.

A `Value` is finite, and its dicts have distinct keys. `Occurs` says what the search looks for without
the stack, `follow` what a path leads to.

* `search_spec`: the stack invariant. Every entry is what its path leads to; a search that comes to its
  end has left nothing unstorable in any of them.
* `search_complete_with_path`: the search ends for every value, it finds something iff there is
  something, and its path leads there.
-/

namespace TrShared
namespace Schemas

open Python

/-- A key of a dict, and an element of a path: a string, an integer, or another Python object. -/
inductive Key (σ : Type) where
  | str (s : Text)
  | int (n : Int)
  | other (a : σ)
  deriving DecidableEq

/-- A finite value of dicts, lists, strings and anything else. -/
inductive Value (σ : Type) where
  | str (s : Text)
  | dict (keys : List (Key σ)) (nodup : keys.Nodup) (values : Fin keys.length → Value σ)
  | list (length : Nat) (items : Fin length → Value σ)
  | scalar (a : σ)

abbrev Path (σ : Type) := List (Key σ)

/-- A match of `_UNSTORABLE_TEXT`. -/
def isUnstorable (c : CodePoint) : Bool := decide (c.val = 0 ∨ (0xD800 ≤ c.val ∧ c.val ≤ 0xDFFF))

/-- `_UNSTORABLE_TEXT.search(s)` finds something. -/
def unstorable (s : Text) : Bool := s.any isUnstorable

section Search

variable {σ : Type}

def Key.unstorable : Key σ → Bool
  | .str s => Schemas.unstorable s
  | .int _ => false
  | .other _ => false

/-- The stack, its top first. -/
abbrev Pending (σ : Type) := List (Path σ × Value σ)

/-- The loop over `item.items()`: `error` is the `return` out of it. -/
def pushItems (path : Path σ) : List (Key σ × Value σ) → Pending σ → Except (Path σ) (Pending σ)
  | [], pending => .ok pending
  | (key, inner) :: items, pending =>
    if key.unstorable then .error path
    else pushItems path items ((path ++ [key], inner) :: pending)

/-- `item.items()`. -/
def itemsOf (keys : List (Key σ)) (values : Fin keys.length → Value σ) :
    List (Key σ × Value σ) :=
  List.ofFn (fun i => (keys.get i, values i))

/-- The elements of a list with their paths, in order. -/
def enumerated (path : Path σ) (length : Nat) (items : Fin length → Value σ) : Pending σ :=
  List.ofFn (fun i => (path ++ [.int i.val], items i))

/-- The `while` loop; `none` when the fuel runs out. -/
def search : Nat → Pending σ → Option (Option (Path σ))
  | _, [] => some none
  | 0, _ :: _ => none
  | fuel + 1, (path, item) :: pending =>
    match item with
    | .str s => if unstorable s then some (some path) else search fuel pending
    | .dict keys _ values =>
      match pushItems path (itemsOf keys values) pending with
      | .error path => some (some path)
      | .ok pending => search fuel pending
    | .list length items => search fuel ((enumerated path length items).reverse ++ pending)
    | .scalar _ => search fuel pending

/-- The number of values in a value. -/
def Value.size : Value σ → Nat
  | .str _ => 1
  | .dict _ _ values => 1 + (List.ofFn (fun i => (values i).size)).sum
  | .list _ items => 1 + (List.ofFn (fun i => (items i).size)).sum
  | .scalar _ => 1

/-- The search visits each value at most once. -/
def unstorableTextLocation (value : Value σ) : Option (Path σ) :=
  (search value.size [([], value)]).getD none

/-! ## What is searched for -/

/-- A text that contains U+0000 or a surrogate. -/
def Unstorable (s : Text) : Prop := ∃ c ∈ s, c.val = 0 ∨ (0xD800 ≤ c.val ∧ c.val ≤ 0xDFFF)

/-- The text occurs in the value, as an element or as a key. -/
inductive Occurs (s : Text) : Value σ → Prop where
  | here : Occurs s (.str s)
  | key {keys : List (Key σ)} {nodup : keys.Nodup} {values : Fin keys.length → Value σ} :
      .str s ∈ keys → Occurs s (.dict keys nodup values)
  | dict {keys : List (Key σ)} {nodup : keys.Nodup} {values : Fin keys.length → Value σ}
      (i : Fin keys.length) : Occurs s (values i) → Occurs s (.dict keys nodup values)
  | list {length : Nat} {items : Fin length → Value σ} (i : Fin length) :
      Occurs s (items i) → Occurs s (.list length items)

/-- An unstorable text occurs in the value. -/
def Value.Bad (value : Value σ) : Prop := ∃ s, Occurs s value ∧ Unstorable s

/-- A string with such a character, or a dict that has a key with one. -/
def Value.Hit : Value σ → Prop
  | .str s => Unstorable s
  | .dict keys _ _ => ∃ s, .str s ∈ keys ∧ Unstorable s
  | .list _ _ => False
  | .scalar _ => False

variable [DecidableEq σ]

/-- `value[k0][k1]...` along the path, indices counted from the front; `none` when a key or an index is
missing. -/
def follow : Value σ → Path σ → Option (Value σ)
  | value, [] => some value
  | .dict keys _ values, k :: path =>
    if h : k ∈ keys then follow (values ⟨keys.idxOf k, List.idxOf_lt_length_iff.mpr h⟩) path else none
  | .list length items, .int n :: path =>
    if h : 0 ≤ n ∧ n.toNat < length then follow (items ⟨n.toNat, h.2⟩) path else none
  | _, _ :: _ => none

/-! ## The path -/

theorem unstorable_iff {s : Text} : unstorable s = true ↔ Unstorable s := by
  simp [unstorable, Unstorable, isUnstorable]

theorem follow_nil (value : Value σ) : follow value [] = some value := by
  simp [follow]

theorem follow_append (value : Value σ) (path : Path σ) (k : Key σ) :
    follow value (path ++ [k]) = (follow value path).bind (fun item => follow item [k]) := by
  induction path generalizing value with
  | nil => simp [follow]
  | cons j path ih =>
    cases value with
    | str s => simp [follow]
    | scalar a => simp [follow]
    | dict keys nodup values =>
      simp only [List.cons_append, follow]
      split
      · exact ih _
      · rfl
    | list length items =>
      cases j with
      | int n =>
        simp only [List.cons_append, follow]
        split
        · exact ih _
        · rfl
      | str s => simp [follow]
      | other a => simp [follow]

theorem follow_key {keys : List (Key σ)} {nodup : keys.Nodup} {values : Fin keys.length → Value σ}
    (i : Fin keys.length) : follow (.dict keys nodup values) [keys.get i] = some (values i) := by
  have hmem : keys.get i ∈ keys := List.get_mem keys i
  have hidx : keys.idxOf (keys.get i) = i.val := nodup.idxOf_getElem i.val i.isLt
  simp only [follow, dif_pos hmem]
  congr 2
  exact Fin.ext hidx

theorem follow_index {length : Nat} {items : Fin length → Value σ} (i : Fin length) :
    follow (.list length items) [.int i.val] = some (items i) := by
  simp [follow]

/-- What a path leads to is in the value. -/
theorem bad_of_follow {value item : Value σ} {path : Path σ} (h : follow value path = some item)
    (hbad : item.Bad) : value.Bad := by
  induction path generalizing value with
  | nil =>
    simp only [follow, Option.some.injEq] at h
    exact h ▸ hbad
  | cons k path ih =>
    cases value with
    | str s => simp [follow] at h
    | scalar a => simp [follow] at h
    | dict keys nodup values =>
      simp only [follow] at h
      split at h
      · obtain ⟨s, hs, hu⟩ := ih h
        exact ⟨s, .dict _ hs, hu⟩
      · cases h
    | list length items =>
      cases k with
      | int n =>
        simp only [follow] at h
        split at h
        · obtain ⟨s, hs, hu⟩ := ih h
          exact ⟨s, .list _ hs, hu⟩
        · cases h
      | str s => simp [follow] at h
      | other a => simp [follow] at h

end Search

/-! ## One turn of the loop -/

section Loop

variable {σ : Type}

/-- What a turn of the loop pushes for an item that is no hit, in order. -/
def Value.children (path : Path σ) : Value σ → Pending σ
  | .dict keys _ values => (itemsOf keys values).map (fun e => (path ++ [e.1], e.2))
  | .list length items => enumerated path length items
  | .str _ => []
  | .scalar _ => []

def weight (pending : Pending σ) : Nat := (pending.map (fun x => x.2.size)).sum

variable {path : Path σ} {item : Value σ} {pending : Pending σ} {fuel : Nat}

theorem pushItems_eq (items : List (Key σ × Value σ)) : pushItems path items pending =
    if items.any (fun e => e.1.unstorable) then .error path
    else .ok ((items.map (fun e => (path ++ [e.1], e.2))).reverse ++ pending) := by
  induction items generalizing pending with
  | nil => rfl
  | cons e items ih =>
    obtain ⟨key, inner⟩ := e
    rw [pushItems, List.any_cons]
    cases hk : key.unstorable with
    | true => simp
    | false =>
      rw [if_neg Bool.false_ne_true, ih, Bool.false_or]
      simp

theorem keys_any_unstorable {keys : List (Key σ)} {nodup : keys.Nodup}
    {values : Fin keys.length → Value σ} :
    (itemsOf keys values).any (fun e => e.1.unstorable) = true ↔
      (Value.dict keys nodup values).Hit := by
  simp only [List.any_eq_true, itemsOf, List.mem_ofFn, Value.Hit]
  constructor
  · rintro ⟨e, ⟨i, rfl⟩, hu⟩
    cases hk : keys.get i with
    | str s =>
      simp only [hk, Key.unstorable] at hu
      exact ⟨s, hk ▸ List.get_mem keys i, unstorable_iff.mp hu⟩
    | int n => simp only [hk, Key.unstorable, Bool.false_eq_true] at hu
    | other a => simp only [hk, Key.unstorable, Bool.false_eq_true] at hu
  · rintro ⟨s, hs, hu⟩
    obtain ⟨i, hi⟩ := List.get_of_mem hs
    refine ⟨_, ⟨i, rfl⟩, ?_⟩
    simp only [hi, Key.unstorable]
    exact unstorable_iff.mpr hu

theorem search_hit (h : item.Hit) :
    search (fuel + 1) ((path, item) :: pending) = some (some path) := by
  cases item with
  | str s => simp only [search, unstorable_iff.mpr h, if_true]
  | scalar a => exact h.elim
  | list length items => exact h.elim
  | dict keys nodup values =>
    simp only [search, pushItems_eq, keys_any_unstorable.mpr h, if_true]

theorem search_push (h : ¬ item.Hit) : search (fuel + 1) ((path, item) :: pending) =
    search fuel ((item.children path).reverse ++ pending) := by
  cases item with
  | str s =>
    have hs : ¬ unstorable s = true := fun hs => h (unstorable_iff.mp hs)
    simp only [search, if_neg hs]
    rfl
  | scalar a => rfl
  | list length items => rfl
  | dict keys nodup values =>
    have hs := fun hs => h (keys_any_unstorable.mp hs)
    simp only [search, pushItems_eq, if_neg hs, Value.children]

/-- An unstorable text in an item is a hit, or in what the item pushes. -/
theorem bad_iff (path : Path σ) :
    item.Bad ↔ item.Hit ∨ ∃ x ∈ item.children path, x.2.Bad := by
  constructor
  · rintro ⟨s, hs, hu⟩
    cases hs with
    | here => exact .inl hu
    | key hk => exact .inl ⟨s, hk, hu⟩
    | @dict keys nodup values i hs =>
      refine .inr ⟨(path ++ [keys.get i], values i), ?_, s, hs, hu⟩
      simp only [Value.children, itemsOf, List.mem_map, List.mem_ofFn]
      exact ⟨_, ⟨i, rfl⟩, rfl⟩
    | @list length items i hs =>
      refine .inr ⟨(path ++ [.int i.val], items i), ?_, s, hs, hu⟩
      simp only [Value.children, enumerated, List.mem_ofFn]
      exact ⟨i, rfl⟩
  · rintro (h | ⟨x, hx, s, hs, hu⟩)
    · cases item with
      | str s => exact ⟨s, .here, h⟩
      | scalar a => exact h.elim
      | list length items => exact h.elim
      | dict keys nodup values =>
        obtain ⟨s, hk, hu⟩ := h
        exact ⟨s, .key hk, hu⟩
    · cases item with
      | str s => cases hx
      | scalar a => cases hx
      | list length items =>
        simp only [Value.children, enumerated, List.mem_ofFn] at hx
        obtain ⟨i, rfl⟩ := hx
        exact ⟨s, .list i hs, hu⟩
      | dict keys nodup values =>
        simp only [Value.children, itemsOf, List.mem_map, List.mem_ofFn] at hx
        obtain ⟨e, ⟨i, rfl⟩, rfl⟩ := hx
        exact ⟨s, .dict i hs, hu⟩

theorem weight_children : weight (item.children path) + 1 = item.size := by
  cases item with
  | str s => rfl
  | scalar a => rfl
  | dict keys nodup values =>
    simp only [weight, Value.children, itemsOf, List.map_ofFn, Value.size]
    rw [Nat.add_comm]
    rfl
  | list length items =>
    simp only [weight, Value.children, enumerated, List.map_ofFn, Value.size]
    rw [Nat.add_comm]
    rfl

theorem weight_push : weight ((item.children path).reverse ++ pending) + 1 =
    weight ((path, item) :: pending) := by
  have h := @weight_children σ path item
  simp only [weight, List.map_append, List.map_reverse, List.sum_append, List.sum_reverse,
    List.map_cons, List.sum_cons] at h ⊢
  omega

variable [DecidableEq σ] {root : Value σ}

theorem children_follow (h : follow root path = some item) {x : Path σ × Value σ}
    (hx : x ∈ item.children path) : follow root x.1 = some x.2 := by
  cases item with
  | str s => cases hx
  | scalar a => cases hx
  | dict keys nodup values =>
    simp only [Value.children, itemsOf, List.mem_map, List.mem_ofFn] at hx
    obtain ⟨e, ⟨i, rfl⟩, rfl⟩ := hx
    rw [follow_append, h]
    exact @follow_key σ _ keys nodup values i
  | list length items =>
    simp only [Value.children, enumerated, List.mem_ofFn] at hx
    obtain ⟨i, rfl⟩ := hx
    rw [follow_append, h]
    exact follow_index i

/-! ## The whole search -/

/-- The stack invariant, by induction on the fuel: with fuel for all values on the stack the search
ends, what it finds is a hit at its path, and when it finds nothing the stack held nothing. -/
theorem search_spec (hfuel : weight pending ≤ fuel)
    (hpath : ∀ x ∈ pending, follow root x.1 = some x.2) :
    ∃ result, search fuel pending = some result ∧
      (result = none → ∀ x ∈ pending, ¬ x.2.Bad) ∧
      ∀ found, result = some found → ∃ item, follow root found = some item ∧ item.Hit := by
  induction fuel generalizing pending with
  | zero =>
    cases pending with
    | nil =>
      refine ⟨none, rfl, ?_, ?_⟩
      · intro _ x hx
        cases hx
      · intro found h
        cases h
    | cons x pending =>
      obtain ⟨path, item⟩ := x
      have hpos := @weight_push σ path item pending
      omega
  | succ fuel ih =>
    cases pending with
    | nil =>
      refine ⟨none, rfl, ?_, ?_⟩
      · intro _ x hx
        cases hx
      · intro found h
        cases h
    | cons x pending =>
      obtain ⟨path, item⟩ := x
      have hitem : follow root path = some item := hpath (path, item) (by simp)
      by_cases hhit : item.Hit
      · refine ⟨some path, search_hit hhit, ?_, ?_⟩
        · intro h
          cases h
        · intro found h
          cases h
          exact ⟨item, hitem, hhit⟩
      · have hweight := @weight_push σ path item pending
        have hpath' : ∀ x ∈ (item.children path).reverse ++ pending,
            follow root x.1 = some x.2 := by
          intro x hx
          rcases List.mem_append.mp hx with hx | hx
          · exact children_follow hitem (List.mem_reverse.mp hx)
          · exact hpath x (List.mem_cons_of_mem _ hx)
        obtain ⟨result, hr, hnone, hsome⟩ := ih (by omega) hpath'
        refine ⟨result, (search_push hhit).trans hr, ?_, hsome⟩
        intro hres x hx
        have hclean := hnone hres
        rcases List.mem_cons.mp hx with rfl | hx
        · rw [bad_iff path]
          rintro (h | ⟨y, hy, hbad⟩)
          · exact hhit h
          · exact hclean y (List.mem_append_left _ (List.mem_reverse.mpr hy)) hbad
        · exact hclean x (List.mem_append_right _ hx)

omit [DecidableEq σ] in
/-- More fuel changes nothing. -/
theorem search_mono {result : Option (Path σ)} (h : search fuel pending = some result) :
    search (fuel + 1) pending = some result := by
  induction fuel generalizing pending with
  | zero =>
    cases pending with
    | nil => exact h
    | cons x pending => cases h
  | succ fuel ih =>
    cases pending with
    | nil => exact h
    | cons x pending =>
      obtain ⟨path, item⟩ := x
      by_cases hhit : item.Hit
      · rw [search_hit hhit] at h ⊢
        exact h
      · rw [search_push hhit] at h ⊢
        exact ih h

omit [DecidableEq σ] in
theorem search_le {fuel' : Nat} {result : Option (Path σ)} (h : search fuel pending = some result)
    (hle : fuel ≤ fuel') : search fuel' pending = some result := by
  induction hle with
  | refl => exact h
  | step _ ih => exact search_mono ih

theorem search_root (value : Value σ) : ∃ result, search value.size [([], value)] = some result ∧
    (result = none → ¬ value.Bad) ∧
    ∀ found, result = some found → ∃ item, follow value found = some item ∧ item.Hit := by
  have hweight : weight [([], value)] ≤ value.size := by simp [weight]
  have hpath : ∀ x ∈ [(([] : Path σ), value)], follow value x.1 = some x.2 := by
    intro x hx
    obtain rfl := List.mem_singleton.mp hx
    exact follow_nil value
  obtain ⟨result, hr, hnone, hsome⟩ := search_spec hweight hpath
  exact ⟨result, hr, fun h => hnone h ([], value) (by simp), hsome⟩

/-- The location of the text, by the search that ends. -/
theorem unstorableTextLocation_spec (value : Value σ) :
    (∀ fuel, value.size ≤ fuel →
      search fuel [([], value)] = some (unstorableTextLocation value)) ∧
    (unstorableTextLocation value = none → ¬ value.Bad) ∧
    ∀ path, unstorableTextLocation value = some path →
      ∃ item, follow value path = some item ∧ item.Hit := by
  obtain ⟨result, hr, hnone, hsome⟩ := search_root value
  have hloc : unstorableTextLocation value = result := by
    simp only [unstorableTextLocation, hr, Option.getD_some]
  rw [hloc]
  exact ⟨fun fuel hfuel => search_le hr hfuel, hnone, hsome⟩

theorem unstorableTextLocation_eq_none (value : Value σ) :
    unstorableTextLocation value = none ↔ ∀ s, Occurs s value → ¬ Unstorable s := by
  obtain ⟨-, hnone, hsome⟩ := unstorableTextLocation_spec value
  constructor
  · intro h s hs hu
    exact hnone h ⟨s, hs, hu⟩
  · intro h
    cases hloc : unstorableTextLocation value with
    | none => rfl
    | some path =>
      obtain ⟨item, hitem, hhit⟩ := hsome path hloc
      obtain ⟨s, hs, hu⟩ := bad_of_follow hitem ((bad_iff path).mpr (.inl hhit))
      exact absurd hu (h s hs)

/-- For every value: the search ends, with the same result however much fuel is left; it returns
`None` iff no string in the value, element or key, contains U+0000 or a surrogate; and a path that it
returns leads to such a string or to a dict with such a key. -/
theorem search_complete_with_path (value : Value σ) :
    (∀ fuel, value.size ≤ fuel →
      search fuel [([], value)] = some (unstorableTextLocation value)) ∧
    (unstorableTextLocation value = none ↔ ∀ s, Occurs s value → ¬ Unstorable s) ∧
    ∀ path, unstorableTextLocation value = some path →
      ∃ item, follow value path = some item ∧ item.Hit := by
  obtain ⟨hends, -, hsome⟩ := unstorableTextLocation_spec value
  exact ⟨hends, unstorableTextLocation_eq_none value, hsome⟩

end Loop

end Schemas
end TrShared
