import Mathlib.Data.List.Nodup

/-!
# TrShared.Python.OrderedDict

Python's `dict`: keys occur once and keep the order of their first insertion. The structure carries
that the keys are distinct, so `get` and membership of an entry say the same (`get_eq_some_iff`), and
every operation is described by its entries.
-/

namespace TrShared
namespace Python

structure OrderedDict (κ β : Type) where
  entries : List (κ × β) := []
  nodup : (entries.map Prod.fst).Nodup := by simp

namespace OrderedDict

section Entries

variable {κ β : Type} {k : κ} {v v' : β}

theorem nodup_append_new {l : List (κ × β)} (h : (l.map Prod.fst).Nodup)
    (hk : k ∉ l.map Prod.fst) : ((l ++ [(k, v)]).map Prod.fst).Nodup := by
  rw [List.map_append, List.nodup_append]
  refine ⟨h, by simp, ?_⟩
  intro a ha b hb hab
  obtain rfl : b = k := by simpa using hb
  exact hk (hab ▸ ha)

theorem value_unique {d : OrderedDict κ β} (h : (k, v) ∈ d.entries) (h' : (k, v') ∈ d.entries) :
    v = v' := by
  have := List.inj_on_of_nodup_map d.nodup h h' rfl
  exact congrArg Prod.snd this

/-- `{}`. -/
def empty : OrderedDict κ β := ⟨[], List.nodup_nil⟩

@[simp]
theorem empty_entries : (empty : OrderedDict κ β).entries = [] := rfl

end Entries

variable {κ β : Type} [DecidableEq κ]

/-- `d.get(k)`. -/
def get (d : OrderedDict κ β) (k : κ) : Option β :=
  (d.entries.find? (fun e => decide (e.1 = k))).map Prod.snd

/-- `len(d)`. -/
def size (d : OrderedDict κ β) : Nat := d.entries.length

/-- The entries that satisfy `p`, in order: `del` of all the others. -/
def keep (d : OrderedDict κ β) (p : κ → β → Bool) : OrderedDict κ β where
  entries := d.entries.filter (fun e => p e.1 e.2)
  nodup := d.nodup.sublist (List.filter_sublist.map Prod.fst)

/-- `d.pop(k, None)`, and `del d[k]` where the key is there. -/
def erase (d : OrderedDict κ β) (k : κ) : OrderedDict κ β := d.keep (fun k' _ => decide (k' ≠ k))

/-- `d.popitem(last=False)`; `none` is the `KeyError` of an empty dict. -/
def popitem (d : OrderedDict κ β) : Option (OrderedDict κ β) :=
  match d with
  | ⟨[], _⟩ => none
  | ⟨_ :: rest, h⟩ => some ⟨rest, (List.nodup_cons.mp h).2⟩

/-- `list(d)`. -/
def keys (d : OrderedDict κ β) : List κ := d.entries.map Prod.fst

/-- `next(iter(d))`. -/
def oldest (d : OrderedDict κ β) : Option κ := d.entries.head?.map Prod.fst

theorem map_fst_update (l : List (κ × β)) (k : κ) (v : β) :
    (l.map (fun e => if e.1 = k then (k, v) else e)).map Prod.fst = l.map Prod.fst := by
  rw [List.map_map]
  refine List.map_congr_left ?_
  intro e _
  simp only [Function.comp_apply]
  split
  · rename_i h; exact h.symm
  · rfl

/-- `d[k] = v`: in place when the key is there, else at the end. -/
def set (d : OrderedDict κ β) (k : κ) (v : β) : OrderedDict κ β :=
  if hk : k ∈ d.entries.map Prod.fst then
    ⟨d.entries.map (fun e => if e.1 = k then (k, v) else e), by
      rw [map_fst_update]
      exact d.nodup⟩
  else ⟨d.entries ++ [(k, v)], nodup_append_new d.nodup hk⟩

variable {d : OrderedDict κ β} {k k' : κ} {v v' : β}

theorem get_eq_some_iff : d.get k = some v ↔ (k, v) ∈ d.entries := by
  simp only [get, Option.map_eq_some_iff]
  constructor
  · rintro ⟨e, he, rfl⟩
    have hk : e.1 = k := by simpa using List.find?_some he
    subst hk
    exact List.mem_of_find?_eq_some he
  · intro h
    cases hf : d.entries.find? (fun e => decide (e.1 = k)) with
    | none =>
      rw [List.find?_eq_none] at hf
      exact absurd (decide_eq_true rfl) (hf (k, v) h)
    | some e =>
      have hk : e.1 = k := by simpa using List.find?_some hf
      subst hk
      exact ⟨e, rfl, value_unique (List.mem_of_find?_eq_some hf) h⟩

@[simp] theorem get_empty : ({} : OrderedDict κ β).get k = none := rfl

@[simp] theorem empty_get : (empty : OrderedDict κ β).get k = none := rfl

theorem mem_set : (k', v') ∈ (d.set k v).entries ↔
    (k' = k ∧ v' = v) ∨ (k' ≠ k ∧ (k', v') ∈ d.entries) := by
  simp only [set]
  split
  · rename_i hk
    simp only [List.mem_map]
    constructor
    · rintro ⟨e, he, heq⟩
      split at heq
      · cases heq; exact .inl ⟨rfl, rfl⟩
      · rename_i hne
        subst heq
        exact .inr ⟨hne, he⟩
    · rintro (⟨rfl, rfl⟩ | ⟨hne, he⟩)
      · obtain ⟨e, he, hek⟩ := List.mem_map.mp hk
        exact ⟨e, he, by rw [if_pos hek]⟩
      · exact ⟨(k', v'), he, by rw [if_neg hne]⟩
  · rename_i hk
    simp only [List.mem_append, List.mem_singleton, Prod.mk.injEq]
    constructor
    · rintro (he | h)
      · refine .inr ⟨?_, he⟩
        rintro rfl
        exact hk (List.mem_map.mpr ⟨_, he, rfl⟩)
      · exact .inl h
    · rintro (h | ⟨-, he⟩)
      · exact .inr h
      · exact .inl he

@[simp] theorem get_set_self : (d.set k v).get k = some v := by
  rw [get_eq_some_iff, mem_set]
  exact .inl ⟨rfl, rfl⟩

theorem get_set_of_ne (h : k' ≠ k) : (d.set k v).get k' = d.get k' := by
  ext v'
  rw [get_eq_some_iff, get_eq_some_iff, mem_set]
  simp [h]

/-- After a loop of assignments a key has what was last assigned to it. -/
theorem get_foldl_set {ι : Type} (l : List ι) (key : ι → κ) (value : ι → β) (d : OrderedDict κ β) :
    (l.foldl (fun d i => d.set (key i) (value i)) d).get k =
      ((l.reverse.find? (fun i => decide (key i = k))).map value).or (d.get k) := by
  induction l generalizing d with
  | nil => rfl
  | cons i l ih =>
    rw [List.foldl_cons, ih, List.reverse_cons, List.find?_append]
    cases List.find? (fun i => decide (key i = k)) l.reverse with
    | some j => rfl
    | none =>
      by_cases hk : key i = k
      · simp [← hk]
      · simp [hk, get_set_of_ne (Ne.symm hk)]

theorem get_keep {p : κ → β → Bool} : (d.keep p).get k = (d.get k).filter (p k) := by
  ext v
  rw [get_eq_some_iff, Option.filter_eq_some_iff, get_eq_some_iff]
  simp [keep]

@[simp] theorem get_erase_self : (d.erase k).get k = none := by
  rw [erase, get_keep]
  cases d.get k <;> simp

theorem get_erase_of_ne (h : k' ≠ k) : (d.erase k).get k' = d.get k' := by
  rw [erase, get_keep]
  cases d.get k' <;> simp [h]

theorem get_isSome_iff : (d.get k).isSome = true ↔ k ∈ d.keys := by
  rw [Option.isSome_iff_exists, keys, List.mem_map]
  constructor
  · rintro ⟨v, hv⟩
    exact ⟨(k, v), get_eq_some_iff.mp hv, rfl⟩
  · rintro ⟨⟨k', v⟩, he, rfl⟩
    exact ⟨v, get_eq_some_iff.mpr he⟩

theorem keys_set_of_mem (h : k ∈ d.keys) : (d.set k v).keys = d.keys := by
  have hk : k ∈ d.entries.map Prod.fst := h
  simp only [set, keys, dif_pos hk]
  exact map_fst_update d.entries k v

theorem keys_set_of_not_mem (h : k ∉ d.keys) : (d.set k v).keys = d.keys ++ [k] := by
  have hk : k ∉ d.entries.map Prod.fst := h
  simp [set, keys, dif_neg hk]

theorem size_set_le : (d.set k v).size ≤ d.size + 1 := by
  simp only [set, size]
  split
  · simp
  · simp

omit [DecidableEq κ] in
theorem size_keep_le {p : κ → β → Bool} : (d.keep p).size ≤ d.size :=
  List.length_filter_le _ _

theorem size_erase_oldest (h : d.oldest = some k) : (d.erase k).size < d.size := by
  simp only [oldest, Option.map_eq_some_iff] at h
  obtain ⟨e, he, rfl⟩ := h
  refine List.length_filter_lt_length_iff_exists.mpr ⟨e, List.mem_of_head? he, ?_⟩
  simp

omit [DecidableEq κ] in
theorem size_eq_length_keys : d.size = d.keys.length := by
  simp [size, keys]

end OrderedDict
end Python
end TrShared
