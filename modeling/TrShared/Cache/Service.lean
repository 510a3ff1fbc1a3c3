import TrShared.Python.Json

/-!
# TrShared.Cache.Service

The readers of `CacheService` (`cache/service.py`): `get`, and `get_many` over one `MGET`. `None` and
a stored `null` are the same value.

`get` has an error handler of its own for every key, `get_many` one for the whole batch.

* `getMany_agrees_iff`: the batch agrees with the single reads exactly if none of its keys holds a
  text that is not JSON, or none holds a value to be lost.
* `corrupt_key_empties_batch`: one key of each kind.
-/

namespace TrShared
namespace Cache

open Python

/-- What the backend holds, as `GET` answers it. -/
abbrev Store := String → Option String

/-- `CacheService.get`. -/
def get (lib : Stdlib) (store : Store) (key : String) : Json :=
  match store key with
  | some cached => (lib.loads cached).getD .null
  | none => .null

/-- `dict.fromkeys`. -/
def fromkeys (keys : List String) : Dict :=
  keys.foldl (fun d key => setItem d key .null) []

/-- The loop of `get_many`; `none` when `json.loads` raises. -/
def decodeAll (lib : Stdlib) (result : Dict) : List (String × Option String) → Option Dict
  | [] => some result
  | (key, none) :: rest => decodeAll lib (setItem result key .null) rest
  | (key, some cached) :: rest =>
    match lib.loads cached with
    | some value => decodeAll lib (setItem result key value) rest
    | none => none

/-- `CacheService.get_many`. -/
def getMany (lib : Stdlib) (store : Store) (keys : List String) : Dict :=
  if keys.isEmpty then []
  else
    let cachedValues := keys.map store
    match decodeAll lib [] (keys.zip cachedValues) with
    | some result => result
    | none => fromkeys keys

/-! ## Single keys -/

variable {lib : Stdlib} {store : Store} {keys : List String} {k : String}

/-- The key holds a text that is not JSON. -/
def Corrupt (lib : Stdlib) (store : Store) (k : String) : Prop :=
  ∃ text, store k = some text ∧ lib.loads text = none

/-- The key holds a JSON value other than `null`. -/
def Readable (lib : Stdlib) (store : Store) (k : String) : Prop :=
  ∃ text v, store k = some text ∧ lib.loads text = some v ∧ v ≠ .null

theorem get_null_iff : get lib store k = .null ↔ ¬ Readable lib store k := by
  unfold get Readable
  cases hs : store k with
  | none => simp
  | some text =>
    cases hl : lib.loads text with
    | none => simp [hl]
    | some v => simp [hl]

/-! ## The batch -/

theorem fromkeys_lookup (keys : List String) (k : String) :
    (fromkeys keys).lookup k = if k ∈ keys then some .null else none := by
  have hgen : ∀ d : Dict, (keys.foldl (fun d key => setItem d key .null) d).lookup k =
      if k ∈ keys then some .null else d.lookup k := by
    induction keys with
    | nil => intro d; simp
    | cons key keys ih =>
      intro d
      rw [List.foldl_cons, ih, lookup_setItem]
      by_cases hk : k = key
      · simp [hk]
      · simp [hk]
  exact hgen []

/-- The loop raises on the first text that is not JSON. -/
theorem decodeAll_none_iff (result : Dict) :
    decodeAll lib result (keys.zip (keys.map store)) = none ↔ ∃ k ∈ keys, Corrupt lib store k := by
  induction keys generalizing result with
  | nil => simp [decodeAll]
  | cons key keys ih =>
    simp only [List.map_cons, List.zip_cons_cons, List.exists_mem_cons_iff]
    cases hs : store key with
    | none =>
      have hnot : ¬ Corrupt lib store key := by
        rintro ⟨text, htext, -⟩
        rw [hs] at htext
        cases htext
      rw [decodeAll, ih]
      simp [hnot]
    | some text =>
      cases hl : lib.loads text with
      | none =>
        have hcorrupt : Corrupt lib store key := ⟨text, hs, hl⟩
        simp only [decodeAll, hl]
        simp [hcorrupt]
      | some v =>
        have hnot : ¬ Corrupt lib store key := by
          rintro ⟨text', htext, hnone⟩
          rw [hs] at htext
          cases htext
          rw [hl] at hnone
          cases hnone
        simp only [decodeAll, hl]
        rw [ih]
        simp [hnot]

/-- If it does not, every key has what `get` returns for it. -/
theorem decodeAll_lookup {result final : Dict}
    (h : decodeAll lib result (keys.zip (keys.map store)) = some final) (k : String) :
    final.lookup k = if k ∈ keys then some (get lib store k) else result.lookup k := by
  induction keys generalizing result with
  | nil =>
    simp only [decodeAll, List.map_nil, List.zip_nil_right, Option.some.injEq] at h
    simp [h]
  | cons key keys ih =>
    have hgo : decodeAll lib (setItem result key (get lib store key)) (keys.zip (keys.map store)) =
        some final := by
      simp only [List.map_cons, List.zip_cons_cons] at h
      cases hs : store key with
      | none =>
        rw [hs, decodeAll] at h
        simpa only [get, hs] using h
      | some text =>
        rw [hs] at h
        cases hl : lib.loads text with
        | none =>
          simp only [decodeAll, hl] at h
          cases h
        | some v =>
          simp only [decodeAll, hl] at h
          simpa only [get, hs, hl, Option.getD_some] using h
    rw [ih hgo, lookup_setItem]
    by_cases hk : k = key
    · simp [hk]
    · simp [hk]

/-- The mapping has exactly the given keys, each with what `get` returns for it. -/
def Agrees (lib : Stdlib) (store : Store) (keys : List String) : Prop :=
  ∀ k, (getMany lib store keys).lookup k =
    if k ∈ keys then some (get lib store k) else none

theorem agrees_of_intact (h : ∀ k ∈ keys, ¬ Corrupt lib store k) : Agrees lib store keys := by
  intro k
  unfold getMany
  cases hd : decodeAll lib [] (keys.zip (keys.map store)) with
  | none =>
    obtain ⟨key, hkey, hcorrupt⟩ := (decodeAll_none_iff []).1 hd
    exact absurd hcorrupt (h key hkey)
  | some result =>
    have hlookup := decodeAll_lookup hd k
    split
    · rename_i hempty
      simp [List.isEmpty_iff.1 hempty]
    · simp only [hd]
      rw [hlookup, List.lookup_nil]

/-- A text that is not JSON empties the whole batch. -/
theorem getMany_of_corrupt (h : ∃ k ∈ keys, Corrupt lib store k) :
    getMany lib store keys = fromkeys keys := by
  have hne : keys.isEmpty = false := by
    obtain ⟨key, hkey, -⟩ := h
    exact List.isEmpty_eq_false_iff_exists_mem.2 ⟨key, hkey⟩
  simp only [getMany, hne, (decodeAll_none_iff []).2 h]
  rfl

/-- For every list of keys and every content of the store: `get_many` maps exactly the given keys, each
to what `get` returns for it, if and only if no key holds a text that is not JSON, or no key holds a
value other than `null`. -/
theorem getMany_agrees_iff (lib : Stdlib) (store : Store) (keys : List String) :
    Agrees lib store keys ↔
      (∀ k ∈ keys, ¬ Corrupt lib store k) ∨ ∀ k ∈ keys, ¬ Readable lib store k := by
  by_cases hcorrupt : ∃ k ∈ keys, Corrupt lib store k
  · have hagrees : Agrees lib store keys ↔ ∀ k ∈ keys, ¬ Readable lib store k := by
      unfold Agrees
      rw [getMany_of_corrupt hcorrupt]
      constructor
      · intro h k hk
        have hlookup := h k
        rw [fromkeys_lookup, if_pos hk, if_pos hk, Option.some.injEq] at hlookup
        exact get_null_iff.1 hlookup.symm
      · intro h k
        rw [fromkeys_lookup]
        split
        · rename_i hk
          rw [get_null_iff.2 (h k hk)]
        · rfl
    have hnot : ¬ ∀ k ∈ keys, ¬ Corrupt lib store k := by
      obtain ⟨key, hkey, hc⟩ := hcorrupt
      exact fun h => h key hkey hc
    rw [hagrees]
    exact ⟨.inr, fun h => h.resolve_left hnot⟩
  · have hintact : ∀ k ∈ keys, ¬ Corrupt lib store k := by
      intro k hk hc
      exact hcorrupt ⟨k, hk, hc⟩
    exact iff_of_true (agrees_of_intact hintact) (.inl hintact)

/-- A value beside a text that was cut off. -/
def halfCorrupt : Store
  | "listing" => some "\x7b\x7d"
  | "stale" => some "\x7b"
  | _ => none

theorem corrupt_key_empties_batch :
    ¬ ∀ (lib : Stdlib) (store : Store) (keys : List String), Agrees lib store keys := by
  intro h
  have hlookup := h demoLib halfCorrupt ["listing", "stale"] "listing"
  have hlost : (getMany demoLib halfCorrupt ["listing", "stale"]).lookup "listing" = some .null := by
    decide
  have hget : get demoLib halfCorrupt "listing" = .obj [] := by decide
  rw [hlost, hget] at hlookup
  simp at hlookup

end Cache
end TrShared
