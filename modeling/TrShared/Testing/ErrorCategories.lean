import Mathlib.Data.List.Chain
import Mathlib.Data.List.Dedup
import Mathlib.Data.List.Lattice
import Mathlib.Data.List.Perm.Subperm
import Mathlib.Logic.Relation
import TrShared.Machine.Rounds
import TrShared.Python.OrderedDict

/-!
# TrShared.Testing.ErrorCategories

`_error_class_categories` of the guards: which shared error category a class name stands for, by rounds
over all definitions. A round computes what each name inherits from what the bases stood for in the
round before; a base without a value stands for `None`, also one whose value is only found later.

`End` says what the rounds are for: the ends of the paths from a name through its bases. After `k`
rounds the table is right about the names with no longer path than `k` (`Exact`), and no path without a
cycle is longer than the list of definitions (`depthLe_length`).
-/

namespace TrShared
namespace Testing
namespace Guards

open Machine Python Relation

section Model

variable {ν γ : Type} [DecidableEq ν] [DecidableEq γ]

/-- A class name with the names of its bases. -/
abbrev Definition (ν : Type) := ν × List ν

/-- The dict of the sets of categories, `none` for a base outside the shared classes. -/
abbrev Resolved (ν γ : Type) := OrderedDict ν (List (Option γ))

/-- `a == b` of sets. -/
def sameSet (a b : List (Option γ)) : Bool :=
  a.all (fun o => decide (o ∈ b)) && b.all (fun o => decide (o ∈ a))

/-- `d == e` of dicts of sets. -/
def sameDict (d e : Resolved ν γ) : Bool :=
  decide (d.size = e.size) && d.entries.all (fun entry => ((e.get entry.1).map (sameSet entry.2)).getD false)

/-- `{name: {category} for name, category in ….items()}`. -/
def seed (shared : OrderedDict ν γ) : Resolved ν γ where
  entries := shared.entries.map (fun e => (e.1, [some e.2]))
  nodup := by
    rw [List.map_map]
    exact shared.nodup

/-- `[resolved.get(base, {None}) for base in bases] or [{None}]`. -/
def inherited (resolved : Resolved ν γ) (bases : List ν) : List (List (Option γ)) :=
  if bases = [] then [[none]] else bases.map (fun base => (resolved.get base).getD [none])

/-- `s.update(*others)`. -/
def update (s : List (Option γ)) (others : List (List (Option γ))) : List (Option γ) :=
  others.foldl (fun s other => other ∪ s) s

/-- `following.setdefault(name, set()).update(*inherited)`. -/
def addBases (resolved d : Resolved ν γ) (e : Definition ν) : Resolved ν γ :=
  d.set e.1 (update ((d.get e.1).getD []) (inherited resolved e.2))

/-- The dict that a round computes. -/
def following (shared : OrderedDict ν γ) (definitions : List (Definition ν)) (resolved : Resolved ν γ) :
    Resolved ν γ :=
  definitions.foldl (addBases resolved) (seed shared)

def round (shared : OrderedDict ν γ) (definitions : List (Definition ν)) (resolved : Resolved ν γ) :
    Resolved ν γ × Bool :=
  if sameDict (following shared definitions resolved) resolved then (resolved, false)
  else (following shared definitions resolved, true)

/-- The rounds, and whether one of them changed nothing. -/
def resolve (shared : OrderedDict ν γ) (definitions : List (Definition ν)) : Resolved ν γ × Bool :=
  rounds (round shared definitions) (definitions.length + 1) (seed shared)

/-- The category of a set with nothing else in it. Sorting a set of one member changes nothing, and of a
larger one only the size counts. -/
def single : List (Option γ) → Option γ
  | [some category] => some category
  | _ => none

omit [DecidableEq ν] [DecidableEq γ] in
theorem nodup_single (d : Resolved ν γ) :
    ((d.entries.filterMap (fun e => (single e.2).map (fun c => (e.1, c)))).map Prod.fst).Nodup := by
  refine d.nodup.sublist ?_
  induction d.entries with
  | nil => exact .slnil
  | cons e entries ih =>
    cases h : single e.2 with
    | none =>
      rw [List.filterMap_cons_none (by rw [h]; rfl)]
      exact .cons _ ih
    | some c =>
      rw [List.filterMap_cons_some (by rw [h]; rfl)]
      exact .cons_cons _ ih

/-- `_error_class_categories`; `none` is the `ValueError` of unpacking an empty set. -/
def errorClassCategories (shared : OrderedDict ν γ) (definitions : List (Definition ν)) :
    Option (OrderedDict ν γ) :=
  let resolved := (resolve shared definitions).1
  if resolved.entries.any (fun e => e.2.isEmpty) then none
  else
    some ⟨resolved.entries.filterMap (fun e => (single e.2).map (fun c => (e.1, c))), nodup_single resolved⟩

end Model

section Spec

variable {ν γ : Type}

/-- A class of the name has a base of the other. -/
def Extends (definitions : List (Definition ν)) (name base : ν) : Prop :=
  ∃ bases, (name, bases) ∈ definitions ∧ base ∈ bases

/-- Where the paths from a name through bases end: at a shared class, with its category, or outside of
them. -/
inductive End [DecidableEq ν] (shared : OrderedDict ν γ) (definitions : List (Definition ν)) :
    ν → Option γ → Prop where
  | shared {name : ν} {c : γ} : shared.get name = some c → End shared definitions name (some c)
  | unknown {name : ν} : shared.get name = none → (∀ bases, (name, bases) ∉ definitions) →
      End shared definitions name none
  | noBases {name : ν} : (name, []) ∈ definitions → End shared definitions name none
  | base {name base : ν} {o : Option γ} : Extends definitions name base → End shared definitions base o →
      End shared definitions name o

end Spec

section Dicts

variable {ν γ : Type} [DecidableEq ν] [DecidableEq γ]

theorem mem_update {s : List (Option γ)} {others : List (List (Option γ))} {o : Option γ} :
    o ∈ update s others ↔ o ∈ s ∨ ∃ t ∈ others, o ∈ t := by
  rw [update]
  induction others generalizing s with
  | nil => simp
  | cons t others ih =>
    rw [List.foldl_cons, ih, List.mem_union_iff]
    simp only [List.mem_cons, exists_eq_or_imp]
    tauto

theorem nodup_update {s : List (Option γ)} (h : s.Nodup) (others : List (List (Option γ))) :
    (update s others).Nodup := by
  rw [update]
  induction others generalizing s with
  | nil => exact h
  | cons t others ih => exact ih (h.union t)

/-- What the dict has under a name; nothing when the name is not there. -/
def valueOf (d : Resolved ν γ) (name : ν) : List (Option γ) := (d.get name).getD []

/-- The two dicts have the same names with the same sets. -/
def Same (d e : Resolved ν γ) : Prop :=
  ∀ name, ((d.get name).isSome = true ↔ (e.get name).isSome = true) ∧
    ∀ o, o ∈ valueOf d name ↔ o ∈ valueOf e name

omit [DecidableEq γ] in
theorem valueOf_of_get {d : Resolved ν γ} {name : ν} {s : List (Option γ)} (h : d.get name = some s) :
    valueOf d name = s := by
  rw [valueOf, h, Option.getD_some]

theorem sameSet_iff {a b : List (Option γ)} : sameSet a b = true ↔ ∀ o, o ∈ a ↔ o ∈ b := by
  simp only [sameSet, Bool.and_eq_true, List.all_eq_true, decide_eq_true_eq]
  constructor
  · rintro ⟨hab, hba⟩ o
    exact ⟨hab o, hba o⟩
  · intro h
    exact ⟨fun o => (h o).mp, fun o => (h o).mpr⟩

theorem sameDict_iff {d e : Resolved ν γ} : sameDict d e = true ↔ Same d e := by
  simp only [sameDict, Bool.and_eq_true, decide_eq_true_eq, List.all_eq_true]
  constructor
  · rintro ⟨hsize, hall⟩
    have hvalue : ∀ name s, d.get name = some s → ∃ t, e.get name = some t ∧ ∀ o, o ∈ s ↔ o ∈ t := by
      intro name s hs
      have := hall _ (OrderedDict.get_eq_some_iff.mp hs)
      cases ht : e.get name with
      | none => simp [ht] at this
      | some t => exact ⟨t, rfl, sameSet_iff.mp (by simpa [ht] using this)⟩
    -- as many names, all of `d` in `e`: none of `e` is left over
    have hsub : d.keys ⊆ e.keys := by
      intro name hname
      obtain ⟨s, hs⟩ := Option.isSome_iff_exists.mp (OrderedDict.get_isSome_iff.mpr hname)
      obtain ⟨t, ht, -⟩ := hvalue name s hs
      exact OrderedDict.get_isSome_iff.mp (by rw [ht]; rfl)
    have hlength : e.keys.length ≤ d.keys.length := by
      rw [← OrderedDict.size_eq_length_keys, ← OrderedDict.size_eq_length_keys, hsize]
    have hperm : d.keys.Perm e.keys := (List.subperm_of_subset d.nodup hsub).perm_of_length_le hlength
    intro name
    have hsome : (d.get name).isSome = true ↔ (e.get name).isSome = true := by
      rw [OrderedDict.get_isSome_iff, OrderedDict.get_isSome_iff, hperm.mem_iff]
    refine ⟨hsome, ?_⟩
    cases hd : d.get name with
    | none =>
      have he : e.get name = none := by
        rw [← Option.not_isSome_iff_eq_none, ← hsome, hd]
        simp
      simp [valueOf, hd, he]
    | some s =>
      obtain ⟨t, ht, hst⟩ := hvalue name s hd
      rw [valueOf_of_get hd, valueOf_of_get ht]
      exact hst
  · intro h
    have hkeys : d.keys.Perm e.keys := by
      refine (List.perm_ext_iff_of_nodup d.nodup e.nodup).mpr ?_
      intro name
      have := (h name).1
      rwa [OrderedDict.get_isSome_iff, OrderedDict.get_isSome_iff] at this
    refine ⟨by rw [OrderedDict.size_eq_length_keys, OrderedDict.size_eq_length_keys, hkeys.length_eq], ?_⟩
    rintro ⟨name, s⟩ hs
    have hd : d.get name = some s := OrderedDict.get_eq_some_iff.mpr hs
    obtain ⟨hsome, hvalue⟩ := h name
    obtain ⟨t, ht⟩ := Option.isSome_iff_exists.mp (hsome.mp (by rw [hd]; rfl))
    rw [valueOf_of_get hd, valueOf_of_get ht] at hvalue
    simp only [ht, Option.map_some, Option.getD_some]
    exact sameSet_iff.mpr hvalue

omit [DecidableEq γ] in
theorem get_seed (shared : OrderedDict ν γ) (name : ν) :
    (seed shared).get name = (shared.get name).map (fun c => [some c]) := by
  have hmem : ∀ s, (seed shared).get name = some s ↔ ∃ c, shared.get name = some c ∧ [some c] = s := by
    intro s
    rw [OrderedDict.get_eq_some_iff]
    simp only [OrderedDict.get_eq_some_iff, seed, List.mem_map, Prod.mk.injEq, Prod.exists]
    constructor
    · rintro ⟨_, c, hc, rfl, rfl⟩
      exact ⟨c, hc, rfl⟩
    · rintro ⟨c, hc, rfl⟩
      exact ⟨name, c, hc, rfl, rfl⟩
  refine Option.ext fun s => ?_
  rw [hmem, Option.map_eq_some_iff]

theorem addBases_self (resolved d : Resolved ν γ) (e : Definition ν) :
    (addBases resolved d e).get e.1 = some (update (valueOf d e.1) (inherited resolved e.2)) :=
  OrderedDict.get_set_self

theorem addBases_of_ne (resolved d : Resolved ν γ) {e : Definition ν} {name : ν} (h : name ≠ e.1) :
    (addBases resolved d e).get name = d.get name :=
  OrderedDict.get_set_of_ne h

/-- What adding the definitions of a round does to a dict. -/
theorem foldl_addBases (resolved d : Resolved ν γ) (definitions : List (Definition ν)) (name : ν) :
    let d' := definitions.foldl (addBases resolved) d
    ((d'.get name).isSome = true ↔ (d.get name).isSome = true ∨ ∃ bases, (name, bases) ∈ definitions) ∧
    (∀ o, o ∈ valueOf d' name ↔ o ∈ valueOf d name ∨
      ∃ bases, (name, bases) ∈ definitions ∧ ∃ t ∈ inherited resolved bases, o ∈ t) ∧
    ((valueOf d name).Nodup → (valueOf d' name).Nodup) := by
  induction definitions generalizing d with
  | nil => simp
  | cons e definitions ih =>
    obtain ⟨hsome, hvalue, hnodup⟩ := ih (addBases resolved d e)
    rw [List.foldl_cons]
    by_cases hname : name = e.1
    · subst hname
      have hget := addBases_self resolved d e
      rw [valueOf_of_get hget] at hvalue hnodup
      refine ⟨?_, ?_, ?_⟩
      · refine hsome.trans (iff_of_true (.inl (by rw [hget]; rfl)) (.inr ⟨e.2, by simp⟩))
      · intro o
        rw [hvalue, mem_update]
        simp only [List.mem_cons]
        constructor
        · rintro ((h | h) | ⟨bases, hb, h⟩)
          · exact .inl h
          · exact .inr ⟨e.2, .inl rfl, h⟩
          · exact .inr ⟨bases, .inr hb, h⟩
        · rintro (h | ⟨bases, hb | hb, h⟩)
          · exact .inl (.inl h)
          · obtain rfl : bases = e.2 := congrArg Prod.snd hb
            exact .inl (.inr h)
          · exact .inr ⟨bases, hb, h⟩
      · intro h
        exact hnodup (nodup_update h _)
    · have hget := addBases_of_ne resolved d hname
      have hmem : ∀ bases, (name, bases) ∈ e :: definitions ↔ (name, bases) ∈ definitions := by
        intro bases
        rw [List.mem_cons, or_iff_right]
        rintro rfl
        exact hname rfl
      simp only [valueOf, hget] at hsome hvalue hnodup
      simp only [hmem]
      exact ⟨hsome, hvalue, hnodup⟩

end Dicts

section Depth

variable {ν : Type}

/-- No path of more than `k` bases starts at a name that is defined. -/
def DepthLe (definitions : List (Definition ν)) : Nat → ν → Prop
  | 0, name => ∀ bases, (name, bases) ∉ definitions
  | k + 1, name => ∀ base, Extends definitions name base → DepthLe definitions k base

theorem depthLe_succ {definitions : List (Definition ν)} {k : Nat} {name : ν}
    (h : DepthLe definitions k name) : DepthLe definitions (k + 1) name := by
  induction k generalizing name with
  | zero =>
    rintro base ⟨bases, hb, -⟩
    exact absurd hb (h bases)
  | succ k ih =>
    intro base hbase
    exact ih (h base hbase)

/-- A name that is deeper than `k` starts a path of `k + 1` names that are all defined. -/
theorem exists_path {definitions : List (Definition ν)} {k : Nat} {name : ν}
    (h : ¬ DepthLe definitions k name) :
    ∃ path : List ν, path.length = k ∧ (name :: path).IsChain (Extends definitions) ∧
      ∀ n ∈ name :: path, n ∈ definitions.map Prod.fst := by
  induction k generalizing name with
  | zero =>
    simp only [DepthLe, not_forall, not_not] at h
    obtain ⟨bases, hb⟩ := h
    refine ⟨[], rfl, .singleton name, ?_⟩
    intro n hn
    obtain rfl := List.mem_singleton.mp hn
    exact List.mem_map_of_mem hb
  | succ k ih =>
    simp only [DepthLe, not_forall] at h
    obtain ⟨base, hbase, hdeep⟩ := h
    obtain ⟨path, hlength, hchain, hdefined⟩ := ih hdeep
    refine ⟨base :: path, by rw [List.length_cons, hlength], .cons_cons hbase hchain, ?_⟩
    obtain ⟨bases, hb, -⟩ := hbase
    exact List.forall_mem_cons.mpr ⟨List.mem_map_of_mem hb, hdefined⟩

/-- Without cycles a path has no name twice, so it is no longer than the list of definitions. -/
theorem depthLe_length {definitions : List (Definition ν)}
    (hacyclic : ∀ name, ¬ TransGen (Extends definitions) name name) (name : ν) :
    DepthLe definitions definitions.length name := by
  by_contra h
  obtain ⟨path, hlength, hchain, hdefined⟩ := exists_path h
  have hpairwise : (name :: path).Pairwise (TransGen (Extends definitions)) :=
    List.isChain_iff_pairwise.mp (hchain.imp (fun _ _ hab => .single hab))
  have hnodup : (name :: path).Nodup := by
    refine hpairwise.imp ?_
    rintro a b hab rfl
    exact hacyclic a hab
  have hle := (List.subperm_of_subset hnodup hdefined).length_le
  rw [List.length_cons, List.length_map] at hle
  omega

end Depth

section Rounds

variable {ν γ : Type} [DecidableEq ν] [DecidableEq γ]

/-- What a round inherits from a base: `resolved.get(base, {None})`. -/
def lookup (d : Resolved ν γ) (name : ν) : List (Option γ) := (d.get name).getD [none]

variable {shared : OrderedDict ν γ} {definitions : List (Definition ν)}

/-- The table is right about the names with no longer path than `k`. -/
def Exact (shared : OrderedDict ν γ) (definitions : List (Definition ν)) (k : Nat) (d : Resolved ν γ) :
    Prop :=
  ∀ name, DepthLe definitions k name → ∀ o, o ∈ lookup d name ↔ End shared definitions name o

/-- The table has the shared classes and every class that is defined. -/
def Complete (shared : OrderedDict ν γ) (definitions : List (Definition ν)) (d : Resolved ν γ) : Prop :=
  ∀ name, (d.get name).isSome = true ↔
    (shared.get name).isSome = true ∨ ∃ bases, (name, bases) ∈ definitions

/-- What holds after `k` rounds. -/
structure AfterRounds (shared : OrderedDict ν γ) (definitions : List (Definition ν)) (k : Nat)
    (d : Resolved ν γ) : Prop where
  exact_to : Exact shared definitions k d
  complete : 0 < k ∨ definitions = [] → Complete shared definitions d
  nodup : ∀ name, (valueOf d name).Nodup

omit [DecidableEq γ] in
theorem lookup_of_isSome {d : Resolved ν γ} {name : ν} (h : (d.get name).isSome = true) :
    lookup d name = valueOf d name := by
  obtain ⟨s, hs⟩ := Option.isSome_iff_exists.mp h
  rw [lookup, valueOf, hs]
  rfl

omit [DecidableEq γ] in
theorem lookup_of_not_isSome {d : Resolved ν γ} {name : ν} (h : ¬ (d.get name).isSome = true) :
    lookup d name = [none] := by
  rw [lookup, Option.not_isSome_iff_eq_none.mp h, Option.getD_none]

omit [DecidableEq γ] in
theorem mem_lookup_of_same {d e : Resolved ν γ} (h : Same d e) (name : ν) (o : Option γ) :
    o ∈ lookup d name ↔ o ∈ lookup e name := by
  obtain ⟨hsome, hvalue⟩ := h name
  by_cases hd : (d.get name).isSome = true
  · rw [lookup_of_isSome hd, lookup_of_isSome (hsome.mp hd), hvalue]
  · rw [lookup_of_not_isSome hd, lookup_of_not_isSome (fun he => hd (hsome.mpr he))]

omit [DecidableEq γ] in
theorem mem_inherited {resolved : Resolved ν γ} {bases : List ν} {o : Option γ} :
    (∃ t ∈ inherited resolved bases, o ∈ t) ↔
      (bases = [] ∧ o = none) ∨ ∃ base ∈ bases, o ∈ lookup resolved base := by
  rw [inherited]
  split
  · rename_i h
    simp [h]
  · rename_i h
    simp [h, lookup]

omit [DecidableEq γ] in
theorem mem_valueOf_seed {name : ν} {o : Option γ} :
    o ∈ valueOf (seed shared) name ↔ ∃ c, shared.get name = some c ∧ o = some c := by
  rw [valueOf, get_seed]
  cases shared.get name with
  | none => simp
  | some c => simp

omit [DecidableEq γ] in
/-- The ends of a name that is shared or defined, by its bases. -/
theorem end_iff {name : ν} {o : Option γ}
    (h : (shared.get name).isSome = true ∨ ∃ bases, (name, bases) ∈ definitions) :
    End shared definitions name o ↔ (∃ c, shared.get name = some c ∧ o = some c) ∨
      ∃ bases, (name, bases) ∈ definitions ∧
        ((bases = [] ∧ o = none) ∨ ∃ base ∈ bases, End shared definitions base o) := by
  constructor
  · intro hend
    cases hend with
    | shared hc => exact .inl ⟨_, hc, rfl⟩
    | unknown hnone hnot =>
      rcases h with h | ⟨bases, hb⟩
      · rw [hnone] at h
        cases h
      · exact absurd hb (hnot bases)
    | noBases hb => exact .inr ⟨[], hb, .inl ⟨rfl, rfl⟩⟩
    | base hbase hend =>
      obtain ⟨bases, hb, hmem⟩ := hbase
      exact .inr ⟨bases, hb, .inr ⟨_, hmem, hend⟩⟩
  · rintro (⟨c, hc, rfl⟩ | ⟨bases, hb, ⟨rfl, rfl⟩ | ⟨base, hmem, hend⟩⟩)
    · exact .shared hc
    · exact .noBases hb
    · exact .base ⟨bases, hb, hmem⟩ hend

omit [DecidableEq γ] in
theorem end_unknown_iff {name : ν} {o : Option γ} (hnone : ¬ (shared.get name).isSome = true)
    (hnot : ∀ bases, (name, bases) ∉ definitions) : End shared definitions name o ↔ o = none := by
  rw [Option.not_isSome_iff_eq_none] at hnone
  constructor
  · intro hend
    cases hend with
    | shared hc =>
      rw [hnone] at hc
      cases hc
    | unknown _ _ => rfl
    | noBases hb => exact absurd hb (hnot _)
    | base hbase _ =>
      obtain ⟨bases, hb, -⟩ := hbase
      exact absurd hb (hnot bases)
  · rintro rfl
    exact .unknown hnone hnot

omit [DecidableEq γ] in
theorem complete_seed (h : definitions = []) : Complete shared definitions (seed shared) := by
  intro name
  rw [get_seed, Option.isSome_map, h]
  simp

omit [DecidableEq γ] in
theorem nodup_seed (name : ν) : (valueOf (seed shared) name).Nodup := by
  rw [valueOf, get_seed]
  cases shared.get name with
  | none => exact .nil
  | some c => exact List.nodup_singleton _

omit [DecidableEq γ] in
theorem afterRounds_seed : AfterRounds shared definitions 0 (seed shared) where
  exact_to := by
    intro name hdepth o
    by_cases hshared : (shared.get name).isSome = true
    · have hseed : ((seed shared).get name).isSome = true := by rwa [get_seed, Option.isSome_map]
      rw [lookup_of_isSome hseed, mem_valueOf_seed, end_iff (.inl hshared)]
      refine (or_iff_left ?_).symm
      rintro ⟨bases, hb, -⟩
      exact hdepth bases hb
    · have hseed : ¬ ((seed shared).get name).isSome = true := by rwa [get_seed, Option.isSome_map]
      rw [lookup_of_not_isSome hseed, List.mem_singleton, end_unknown_iff hshared hdepth]
  complete := by
    rintro (hk | h)
    · exact absurd hk (Nat.lt_irrefl 0)
    · exact complete_seed h
  nodup := nodup_seed

theorem complete_following (d : Resolved ν γ) :
    Complete shared definitions (following shared definitions d) := by
  intro name
  rw [following, (foldl_addBases d (seed shared) definitions name).1, get_seed, Option.isSome_map]

/-- A round looks one base further. -/
theorem afterRounds_following {k : Nat} {d : Resolved ν γ} (h : AfterRounds shared definitions k d) :
    AfterRounds shared definitions (k + 1) (following shared definitions d) where
  exact_to := by
    intro name hdepth o
    have hcomplete : Complete shared definitions (following shared definitions d) := complete_following d
    by_cases hname : (shared.get name).isSome = true ∨ ∃ bases, (name, bases) ∈ definitions
    · rw [lookup_of_isSome ((hcomplete name).mpr hname), following,
        (foldl_addBases d (seed shared) definitions name).2.1, mem_valueOf_seed, end_iff hname]
      refine or_congr_right (exists_congr fun bases => and_congr_right fun hb => ?_)
      rw [mem_inherited]
      refine or_congr_right (exists_congr fun base => and_congr_right fun hmem => ?_)
      exact h.exact_to base (hdepth base ⟨bases, hb, hmem⟩) o
    · rw [lookup_of_not_isSome (fun hsome => hname ((hcomplete name).mp hsome)), List.mem_singleton]
      rw [not_or, not_exists] at hname
      rw [end_unknown_iff hname.1 hname.2]
  complete := fun _ => complete_following d
  nodup := fun name => (foldl_addBases d (seed shared) definitions name).2.2 (nodup_seed name)

omit [DecidableEq γ] in
theorem afterRounds_of_same {k : Nat} {d e : Resolved ν γ} (h : AfterRounds shared definitions (k + 1) e)
    (hsame : Same e d) (hnodup : ∀ name, (valueOf d name).Nodup) :
    AfterRounds shared definitions (k + 1) d where
  exact_to := by
    intro name hdepth o
    rw [← mem_lookup_of_same hsame name o]
    exact h.exact_to name hdepth o
  complete := by
    intro hk name
    rw [← (hsame name).1]
    exact h.complete hk name
  nodup := hnodup

theorem afterRounds_round {k : Nat} {d : Resolved ν γ} (h : AfterRounds shared definitions k d) :
    AfterRounds shared definitions (k + 1) (round shared definitions d).1 := by
  rw [round]
  split
  · rename_i hsame
    exact afterRounds_of_same (afterRounds_following h) (sameDict_iff.mp hsame) h.nodup
  · exact afterRounds_following h

/-- A table that is right about every name is what the next round computes. -/
theorem round_stops (hacyclic : ∀ name, ¬ TransGen (Extends definitions) name name) {d : Resolved ν γ}
    (h : AfterRounds shared definitions definitions.length d) : (round shared definitions d).2 = false := by
  have hcomplete : Complete shared definitions d := by
    refine h.complete ?_
    cases definitions with
    | nil => exact .inr rfl
    | cons e definitions => exact .inl (by simp)
  have hsame : Same (following shared definitions d) d := by
    intro name
    have hsome : ((following shared definitions d).get name).isSome = true ↔ (d.get name).isSome = true := by
      rw [complete_following d name, hcomplete name]
    refine ⟨hsome, ?_⟩
    intro o
    by_cases hd : (d.get name).isSome = true
    · rw [← lookup_of_isSome hd, ← lookup_of_isSome (hsome.mpr hd)]
      have hdepth := depthLe_length hacyclic name
      rw [(afterRounds_following h).exact_to name (depthLe_succ hdepth) o, h.exact_to name hdepth o]
    · have hf : ¬ ((following shared definitions d).get name).isSome = true := fun hf => hd (hsome.mp hf)
      rw [Option.not_isSome_iff_eq_none] at hd hf
      rw [valueOf, valueOf, hd, hf]
  rw [round, if_pos (sameDict_iff.mpr hsame)]

/-- The rounds end by themselves, in a table that is right about every name. -/
theorem resolve_spec (hacyclic : ∀ name, ¬ TransGen (Extends definitions) name name) :
    (resolve shared definitions).2 = true ∧
      AfterRounds shared definitions definitions.length (resolve shared definitions).1 := by
  obtain ⟨j, d, hj, hd, hstop, heq⟩ := @rounds_spec _ (round shared definitions)
    (AfterRounds shared definitions) definitions.length (fun k d hd => afterRounds_round hd)
    (fun d hd => round_stops hacyclic hd) (definitions.length + 1) 0 (seed shared) afterRounds_seed
    (Nat.zero_le _) (by omega)
  have hfixed : (round shared definitions d).1 = d := by
    rw [round] at hstop ⊢
    split at hstop
    · rename_i hsame
      rw [if_pos hsame]
    · cases hstop
  -- a table that a round does not change is right to any depth
  have hall : ∀ i, AfterRounds shared definitions (j + i) d := by
    intro i
    induction i with
    | zero => exact hd
    | succ i ih =>
      have hnext := afterRounds_round ih
      rwa [hfixed] at hnext
  rw [resolve, heq, hfixed]
  have hlast := hall (definitions.length - j)
  rw [Nat.add_sub_cancel' hj] at hlast
  exact ⟨rfl, hlast⟩

end Rounds

section Categories

variable {ν γ : Type} [DecidableEq ν] [DecidableEq γ] {shared : OrderedDict ν γ}
  {definitions : List (Definition ν)}

omit [DecidableEq γ] in
theorem exists_end {k : Nat} {name : ν} (h : DepthLe definitions k name) :
    ∃ o, End shared definitions name o := by
  induction k generalizing name with
  | zero =>
    cases hs : shared.get name with
    | some c => exact ⟨some c, .shared hs⟩
    | none => exact ⟨none, .unknown hs h⟩
  | succ k ih =>
    by_cases hdefined : ∃ bases, (name, bases) ∈ definitions
    · obtain ⟨bases, hb⟩ := hdefined
      cases bases with
      | nil => exact ⟨none, .noBases hb⟩
      | cons base bases =>
        have hbase : Extends definitions name base := ⟨_, hb, by simp⟩
        obtain ⟨o, ho⟩ := ih (h base hbase)
        exact ⟨o, .base hbase ho⟩
    · rw [not_exists] at hdefined
      cases hs : shared.get name with
      | some c => exact ⟨some c, .shared hs⟩
      | none => exact ⟨none, .unknown hs hdefined⟩

omit [DecidableEq γ] in
theorem single_eq_some_iff {s : List (Option γ)} {c : γ} (hnodup : s.Nodup) (hne : s ≠ []) :
    single s = some c ↔ ∀ o ∈ s, o = some c := by
  cases s with
  | nil => exact absurd rfl hne
  | cons o s =>
    cases s with
    | nil => cases o <;> simp [single]
    | cons o' s =>
      rw [single]
      · refine iff_of_false (by simp) ?_
        intro h
        rw [h o (by simp), h o' (by simp)] at hnodup
        simp at hnodup
      · simp

theorem mem_resolve_iff (hacyclic : ∀ name, ¬ TransGen (Extends definitions) name name) {name : ν}
    {s : List (Option γ)} (h : (resolve shared definitions).1.get name = some s) :
    s.Nodup ∧ s ≠ [] ∧ ∀ o, o ∈ s ↔ End shared definitions name o := by
  obtain ⟨-, hafter⟩ := @resolve_spec _ _ _ _ shared _ hacyclic
  have hdepth := depthLe_length hacyclic name
  have hmem : ∀ o, o ∈ s ↔ End shared definitions name o := by
    intro o
    rw [← hafter.exact_to name hdepth o, lookup, h, Option.getD_some]
  have hnodup := hafter.nodup name
  rw [valueOf_of_get h] at hnodup
  refine ⟨hnodup, ?_, hmem⟩
  rintro rfl
  obtain ⟨o, ho⟩ := @exists_end _ _ _ shared _ _ _ hdepth
  exact absurd ((hmem o).mpr ho) List.not_mem_nil

omit [DecidableEq γ] in
theorem get_categories (d : Resolved ν γ) (name : ν) (c : γ) :
    (⟨d.entries.filterMap (fun e => (single e.2).map (fun c => (e.1, c))), nodup_single d⟩ :
      OrderedDict ν γ).get name = some c ↔ ∃ s, d.get name = some s ∧ single s = some c := by
  rw [OrderedDict.get_eq_some_iff]
  simp only [OrderedDict.get_eq_some_iff, List.mem_filterMap, Option.map_eq_some_iff, Prod.mk.injEq,
    Prod.exists]
  constructor
  · rintro ⟨name', s, hs, c', hc, rfl, rfl⟩
    exact ⟨s, hs, hc⟩
  · rintro ⟨s, hs, hc⟩
    exact ⟨name, s, hs, c, hc, rfl, rfl⟩

/-- The dict that is returned, by the ends of the paths. -/
theorem errorClassCategories_spec (hacyclic : ∀ name, ¬ TransGen (Extends definitions) name name) :
    ∃ categories, errorClassCategories shared definitions = some categories ∧
      ∀ name c, categories.get name = some c ↔ ∀ o, End shared definitions name o → o = some c := by
  have hne : ¬ (resolve shared definitions).1.entries.any (fun e => e.2.isEmpty) = true := by
    rw [List.any_eq_true]
    rintro ⟨⟨name, s⟩, hs, hempty⟩
    exact (mem_resolve_iff hacyclic (OrderedDict.get_eq_some_iff.mpr hs)).2.1 (List.isEmpty_iff.mp hempty)
  refine ⟨_, if_neg hne, ?_⟩
  intro name c
  rw [get_categories]
  constructor
  · rintro ⟨s, hs, hsingle⟩ o ho
    obtain ⟨hnodup, hne, hmem⟩ := mem_resolve_iff hacyclic hs
    exact (single_eq_some_iff hnodup hne).mp hsingle o ((hmem o).mpr ho)
  · intro hall
    obtain ⟨-, hafter⟩ := @resolve_spec _ _ _ _ shared _ hacyclic
    have hdepth := depthLe_length hacyclic name
    cases hget : (resolve shared definitions).1.get name with
    | none =>
      -- a name that the table lacks ends outside of the shared classes
      have hend := (hafter.exact_to name hdepth none).mp (by rw [lookup, hget]; simp)
      cases hall none hend
    | some s =>
      obtain ⟨hnodup, hne, hmem⟩ := mem_resolve_iff hacyclic hget
      exact ⟨s, rfl, (single_eq_some_iff hnodup hne).mpr (fun o ho => hall o ((hmem o).mp ho))⟩

omit [DecidableEq ν] [DecidableEq γ] in
theorem extends_perm {definitions' : List (Definition ν)} (h : definitions'.Perm definitions) :
    Extends definitions' = Extends definitions := by
  funext name base
  simp only [Extends, h.mem_iff]

omit [DecidableEq γ] in
theorem end_perm {definitions' : List (Definition ν)} (h : definitions'.Perm definitions) {name : ν}
    {o : Option γ} (hend : End shared definitions name o) : End shared definitions' name o := by
  induction hend with
  | shared hc => exact .shared hc
  | unknown hnone hnot => exact .unknown hnone (fun bases hb => hnot bases (h.mem_iff.mp hb))
  | noBases hb => exact .noBases (h.mem_iff.mpr hb)
  | base hbase _ ih => exact .base (by rwa [extends_perm h]) ih

/-- Without cyclic inheritance the rounds reach a table that the next one leaves alone; a name is in the
result, with a category, exactly when every path through its bases ends in a shared class of that
category; and the order of the definitions does not matter. -/
theorem errorClassCategories_correct (shared : OrderedDict ν γ) (definitions : List (Definition ν))
    (hacyclic : ∀ name, ¬ TransGen (Extends definitions) name name) :
    (resolve shared definitions).2 = true ∧
    ∃ categories, errorClassCategories shared definitions = some categories ∧
      (∀ name c, categories.get name = some c ↔ ∀ o, End shared definitions name o → o = some c) ∧
      ∀ definitions' : List (Definition ν), definitions'.Perm definitions →
        ∃ categories', errorClassCategories shared definitions' = some categories' ∧
          ∀ name, categories'.get name = categories.get name := by
  obtain ⟨categories, heq, hget⟩ := @errorClassCategories_spec _ _ _ _ shared _ hacyclic
  refine ⟨(resolve_spec hacyclic).1, categories, heq, hget, ?_⟩
  intro definitions' hperm
  obtain ⟨categories', heq', hget'⟩ := @errorClassCategories_spec _ _ _ _ shared definitions'
    (by rwa [extends_perm hperm])
  refine ⟨categories', heq', ?_⟩
  intro name
  refine Option.ext fun c => ?_
  rw [hget, hget']
  exact ⟨fun h o ho => h o (end_perm hperm ho), fun h o ho => h o (end_perm hperm.symm ho)⟩

/-- A shared class, a class with it as its base, and one that has an unknown base too. -/
def oneShared : OrderedDict Nat Nat := ⟨[(0, 7)], by simp⟩

def twoClasses : List (Definition Nat) := [(3, [2, 1]), (2, [0])]

example : (errorClassCategories oneShared twoClasses).map (·.entries) = some [(0, 7), (2, 7)] := by decide

theorem errorClassCategories_correct_twoClasses :
    ∃ categories, errorClassCategories oneShared twoClasses = some categories ∧
      ∀ name c, categories.get name = some c ↔ ∀ o, End oneShared twoClasses name o → o = some c := by
  have hlt : ∀ a b, TransGen (Extends twoClasses) a b → b < a := by
    intro a b hab
    have hstep : ∀ a b, Extends twoClasses a b → b < a := by
      rintro a b ⟨bases, hb, hmem⟩
      simp only [twoClasses, List.mem_cons, Prod.mk.injEq, List.not_mem_nil, or_false] at hb
      rcases hb with ⟨rfl, rfl⟩ | ⟨rfl, rfl⟩
      · simp only [List.mem_cons, List.not_mem_nil, or_false] at hmem
        omega
      · simp only [List.mem_singleton] at hmem
        omega
    induction hab with
    | single h => exact hstep _ _ h
    | tail _ h ih => exact Nat.lt_trans (hstep _ _ h) ih
  obtain ⟨-, categories, heq, hget, -⟩ :=
    errorClassCategories_correct oneShared twoClasses (fun a haa => Nat.lt_irrefl a (hlt a a haa))
  exact ⟨categories, heq, hget⟩

end Categories

end Guards
end Testing
end TrShared
