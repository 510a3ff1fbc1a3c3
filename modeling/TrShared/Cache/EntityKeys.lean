import Mathlib.Data.List.Dedup
import TrShared.Python.Decimal
import TrShared.Python.Replace
import TrShared.Redis.Glob

/-!
# TrShared.Cache.EntityKeys

The keys of `cache/helpers.py` and their invalidation. A key is its parts joined by `":"`, a part may
contain `":"`, and an empty tenant is left out; `invalidate_entity_cache` deletes one key for an
identifier, or, when the identifier is `None`, `0` or `""`, what matches the glob pattern made of the
entity and the tenant. The client answers every command; what `invalidate_pattern` does when one fails
(its `except` branch) is left out.

* `mem_invalidatePattern`: a full iteration of `SCAN` leaves what does not match.
* `invalidateExact_iff`: when an invalidation deletes what it is about and nothing else.
* `apart_of_plain`: it does for texts without `":"` and without special characters.
-/

namespace TrShared
namespace Cache
namespace Helpers

open Python Redis

section Keys

inductive Identifier where
  | int (n : Int)
  | str (s : Text)
deriving DecidableEq

/-- `if identifier`. -/
def Identifier.truthy : Identifier → Bool
  | .int n => decide (n ≠ 0)
  | .str s => decide (s ≠ [])

/-- `str(identifier)`; `none` is the `ValueError` of an `int` with too many digits. -/
def Identifier.text? : Identifier → Option Text
  | .int n =>
    if (Python.str n.natAbs).length ≤ maxStrDigits then
      some ((if n < 0 then text "-" else []) ++ Python.str n.natAbs)
    else none
  | .str s => some s

/-- `":".join([prefix, *parts])`. -/
def buildCacheKey (parts : List Text) (keyPrefix : Text) : Text :=
  keyPrefix ++ parts.flatMap (colon :: ·)

/-- The parts of a key or a pattern before the last one. -/
def scopeParts (entity : Text) (tenant : Option Text) : List Text :=
  match tenant with
  | some tenant => if tenant ≠ [] then [entity, tenant] else [entity]
  | none => [entity]

/-- `build_entity_cache_key`. -/
def buildEntityCacheKey (keyPrefix entity : Text) (identifier : Identifier) (tenant : Option Text) :
    Option Text :=
  identifier.text?.map (fun i => buildCacheKey (scopeParts entity tenant ++ [i]) keyPrefix)

/-- The pattern of `invalidate_entity_cache`. -/
def entityPattern (keyPrefix entity : Text) (tenant : Option Text) : Text :=
  buildCacheKey (scopeParts entity tenant ++ [text "*"]) keyPrefix

end Keys

section Invalidate

/-- `cache.delete(*keys)` of the keys that are there: what is left, and how many were deleted. -/
def delete (present keys : List Text) : List Text × Nat :=
  (present.filter (fun k => decide (k ∉ keys)), present.countP (fun k => decide (k ∈ keys)))

/-- The loop of `invalidate_pattern`, over what `scan` answers: the next cursor and some keys. -/
def invalidatePattern (present : List Text) : List (Nat × List Text) → List Text × Nat
  | [] => (present, 0)
  | (cursor, keys) :: answers =>
    let deleted := if keys ≠ [] then delete present keys else (present, 0)
    if cursor = 0 then deleted
    else
      let rest := invalidatePattern deleted.1 answers
      (rest.1, deleted.2 + rest.2)

/-- `invalidate_entity_cache`, with the answers of `scan` to the pattern. -/
def invalidateEntityCache (keyPrefix : Text) (present : List Text) (answers : List (Nat × List Text))
    (entity : Text) (identifier : Option Identifier) (tenant : Option Text) : Option (List Text × Nat) :=
  match identifier with
  | some i =>
    if i.truthy then (buildEntityCacheKey keyPrefix entity i tenant).map (fun key => delete present [key])
    else some (invalidatePattern present answers)
  | none => some (invalidatePattern present answers)

/-- The keys that are there when each answer is given, and at the end. -/
def moments (present : List Text) : List (Nat × List Text) → List (List Text)
  | [] => [present]
  | answer :: answers => present :: moments (delete present answer.2).1 answers

/-- A full iteration of `SCAN`, from the cursor 0 until the cursor is 0 again: its answers have keys
that match and are there, and every key that matches and is there all the time. -/
structure FullIteration (pattern : Text) (present : List Text) (answers : List (Nat × List Text)) : Prop where
  ends : ∃ before keys, answers = before ++ [(0, keys)] ∧ ∀ a ∈ before, a.1 ≠ 0
  sound : ∀ a ∈ answers, ∀ k ∈ a.2, k ∈ present ∧ glob pattern k = true
  complete : ∀ k, glob pattern k = true → (∀ s ∈ moments present answers, k ∈ s) → ∃ a ∈ answers, k ∈ a.2

end Invalidate

section Scan

variable {pattern k : Text} {present : List Text} {answers : List (Nat × List Text)}

theorem mem_delete {keys : List Text} : k ∈ (delete present keys).1 ↔ k ∈ present ∧ k ∉ keys := by
  simp [delete]

theorem delete_or_not (present keys : List Text) :
    (if keys ≠ [] then delete present keys else (present, 0)) = delete present keys := by
  split
  · rfl
  · rename_i h
    rw [not_not] at h
    subst h
    simp [delete]

theorem mem_invalidatePattern_answers {before : List (Nat × List Text)} {keys : List Text}
    (hbefore : ∀ a ∈ before, a.1 ≠ 0) :
    k ∈ (invalidatePattern present (before ++ [(0, keys)])).1 ↔
      k ∈ present ∧ ∀ a ∈ before ++ [(0, keys)], k ∉ a.2 := by
  induction before generalizing present with
  | nil =>
    rw [List.nil_append, invalidatePattern, delete_or_not]
    simp [mem_delete]
  | cons a before ih =>
    obtain ⟨ha, hbefore⟩ := List.forall_mem_cons.mp hbefore
    rw [List.cons_append, invalidatePattern, delete_or_not]
    simp only [if_neg ha, ih hbefore, mem_delete, List.forall_mem_cons, and_assoc]

/-- A key that is there, and in none of the answers, is there all the time. -/
theorem mem_moments (hk : k ∈ present) (hnot : ∀ a ∈ answers, k ∉ a.2) :
    ∀ s ∈ moments present answers, k ∈ s := by
  induction answers generalizing present with
  | nil =>
    intro s hs
    obtain rfl := List.mem_singleton.mp hs
    exact hk
  | cons a answers ih =>
    obtain ⟨ha, hanswers⟩ := List.forall_mem_cons.mp hnot
    exact List.forall_mem_cons.mpr ⟨hk, ih (mem_delete.mpr ⟨hk, ha⟩) hanswers⟩

/-- What a full iteration leaves. -/
theorem mem_invalidatePattern (h : FullIteration pattern present answers) :
    k ∈ (invalidatePattern present answers).1 ↔ k ∈ present ∧ glob pattern k = false := by
  obtain ⟨⟨before, keys, rfl, hbefore⟩, hsound, hcomplete⟩ := h
  rw [mem_invalidatePattern_answers hbefore]
  refine and_congr_right fun hk => ?_
  constructor
  · intro hnot
    by_contra hglob
    obtain ⟨a, ha, hmem⟩ := hcomplete k (by simpa using hglob) (mem_moments hk hnot)
    exact hnot a ha hmem
  · intro hglob a ha hmem
    have hmatch := (hsound a ha k hmem).2
    rw [hglob] at hmatch
    cases hmatch

/-- A server that answers with all of them at once. -/
theorem exists_fullIteration (pattern : Text) (present : List Text) :
    ∃ answers, FullIteration pattern present answers := by
  refine ⟨[(0, present.filter (fun k => glob pattern k))], ⟨[], _, rfl, by simp⟩, ?_, ?_⟩
  · intro a ha k hk
    obtain rfl := List.mem_singleton.mp ha
    simpa using hk
  · intro k hglob hmoments
    refine ⟨(0, present.filter (fun k => glob pattern k)), by simp, ?_⟩
    have hk : k ∈ present := hmoments present (by simp [moments])
    simp [hk, hglob]

end Scan

section Exact

structure Triple where
  entity : Text
  identifier : Identifier
  tenant : Option Text
deriving DecidableEq

def Triple.key (keyPrefix : Text) (x : Triple) : Option Text :=
  buildEntityCacheKey keyPrefix x.entity x.identifier x.tenant

/-- The keys that `build_entity_cache_key` wrote. -/
def keysOf (keyPrefix : Text) (written : List Triple) : List Text :=
  (written.filterMap (Triple.key keyPrefix)).dedup

inductive Request where
  /-- With an identifier that is not `None`. -/
  | one (x : Triple)
  /-- With `None` and a tenant. -/
  | tenantWide (entity tenant : Text)

namespace Request

def pattern (keyPrefix : Text) : Request → Text
  | .one x => entityPattern keyPrefix x.entity x.tenant
  | .tenantWide entity tenant => entityPattern keyPrefix entity (some tenant)

def invalidate (keyPrefix : Text) (present : List Text) (answers : List (Nat × List Text)) :
    Request → Option (List Text × Nat)
  | .one x => invalidateEntityCache keyPrefix present answers x.entity (some x.identifier) x.tenant
  | .tenantWide entity tenant => invalidateEntityCache keyPrefix present answers entity none (some tenant)

/-- The triples that an invalidation is about. -/
def Meant : Request → Triple → Prop
  | .one x, y => y = x
  | .tenantWide entity tenant, y => y.entity = entity ∧ y.tenant = some tenant

/-- It deletes the entries of the triples that it is about, and no other entry. -/
def Exact (keyPrefix : Text) (written : List Triple) (request : Request) : Prop :=
  ∀ answers, FullIteration (request.pattern keyPrefix) (keysOf keyPrefix written) answers →
    ∃ left, request.invalidate keyPrefix (keysOf keyPrefix written) answers = some left ∧
      ∀ y ∈ written, ∀ k, y.key keyPrefix = some k → (k ∉ left.1 ↔ request.Meant y)

/-- No stored triple but the one that is meant has its key; where there is no key, the glob pattern tells the
stored keys of the triples that are meant from the others. -/
def Apart (keyPrefix : Text) (written : List Triple) : Request → Prop
  | .one x =>
    if x.identifier.truthy then
      ∃ key, x.key keyPrefix = some key ∧ ∀ y ∈ written, y.key keyPrefix = some key → y = x
    else
      ∀ y ∈ written, ∀ k, y.key keyPrefix = some k →
        (glob (entityPattern keyPrefix x.entity x.tenant) k = true ↔ y = x)
  | .tenantWide entity tenant =>
    ∀ y ∈ written, ∀ k, y.key keyPrefix = some k →
      (glob (entityPattern keyPrefix entity (some tenant)) k = true ↔
        y.entity = entity ∧ y.tenant = some tenant)

end Request

variable {keyPrefix : Text} {written : List Triple} {request : Request}

theorem mem_keysOf {k : Text} : k ∈ keysOf keyPrefix written ↔ ∃ y ∈ written, y.key keyPrefix = some k := by
  rw [keysOf, List.mem_dedup, List.mem_filterMap]

/-- An invalidation by the pattern. -/
theorem exact_scan (hscan : ∀ answers, request.invalidate keyPrefix (keysOf keyPrefix written) answers =
      some (invalidatePattern (keysOf keyPrefix written) answers)) :
    request.Exact keyPrefix written ↔
      ∀ y ∈ written, ∀ k, y.key keyPrefix = some k →
        (glob (request.pattern keyPrefix) k = true ↔ request.Meant y) := by
  have hleft : ∀ answers, FullIteration (request.pattern keyPrefix) (keysOf keyPrefix written) answers →
      ∀ y ∈ written, ∀ k, y.key keyPrefix = some k →
        (k ∉ (invalidatePattern (keysOf keyPrefix written) answers).1 ↔
          glob (request.pattern keyPrefix) k = true) := by
    intro answers hfull y hy k hk
    have hmem : k ∈ keysOf keyPrefix written := mem_keysOf.mpr ⟨y, hy, hk⟩
    rw [mem_invalidatePattern hfull, and_iff_right hmem, Bool.not_eq_false]
  constructor
  · intro h y hy k hk
    obtain ⟨answers, hfull⟩ := exists_fullIteration (request.pattern keyPrefix) (keysOf keyPrefix written)
    obtain ⟨left, hinvalidate, hexact⟩ := h answers hfull
    rw [hscan] at hinvalidate
    obtain rfl := Option.some.inj hinvalidate
    rw [← hleft answers hfull y hy k hk]
    exact hexact y hy k hk
  · intro h answers hfull
    refine ⟨_, hscan answers, fun y hy k hk => ?_⟩
    rw [hleft answers hfull y hy k hk]
    exact h y hy k hk

/-- An invalidation by the key. -/
theorem exact_key {x : Triple} (hx : x.identifier.truthy = true) :
    (Request.one x).Exact keyPrefix written ↔
      ∃ key, x.key keyPrefix = some key ∧ ∀ y ∈ written, y.key keyPrefix = some key → y = x := by
  have hkey : ∀ present answers, (Request.one x).invalidate keyPrefix present answers =
      (x.key keyPrefix).map (fun key => delete present [key]) :=
    fun _ _ => if_pos hx
  constructor
  · intro h
    obtain ⟨answers, hfull⟩ :=
      exists_fullIteration ((Request.one x).pattern keyPrefix) (keysOf keyPrefix written)
    obtain ⟨left, hinvalidate, hexact⟩ := h answers hfull
    rw [hkey] at hinvalidate
    obtain ⟨key, hxkey, rfl⟩ := Option.map_eq_some_iff.mp hinvalidate
    refine ⟨key, hxkey, fun y hy hykey => (hexact y hy key hykey).mp ?_⟩
    simp [mem_delete]
  · rintro ⟨key, hxkey, hother⟩ answers -
    refine ⟨_, by rw [hkey, hxkey]; rfl, fun y hy k hk => ?_⟩
    have hmem : k ∈ keysOf keyPrefix written := mem_keysOf.mpr ⟨y, hy, hk⟩
    rw [mem_delete, and_iff_right hmem, not_not, List.mem_singleton]
    constructor
    · rintro rfl
      exact hother y hy hk
    · rintro rfl
      exact Option.some.inj (hk.symm.trans hxkey)

theorem scan_of_falsy {x : Triple} (hx : ¬ x.identifier.truthy = true) (answers : List (Nat × List Text)) :
    (Request.one x).invalidate keyPrefix (keysOf keyPrefix written) answers =
      some (invalidatePattern (keysOf keyPrefix written) answers) :=
  if_neg hx

/-- An invalidation deletes what it is about and nothing else exactly when the key of the triple, or the
pattern, tells the stored triples apart. -/
theorem invalidateExact_iff (keyPrefix : Text) (written : List Triple) (request : Request) :
    request.Exact keyPrefix written ↔ request.Apart keyPrefix written := by
  cases request with
  | one x =>
    by_cases hx : x.identifier.truthy = true
    · rw [exact_key hx, Request.Apart, if_pos hx]
    · rw [exact_scan (scan_of_falsy hx), Request.Apart, if_neg hx]
      rfl
  | tenantWide entity tenant => exact exact_scan (fun _ => rfl)

/-- The invalidation of the identifier 0 deletes the entry of another identifier. -/
theorem not_invalidateExact_zero :
    ¬ (Request.one ⟨text "listings", .int 0, some (text "t1")⟩).Exact (text "dev:listing")
      [⟨text "listings", .int 7, some (text "t1")⟩] := by
  rw [exact_scan (scan_of_falsy (by decide))]
  intro h
  have hmeant : (⟨text "listings", .int 7, some (text "t1")⟩ : Triple) =
      ⟨text "listings", .int 0, some (text "t1")⟩ :=
    (h _ List.mem_cons_self (text "dev:listing:listings:t1:7") (by decide +kernel)).mp (by decide +kernel)
  exact absurd hmeant (by decide)

end Exact

section Plain

/-- Non-empty texts without a colon. -/
structure Triple.Plain (x : Triple) : Prop where
  entity : colon ∉ x.entity
  identifier : ∃ s, x.identifier = .str s ∧ s ≠ [] ∧ colon ∉ s
  tenant : ∀ t ∈ x.tenant, t ≠ [] ∧ colon ∉ t

/-- The same for the request; a pattern is without special characters. -/
def Request.Plain (keyPrefix : Text) : Request → Prop
  | .one x => x.Plain
  | .tenantWide entity tenant =>
    (colon ∉ entity ∧ tenant ≠ [] ∧ colon ∉ tenant) ∧
      ∀ c ∈ keyPrefix ++ entity ++ tenant, isSpecialChar c = false

/-- A text before the next colon or the end. -/
theorem append_parts_inj {p q x y : Text} (hp : colon ∉ p) (hq : colon ∉ q) (hx : ∀ c ∈ x.head?, c = colon)
    (hy : ∀ c ∈ y.head?, c = colon) (h : p ++ x = q ++ y) : p = q ∧ x = y := by
  induction p generalizing q with
  | nil =>
    cases q with
    | nil => exact ⟨rfl, h⟩
    | cons d q =>
      rw [List.nil_append] at h
      subst h
      have hd : d = colon := hx d rfl
      exact absurd (hd ▸ List.mem_cons_self) hq
  | cons c p ih =>
    cases q with
    | nil =>
      rw [List.nil_append] at h
      subst h
      have hc : c = colon := hy c rfl
      exact absurd (hc ▸ List.mem_cons_self) hp
    | cons d q =>
      rw [List.cons_append, List.cons_append, List.cons.injEq] at h
      obtain ⟨rfl, rfl⟩ := ih (fun hmem => hp (List.mem_cons_of_mem _ hmem))
        (fun hmem => hq (List.mem_cons_of_mem _ hmem)) h.2
      exact ⟨by rw [h.1], rfl⟩

theorem head_parts (ps : List Text) : ∀ c ∈ (ps.flatMap (colon :: ·)).head?, c = colon := by
  cases ps with
  | nil => simp
  | cons p ps =>
    intro c hc
    simpa using hc.symm

/-- Parts at the start of a text are the first parts of it. -/
theorem parts_rest {ps qs : List Text} {t : Text} (hp : ∀ p ∈ ps, colon ∉ p) (hqs : ∀ q ∈ qs, colon ∉ q)
    (ht : ∀ c ∈ t.head?, c = colon) (h : ps.flatMap (colon :: ·) ++ t = qs.flatMap (colon :: ·)) :
    ∃ rest, qs = ps ++ rest ∧ rest.flatMap (colon :: ·) = t := by
  induction ps generalizing qs with
  | nil => exact ⟨qs, rfl, h.symm⟩
  | cons p ps ih =>
    cases qs with
    | nil => simp at h
    | cons q qs =>
      obtain ⟨hp₀, hp⟩ := List.forall_mem_cons.mp hp
      obtain ⟨hq₀, hq⟩ := List.forall_mem_cons.mp hqs
      simp only [List.flatMap_cons, List.cons_append, List.cons.injEq, true_and, List.append_assoc] at h
      have hhead : ∀ c ∈ (ps.flatMap (colon :: ·) ++ t).head?, c = colon := by
        cases ps with
        | nil => exact ht
        | cons p ps => exact head_parts (p :: ps)
      obtain ⟨rfl, hrest⟩ := append_parts_inj hp₀ hq₀ hhead (head_parts qs) h
      obtain ⟨rest, rfl, hparts⟩ := ih hp hq hrest
      exact ⟨rest, rfl, hparts⟩

theorem parts_inj {ps qs : List Text} (hp : ∀ p ∈ ps, colon ∉ p) (hqs : ∀ q ∈ qs, colon ∉ q)
    (h : ps.flatMap (colon :: ·) = qs.flatMap (colon :: ·)) : ps = qs := by
  rw [← List.append_nil (ps.flatMap _)] at h
  obtain ⟨rest, rfl, hrest⟩ := parts_rest hp hqs (by simp) h
  cases rest with
  | nil => rw [List.append_nil]
  | cons q rest => simp at hrest

theorem parts_start {ps qs : List Text} {t : Text} (hp : ∀ p ∈ ps, colon ∉ p) (hqs : ∀ q ∈ qs, colon ∉ q)
    (h : ps.flatMap (colon :: ·) ++ colon :: t = qs.flatMap (colon :: ·)) :
    ∃ q rest, qs = ps ++ q :: rest := by
  obtain ⟨rest, rfl, hrest⟩ := parts_rest hp hqs (by simp) h
  cases rest with
  | nil => simp at hrest
  | cons q rest => exact ⟨q, rest, rfl⟩

variable {keyPrefix : Text} {written : List Triple}

/-- The parts of a key. -/
theorem Triple.Plain.parts {x : Triple} (hx : x.Plain) :
    ∃ s, x.identifier = .str s ∧ (∀ p ∈ scopeParts x.entity x.tenant ++ [s], colon ∉ p) ∧
      scopeParts x.entity x.tenant = x.entity :: x.tenant.toList ∧
      x.key keyPrefix = some (buildCacheKey (scopeParts x.entity x.tenant ++ [s]) keyPrefix) := by
  obtain ⟨entity, identifier, tenant⟩ := x
  obtain ⟨hentity, ⟨s, rfl, -, hs⟩, htenant⟩ := hx
  refine ⟨s, rfl, ?_, ?_, rfl⟩
  · cases tenant with
    | none => simp [scopeParts, hentity, hs]
    | some t =>
      obtain ⟨ht, htcolon⟩ := htenant t rfl
      simp [scopeParts, ht, hentity, hs, htcolon]
  · cases tenant with
    | none => rfl
    | some t => exact if_pos (htenant t rfl).1

theorem Triple.Plain.key_inj {x y : Triple} (hx : x.Plain) (hy : y.Plain)
    (h : x.key keyPrefix = y.key keyPrefix) :
    x = y := by
  obtain ⟨s, hxs, hxparts, hxscope, hxkey⟩ := @hx.parts keyPrefix
  obtain ⟨t, hyt, hyparts, hyscope, hykey⟩ := @hy.parts keyPrefix
  rw [hxkey, hykey] at h
  have hparts := parts_inj hxparts hyparts (List.append_cancel_left (Option.some.inj h))
  obtain ⟨hscope, hlast⟩ := List.append_inj' hparts rfl
  rw [hxscope, hyscope, List.cons.injEq] at hscope
  obtain ⟨entity, identifier, tenant⟩ := x
  obtain ⟨entity', identifier', tenant'⟩ := y
  obtain ⟨rfl, htenant⟩ := hscope
  have hheads := congrArg List.head? htenant
  rw [Option.head?_toList, Option.head?_toList] at hheads
  obtain rfl := hheads
  obtain rfl := (List.cons.inj hlast).1
  obtain rfl := hxs.trans hyt.symm
  rfl

/-- The keys that start with the entity and the tenant. -/
theorem Triple.Plain.start_iff {y : Triple} (hy : y.Plain) {entity tenant k : Text} (hentity : colon ∉ entity)
    (htenant : colon ∉ tenant) (hk : y.key keyPrefix = some k) :
    buildCacheKey [entity, tenant, []] keyPrefix <+: k ↔ y.entity = entity ∧ y.tenant = some tenant := by
  obtain ⟨s, hs, hparts, hscope, hkey⟩ := @hy.parts keyPrefix
  obtain rfl := Option.some.inj (hkey.symm.trans hk)
  rw [buildCacheKey, buildCacheKey, List.prefix_append_right_inj]
  constructor
  · rintro ⟨t, ht⟩
    have hstart : [entity, tenant].flatMap (colon :: ·) ++ colon :: t =
        (scopeParts y.entity y.tenant ++ [s]).flatMap (colon :: ·) := by
      simpa using ht
    obtain ⟨q, rest, hqs⟩ := parts_start (by simp [hentity, htenant]) hparts hstart
    rw [hscope] at hqs
    obtain ⟨entity', identifier', tenant'⟩ := y
    cases tenant' with
    | none => simp at hqs
    | some tenant' =>
      simp only [Option.toList_some, List.cons_append, List.nil_append, List.cons.injEq] at hqs
      exact ⟨hqs.1, by rw [hqs.2.1]⟩
  · rintro ⟨rfl, htenant'⟩
    rw [hscope, htenant']
    exact ⟨s, by simp⟩

/-- Texts without colons and special characters are told apart. -/
theorem apart_of_plain {request : Request} (hwritten : ∀ y ∈ written, y.Plain)
    (hrequest : request.Plain keyPrefix) :
    request.Apart keyPrefix written := by
  cases request with
  | one x =>
    obtain ⟨s, hs, -, -, hkey⟩ := @hrequest.parts keyPrefix
    have htruthy : x.identifier.truthy = true := by
      obtain ⟨s', hs', hne, -⟩ := hrequest.identifier
      rw [hs']
      exact decide_eq_true hne
    rw [Request.Apart, if_pos htruthy]
    exact ⟨_, hkey, fun y hy hykey => (hwritten y hy).key_inj hrequest (hykey.trans hkey.symm)⟩
  | tenantWide entity tenant =>
    obtain ⟨⟨hentity, hne, htenant⟩, hplain⟩ := hrequest
    intro y hy k hk
    have hpattern : entityPattern keyPrefix entity (some tenant) =
        buildCacheKey [entity, tenant, []] keyPrefix ++ text "*" := by
      simp [entityPattern, scopeParts, hne, buildCacheKey]
    have hliteral : ∀ c ∈ buildCacheKey [entity, tenant, []] keyPrefix, isSpecialChar c = false := by
      have hcolon : isSpecialChar colon = false := by decide
      simp only [List.mem_append, or_imp, forall_and] at hplain
      simp only [buildCacheKey, List.flatMap_cons, List.flatMap_nil, List.mem_append, List.mem_cons,
        List.not_mem_nil, or_imp, forall_and, forall_eq]
      tauto
    rw [hpattern, glob_plain_star hliteral, (hwritten y hy).start_iff hentity htenant hk]

end Plain

end Helpers
end Cache
end TrShared
