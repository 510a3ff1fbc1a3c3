import Mathlib.Data.List.Induction
import TrShared.Events.Consumer

/-!
# TrShared.Events.Routing

`register_handler` and `_resolve_handler` (`tr_shared/events/consumer.py`): which handler of a
registry an event type goes to.

`intended` is what a registration `p.*` is for, read off the calls of `register_handler`: the
events whose type continues `p` after a dot. `_resolve_handler` strips the dot with the star and
compares with `p` alone, so `p.*` also takes `p` itself and every type whose next segment merely
begins with the last one of `p`. `routing_iff` says for which registries and types this makes no
difference.
-/

namespace TrShared
namespace Events
namespace Consumer

open Python

def registerHandler (handlers : List (String × HandlerId)) (eventType : String)
    (handler : HandlerId) : List (String × HandlerId) :=
  setItem handlers eventType handler

/-- `_handlers` after the calls of `register_handler`. -/
def registry (calls : List (String × HandlerId)) : List (String × HandlerId) :=
  calls.foldl (fun handlers call => registerHandler handlers call.1 call.2) []

/-- The handler of the last call for a key. -/
def lastRegistered (calls : List (String × HandlerId)) (key : String) : Option HandlerId :=
  calls.reverse.lookup key

/-- The test in the loop of `_resolve_handler`. -/
def textual (eventType pattern : String) : Bool :=
  isWildcard pattern && startswith eventType (patternPrefix pattern)

/-- The pattern is some `p.*` and the event type starts with `p.`. -/
def below (eventType pattern : String) : Bool :=
  isWildcard pattern && startswith eventType (patternPrefix pattern ++ ".")

/-- The handler registered under the type itself, else that of the first pattern below which the
type is. -/
def intended (calls : List (String × HandlerId)) (eventType : String) : Option HandlerId :=
  match lastRegistered calls eventType with
  | some h => some h
  | none =>
    match calls.find? (fun call => below eventType call.1) with
    | some call => lastRegistered calls call.1
    | none => none

/-- The pattern whose handler the loop of `_resolve_handler` returns. -/
def received (handlers : List (String × HandlerId)) (eventType : String) : Option String :=
  match handlers.lookup eventType with
  | some _ => none
  | none => (handlers.find? (fun p => textual eventType p.1)).map Prod.fst

theorem textual_of_below {s pattern : String} (h : below s pattern = true) :
    textual s pattern = true := by
  simp only [below, textual, startswith, Bool.and_eq_true, List.isPrefixOf_iff_prefix] at h ⊢
  refine ⟨h.1, ?_⟩
  have hp : (patternPrefix pattern).toList <+: (patternPrefix pattern ++ ".").toList := by
    rw [String.toList_append]
    exact List.prefix_append _ _
  exact hp.trans h.2

/-! ## The registry -/

section Keys

variable {β : Type} {p : String → Bool}

/-- The first key that satisfies `p`. -/
def firstKey (p : String → Bool) (d : List (String × β)) : Option String :=
  (d.find? (fun e => p e.1)).map Prod.fst

theorem firstKey_cons (e : String × β) (d : List (String × β)) :
    firstKey p (e :: d) = if p e.1 then some e.1 else firstKey p d := by
  simp only [firstKey, List.find?_cons]
  cases p e.1 <;> rfl

theorem firstKey_snoc (d : List (String × β)) (e : String × β) :
    firstKey p (d ++ [e]) = (firstKey p d).or (if p e.1 then some e.1 else none) := by
  induction d with
  | nil => simp [firstKey]
  | cons e' d ih =>
    rw [List.cons_append, firstKey_cons, firstKey_cons, ih]
    cases p e'.1 <;> simp

theorem firstKey_setItem (d : List (String × β)) (k : String) (v : β) :
    firstKey p (setItem d k v) = (firstKey p d).or (if p k then some k else none) := by
  induction d with
  | nil => simp [setItem, firstKey]
  | cons e d ih =>
    obtain ⟨k', v'⟩ := e
    simp only [setItem]
    by_cases hk : k = k'
    · subst hk
      rw [if_pos rfl, firstKey_cons, firstKey_cons]
      cases hp : p k with
      | true => simp
      | false => simp
    · rw [if_neg hk, firstKey_cons, firstKey_cons, ih]
      cases p k' <;> simp

/-- An entry found by its key is the one `lookup` finds. -/
theorem lookup_of_find {d : List (String × β)} {e : String × β}
    (h : d.find? (fun e => p e.1) = some e) : d.lookup e.1 = some e.2 := by
  induction d with
  | nil => cases h
  | cons e' d ih =>
    obtain ⟨k', v'⟩ := e'
    rw [List.find?_cons] at h
    cases hp : p k' with
    | true =>
      simp only [hp, Option.some.injEq] at h
      subst h
      simp
    | false =>
      simp only [hp] at h
      have hne : (e.1 == k') = false := by
        have hpe : p e.1 = true := by simpa using List.find?_some h
        rw [beq_eq_false_iff_ne]
        intro heq
        rw [heq, hp] at hpe
        cases hpe
      rw [List.lookup_cons, hne]
      exact ih h

end Keys

theorem registry_snoc (calls : List (String × HandlerId)) (call : String × HandlerId) :
    registry (calls ++ [call]) = setItem (registry calls) call.1 call.2 := by
  simp [registry, registerHandler]

/-- A later registration replaces the handler. -/
theorem registry_lookup (calls : List (String × HandlerId)) (key : String) :
    (registry calls).lookup key = lastRegistered calls key := by
  induction calls using List.reverseRecOn with
  | nil => rfl
  | append_singleton calls call ih =>
    obtain ⟨t, h⟩ := call
    rw [registry_snoc, lookup_setItem, ih]
    simp only [lastRegistered, List.reverse_append, List.reverse_singleton, List.singleton_append,
      List.lookup_cons]
    by_cases hk : key = t
    · simp [hk]
    · have hb : (key == t) = false := by simpa using hk
      rw [if_neg hk, hb]

theorem lastRegistered_eq_none_iff (calls : List (String × HandlerId)) (key : String) :
    lastRegistered calls key = none ↔ ¬ ∃ h, (key, h) ∈ calls := by
  simp only [lastRegistered, List.lookup_eq_none_iff, List.mem_reverse]
  constructor
  · rintro hall ⟨h, hm⟩
    have := hall (key, h) hm
    simp at this
  · rintro hno ⟨k, h⟩ hm
    rw [bne_iff_ne]
    rintro rfl
    exact hno ⟨h, hm⟩

/-- It keeps the place of the first. -/
theorem registry_firstKey (p : String → Bool) (calls : List (String × HandlerId)) :
    firstKey p (registry calls) = firstKey p calls := by
  induction calls using List.reverseRecOn with
  | nil => rfl
  | append_singleton calls call ih =>
    rw [registry_snoc, firstKey_setItem, firstKey_snoc, ih]

/-! ## What `_resolve_handler` returns -/

section Resolve

variable {calls : List (String × HandlerId)} {s : String}

theorem resolve_exact {h : HandlerId} (hs : lastRegistered calls s = some h) :
    resolveHandler (registry calls) (.str s) = some (some h) := by
  simp only [resolveHandler, registry_lookup, hs]

theorem received_exact {h : HandlerId} (hs : lastRegistered calls s = some h) :
    received (registry calls) s = none := by
  simp only [received, registry_lookup, hs]

theorem received_of_unregistered (hs : lastRegistered calls s = none) :
    received (registry calls) s = firstKey (textual s) calls := by
  simp only [received, registry_lookup, hs]
  exact registry_firstKey (textual s) calls

theorem intended_of_unregistered (hs : lastRegistered calls s = none) :
    intended calls s = (firstKey (below s) calls).bind (lastRegistered calls) := by
  simp only [intended, hs, firstKey]
  cases calls.find? (fun call => below s call.1) <;> rfl

/-- Without an exact registration the result is the last handler of the first textual match. -/
theorem resolve_of_unregistered (hs : lastRegistered calls s = none) :
    resolveHandler (registry calls) (.str s) =
      some ((firstKey (textual s) calls).bind (lastRegistered calls)) := by
  have hkey := registry_firstKey (textual s) calls
  simp only [resolveHandler, registry_lookup, hs]
  rw [← hkey]
  simp only [firstKey, textual]
  cases hf : (registry calls).find? (fun e => isWildcard e.1 && startswith s (patternPrefix e.1)) with
  | none => rfl
  | some e =>
    have hv := lookup_of_find (p := textual s) hf
    rw [registry_lookup] at hv
    simp [hv]

end Resolve

/-- Every pattern that the type merely continues as text comes after one that the type is below. -/
def Shielded (calls : List (String × HandlerId)) (s : String) : Prop :=
  ∀ pre call post, calls = pre ++ call :: post → textual s call.1 = true →
    below s call.1 = false → ∃ call' ∈ pre, below s call'.1 = true

theorem firstKey_below_of_textual {calls : List (String × HandlerId)} {s pattern : String}
    (h : firstKey (textual s) calls = some pattern) (hb : below s pattern = true) :
    firstKey (below s) calls = some pattern := by
  induction calls with
  | nil => cases h
  | cons call calls ih =>
    rw [firstKey_cons] at h ⊢
    by_cases ht : textual s call.1 = true
    · rw [if_pos ht] at h
      cases h
      rw [if_pos hb]
    · have hnb : ¬ below s call.1 = true := fun hb' => ht (textual_of_below hb')
      rw [if_neg ht] at h
      rw [if_neg hnb]
      exact ih h

theorem firstKey_below_of_none {calls : List (String × HandlerId)} {s : String}
    (h : firstKey (textual s) calls = none) : firstKey (below s) calls = none := by
  simp only [firstKey, Option.map_eq_none_iff, List.find?_eq_none] at h ⊢
  intro call hc hb
  exact h call hc (textual_of_below hb)

theorem shielded_iff {calls : List (String × HandlerId)} {s : String} :
    Shielded calls s ↔ ∀ pattern, firstKey (textual s) calls = some pattern →
      below s pattern = true := by
  constructor
  · intro hsh pattern hf
    simp only [firstKey, Option.map_eq_some_iff] at hf
    obtain ⟨call, hcall, rfl⟩ := hf
    obtain ⟨ht, pre, post, rfl, hpre⟩ := List.find?_eq_some_iff_append.mp hcall
    by_contra hb
    rw [Bool.not_eq_true] at hb
    obtain ⟨call', hc', hb'⟩ := hsh pre call post rfl ht hb
    have := hpre call' hc'
    rw [textual_of_below hb'] at this
    cases this
  · intro hall pre call post hsplit ht hb
    subst hsplit
    -- the first textual match is in front of this one, and the type is below it
    cases hf : pre.find? (fun c => textual s c.1) with
    | none =>
      have hfirst : firstKey (textual s) (pre ++ call :: post) = some call.1 := by
        simp [firstKey, List.find?_append, hf, ht]
      rw [hall _ hfirst] at hb
      cases hb
    | some call' =>
      have hfirst : firstKey (textual s) (pre ++ call :: post) = some call'.1 := by
        simp [firstKey, List.find?_append, hf]
      exact ⟨call', List.mem_of_find?_eq_some hf, hall _ hfirst⟩

/-- An event goes where the registrations say, and through no pattern it is not below, exactly if
its type is registered itself or every merely textual match is shielded. -/
theorem routing_iff (calls : List (String × HandlerId)) (s : String) :
    (resolveHandler (registry calls) (.str s) = some (intended calls s) ∧
      ∀ pattern, received (registry calls) s = some pattern → below s pattern = true) ↔
    (∃ h, (s, h) ∈ calls) ∨ Shielded calls s := by
  cases hs : lastRegistered calls s with
  | some h =>
    have hmem : ∃ h, (s, h) ∈ calls := by
      by_contra hno
      rw [(lastRegistered_eq_none_iff calls s).mpr hno] at hs
      cases hs
    refine iff_of_true ⟨?_, ?_⟩ (.inl hmem)
    · rw [resolve_exact hs]
      simp only [intended, hs]
    · intro pattern hp
      rw [received_exact hs] at hp
      cases hp
  | none =>
    have hno := (lastRegistered_eq_none_iff calls s).mp hs
    rw [received_of_unregistered hs, ← shielded_iff, or_iff_right hno]
    constructor
    · rintro ⟨-, hsh⟩
      exact hsh
    · intro hsh
      refine ⟨?_, hsh⟩
      rw [resolve_of_unregistered hs, intended_of_unregistered hs]
      cases hf : firstKey (textual s) calls with
      | none => rw [firstKey_below_of_none hf]
      | some pattern =>
        rw [firstKey_below_of_textual hf (shielded_iff.mp hsh pattern hf)]

/-- A handler of `activity.log.*` alone receives `activity.logged`. -/
theorem activity_logged_misrouted :
    ¬ (resolveHandler (registry [("activity.log.*", 0)]) (.str "activity.logged") =
        some (intended [("activity.log.*", 0)] "activity.logged") ∧
      ∀ pattern, received (registry [("activity.log.*", 0)]) "activity.logged" = some pattern →
        below "activity.logged" pattern = true) := by
  rintro ⟨h, -⟩
  revert h
  decide +kernel

end Consumer
end Events
end TrShared
