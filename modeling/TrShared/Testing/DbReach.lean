import Mathlib.Data.List.Chain
import Mathlib.Logic.Function.Basic
import Mathlib.Logic.Relation
import TrShared.Machine.Rounds

/-!
# TrShared.Testing.DbReach

`DbReach._solve`: which functions of a service reach the database, and by which call. A function
reaches it by itself when one of its calls is a database call that resolves to no function, or when it
belongs to a repository class; the loop then marks, round after round, the functions with a call to a
marked one, and links each to the first such callee.

* `visit_linked`, `round_linked`: the invariant `Linked` of the marks and the links.
* `propagate_spec`: the loop ends, within one round more than there are functions.
* `chain_spec`: what `_chain` shows is the way to a database call, or its first eight functions.
-/

namespace TrShared
namespace Testing
namespace DbReach

open Machine Relation

/-- What a call resolves to. -/
inductive Target (α γ : Type) where
  | function (f : α)
  | cls (c : γ)

def Target.function? {α γ : Type} : Target α γ → Option α
  | .function f => some f
  | .cls _ => none

/-- The functions found in the sources, with what `_solve` asks about each. -/
structure Service (α γ κ : Type) where
  functions : List α
  /-- `_calls(function.node.body)` -/
  calls : α → List κ
  /-- `_call_targets` of a call in the function -/
  callTargets : α → κ → List (Target α γ)
  isDbCall : κ → Bool
  /-- `enclosing_class.repository` -/
  repository : α → Bool

/-- The fields `reaches` and `via` of every function. -/
structure Marks (α : Type) where
  reaches : α → Bool
  via : α → Option α

section Solve

variable {α γ κ : Type} [DecidableEq α]

/-- What the first loop of `_solve` finds out about a function by itself. -/
def Service.base (p : Service α γ κ) (f : α) : Bool :=
  (p.calls f).any (fun call => (p.callTargets f call).isEmpty && p.isDbCall call) || p.repository f

def Service.edges (p : Service α γ κ) (f : α) : List α :=
  (p.calls f).flatMap (fun call => (p.callTargets f call).filterMap Target.function?)

def Service.start (p : Service α γ κ) : Marks α :=
  ⟨fun f => decide (f ∈ p.functions) && p.base f, fun _ => none⟩

/-- One pass of the inner loop, with `changed`. -/
def visit (edges : α → List α) (s : Marks α × Bool) (f : α) : Marks α × Bool :=
  if s.1.reaches f then s
  else
    match (edges f).find? s.1.reaches with
    | some target => (⟨Function.update s.1.reaches f true, Function.update s.1.via f (some target)⟩, true)
    | none => s

def round (p : Service α γ κ) (m : Marks α) : Marks α × Bool :=
  p.functions.foldl (visit p.edges) (m, false)

/-- `_solve`, and whether its loop ended. -/
def Service.solve (p : Service α γ κ) : Marks α × Bool :=
  rounds (round p) (p.functions.length + 1) p.start

def maxDepth : Nat := 8

/-- `_chain`: the function and what it reaches the database through, at most `_MAX_DEPTH` of them. -/
def chainFrom (m : Marks α) : Nat → Option α → List α
  | 0, _ => []
  | _ + 1, none => []
  | n + 1, some f => f :: chainFrom m n (m.via f)

def chain (m : Marks α) (f : α) : List α := chainFrom m maxDepth (some f)

/-- `try_reaches`, of the calls in the body of a `try` and what each resolves to there. -/
def tryReaches (p : Service α γ κ) (m : Marks α) (calls : List κ) (targets : κ → List (Target α γ)) :
    Option (List α) :=
  calls.findSome? (fun call =>
    if (targets call).isEmpty && p.isDbCall call then some []
    else (((targets call).filterMap Target.function?).find? m.reaches).map (chain m))

/-- A call from a function that was found to another. -/
def Edge (p : Service α γ κ) (f g : α) : Prop := f ∈ p.functions ∧ g ∈ p.edges f

def Base (p : Service α γ κ) (f : α) : Prop := f ∈ p.functions ∧ p.base f = true

/-- A function from which a base function is reached along calls. -/
def Reaches (p : Service α γ κ) (f : α) : Prop := ∃ b, ReflTransGen (Edge p) f b ∧ Base p b

def Via (m : Marks α) (f g : α) : Prop := m.via f = some g

/-- What every visit keeps: a function is marked because it is a base or through a link to a callee
that was marked before it. -/
structure Linked (p : Service α γ κ) (m : Marks α) : Prop where
  base_reaches : ∀ f, Base p f → m.reaches f = true
  base_of_unlinked : ∀ f, m.reaches f = true → m.via f = none → Base p f
  reaches_of_via : ∀ f g, Via m f g → m.reaches f = true
  edge_of_via : ∀ f g, Via m f g → Edge p f g ∧ m.reaches g = true
  ranked : ∃ rank : α → Nat, ∀ f g, Via m f g → rank g < rank f

theorem linked_start (p : Service α γ κ) : Linked p p.start where
  base_reaches f h := by simp [Service.start, h.1, h.2]
  base_of_unlinked f h _ := by simpa [Service.start, Base] using h
  reaches_of_via f g h := by cases h
  edge_of_via f g h := by cases h
  ranked := ⟨fun _ => 0, by
    intro f g h
    cases h⟩

/-- What a visit can do: nothing, or mark a function by a marked callee. -/
theorem visit_cases (edges : α → List α) (s : Marks α × Bool) (f : α) :
    (visit edges s f = s ∧ (s.1.reaches f = true ∨ ∀ g ∈ edges f, s.1.reaches g = false)) ∨
    ∃ g, s.1.reaches f = false ∧ g ∈ edges f ∧ s.1.reaches g = true ∧
      visit edges s f =
        (⟨Function.update s.1.reaches f true, Function.update s.1.via f (some g)⟩, true) := by
  by_cases hf : s.1.reaches f = true
  · exact .inl ⟨by rw [visit, if_pos hf], .inl hf⟩
  · cases hfind : (edges f).find? s.1.reaches with
    | none =>
      refine .inl ⟨by rw [visit, if_neg hf, hfind], .inr ?_⟩
      simpa using hfind
    | some g =>
      exact .inr ⟨g, by simpa using hf, List.mem_of_find?_eq_some hfind, List.find?_some hfind,
        by rw [visit, if_neg hf, hfind]⟩

theorem linked_mark {p : Service α γ κ} {m : Marks α} (h : Linked p m) {f g : α} (hf : m.reaches f = false)
    (hedge : Edge p f g) (hg : m.reaches g = true) :
    Linked p ⟨Function.update m.reaches f true, Function.update m.via f (some g)⟩ := by
  have hgf : g ≠ f := by
    rintro rfl
    rw [hf] at hg
    cases hg
  have hmono : ∀ a, m.reaches a = true → Function.update m.reaches f true a = true := by
    intro a ha
    by_cases haf : a = f
    · rw [haf, Function.update_self]
    · rw [Function.update_of_ne haf, ha]
  obtain ⟨rank, hrank⟩ := h.ranked
  refine ⟨?_, ?_, ?_, ?_, ?_⟩
  · intro a ha
    exact hmono a (h.base_reaches a ha)
  · intro a ha hvia
    have haf : a ≠ f := by
      rintro rfl
      simp at hvia
    simp only [Function.update_of_ne haf] at ha hvia
    exact h.base_of_unlinked a ha hvia
  · intro a b hab
    by_cases haf : a = f
    · simp [haf]
    · exact hmono a (h.reaches_of_via a b (by simpa [Via, haf] using hab))
  · intro a b hab
    by_cases haf : a = f
    · obtain rfl : g = b := by simpa [Via, haf] using hab
      exact ⟨haf ▸ hedge, hmono g hg⟩
    · obtain ⟨he, hb⟩ := h.edge_of_via a b (by simpa [Via, haf] using hab)
      exact ⟨he, hmono b hb⟩
  · -- no link leads to `f` yet, so its rank may be raised over that of `g`
    refine ⟨Function.update rank f (rank g + 1), ?_⟩
    intro a b hab
    by_cases haf : a = f
    · obtain rfl : g = b := by simpa [Via, haf] using hab
      rw [haf, Function.update_self, Function.update_of_ne hgf]
      omega
    · have hvia : Via m a b := by simpa [Via, haf] using hab
      have hbf : b ≠ f := by
        rintro rfl
        rw [(h.edge_of_via a b hvia).2] at hf
        cases hf
      rw [Function.update_of_ne haf, Function.update_of_ne hbf]
      exact hrank a b hvia

theorem visit_linked {p : Service α γ κ} {s : Marks α × Bool} (h : Linked p s.1) {f : α}
    (hf : f ∈ p.functions) : Linked p (visit p.edges s f).1 := by
  rcases visit_cases p.edges s f with ⟨he, -⟩ | ⟨g, hnot, hg, hreach, he⟩
  · rw [he]
    exact h
  · rw [he]
    exact linked_mark h hnot ⟨hf, hg⟩ hreach

theorem visit_mono (edges : α → List α) (s : Marks α × Bool) (f a : α) (ha : s.1.reaches a = true) :
    (visit edges s f).1.reaches a = true := by
  rcases visit_cases edges s f with ⟨he, -⟩ | ⟨g, hnot, -, -, he⟩
  · rw [he]
    exact ha
  · have haf : a ≠ f := by
      rintro rfl
      rw [hnot] at ha
      cases ha
    rw [he]
    simpa only [Function.update_of_ne haf] using ha

/-- A round over some of the functions keeps the invariant and every mark; it says whether it set one,
and if it set none there was none to set. -/
theorem foldl_visit {p : Service α γ κ} (l : List α) (hl : ∀ f ∈ l, f ∈ p.functions) (s : Marks α × Bool)
    (h : Linked p s.1) :
    Linked p (l.foldl (visit p.edges) s).1 ∧
    (∀ a, s.1.reaches a = true → (l.foldl (visit p.edges) s).1.reaches a = true) ∧
    (s.2 = true → (l.foldl (visit p.edges) s).2 = true) ∧
    ((l.foldl (visit p.edges) s).2 = true → s.2 = true ∨
      ∃ f ∈ l, s.1.reaches f = false ∧ (l.foldl (visit p.edges) s).1.reaches f = true) ∧
    ((l.foldl (visit p.edges) s).2 = false → l.foldl (visit p.edges) s = s ∧
      ∀ f ∈ l, s.1.reaches f = true ∨ ∀ g ∈ p.edges f, s.1.reaches g = false) := by
  induction l generalizing s with
  | nil =>
    refine ⟨h, fun _ ha => ha, fun hs => hs, fun hs => .inl hs, fun _ => ⟨rfl, ?_⟩⟩
    intro f hf
    cases hf
  | cons f l ih =>
    obtain ⟨hf, hl⟩ := List.forall_mem_cons.mp hl
    obtain ⟨hlinked, hmono, hflag, hmarked, hnone⟩ := ih hl (visit p.edges s f) (visit_linked h hf)
    rw [List.foldl_cons]
    have hmono' : ∀ a, s.1.reaches a = true →
        (l.foldl (visit p.edges) (visit p.edges s f)).1.reaches a = true :=
      fun a ha => hmono a (visit_mono p.edges s f a ha)
    rcases visit_cases p.edges s f with ⟨he, hdone⟩ | ⟨g, hnot, hg, hreach, he⟩
    · rw [he] at hlinked hmono hflag hmarked hnone ⊢
      refine ⟨hlinked, hmono, hflag, ?_, ?_⟩
      · intro hs
        rcases hmarked hs with hs | ⟨a, ha, hr⟩
        · exact .inl hs
        · exact .inr ⟨a, List.mem_cons_of_mem _ ha, hr⟩
      · intro hs
        obtain ⟨heq, hrest⟩ := hnone hs
        exact ⟨heq, List.forall_mem_cons.mpr ⟨hdone, hrest⟩⟩
    · have hset : (visit p.edges s f).2 = true := by rw [he]
      have hmark : (visit p.edges s f).1.reaches f = true := by
        rw [he]
        exact Function.update_self ..
      refine ⟨hlinked, hmono', fun _ => hflag hset, fun _ => .inr ⟨f, by simp, hnot, hmono f hmark⟩, ?_⟩
      intro hs
      rw [hflag hset] at hs
      cases hs

/-- How many functions are not marked. -/
def unmarked (p : Service α γ κ) (m : Marks α) : Nat := p.functions.countP (fun f => !m.reaches f)

theorem unmarked_round {p : Service α γ κ} {m : Marks α} (h : Linked p m) (hs : (round p m).2 = true) :
    unmarked p (round p m).1 < unmarked p m := by
  obtain ⟨-, hmono, -, hmarked, -⟩ := foldl_visit p.functions (fun _ hf => hf) (m, false) h
  rcases hmarked hs with hfalse | ⟨f, hf, hnot, hreach⟩
  · cases hfalse
  · have hnot : m.reaches f = false := hnot
    refine countP_lt ?_ hf (by simp [hnot]) ?_
    · intro a _ ha
      have hnot' : (round p m).1.reaches a = false := by simpa using ha
      by_contra hreach'
      have := hmono a (by simpa using hreach')
      rw [← round, hnot'] at this
      cases this
    · rw [← round] at hreach
      simp [hreach]

/-- The loop ends, with every callee's mark passed on. -/
theorem solve_spec (p : Service α γ κ) :
    p.solve.2 = true ∧ Linked p p.solve.1 ∧
      ∀ f g, Edge p f g → p.solve.1.reaches g = true → p.solve.1.reaches f = true := by
  obtain ⟨m, hm, hstop, heq⟩ := @rounds_of_measure _ (round p) (Linked p) (unmarked p)
    (fun m hm => (foldl_visit p.functions (fun _ hf => hf) (m, false) hm).1)
    (fun m hm hs => unmarked_round hm hs) (p.functions.length + 1) p.start (linked_start p)
    (Nat.lt_succ_of_le List.countP_le_length)
  obtain ⟨-, -, -, -, hnone⟩ := foldl_visit p.functions (fun _ hf => hf) (m, false) hm
  obtain ⟨hsame, hdone⟩ := hnone hstop
  have hround : (round p m).1 = m := congrArg Prod.fst hsame
  rw [Service.solve, heq, hround]
  refine ⟨rfl, hm, ?_⟩
  rintro f g ⟨hf, hg⟩ hreach
  rcases hdone f hf with hreach' | hnot
  · exact hreach'
  · have hg' := hnot g hg
    simp only at hg'
    rw [hg'] at hreach
    cases hreach

omit [DecidableEq α] in
/-- A marked function has a way to a base function along its links. -/
theorem exists_base {p : Service α γ κ} {m : Marks α} (h : Linked p m) {f : α} (hf : m.reaches f = true) :
    ∃ b, ReflTransGen (Via m) f b ∧ m.via b = none ∧ Base p b := by
  obtain ⟨rank, hrank⟩ := h.ranked
  induction hn : rank f using Nat.strongRecOn generalizing f with
  | ind n ih =>
    cases hvia : m.via f with
    | none => exact ⟨f, .refl, hvia, h.base_of_unlinked f hf hvia⟩
    | some g =>
      obtain ⟨b, hgb, hb⟩ := ih (rank g) (hn ▸ hrank f g hvia) (h.edge_of_via f g hvia).2 rfl
      exact ⟨b, .head hvia hgb, hb⟩

omit [DecidableEq α] in
theorem acyclic_via {p : Service α γ κ} {m : Marks α} (h : Linked p m) (f : α) : ¬ TransGen (Via m) f f := by
  obtain ⟨rank, hrank⟩ := h.ranked
  have hlt : ∀ g, TransGen (Via m) f g → rank g < rank f := by
    intro g hfg
    induction hfg with
    | single hstep => exact hrank _ _ hstep
    | tail _ hstep ih => exact Nat.lt_trans (hrank _ _ hstep) ih
  intro hff
  exact Nat.lt_irrefl _ (hlt f hff)

theorem solve_reaches_iff (p : Service α γ κ) (f : α) : p.solve.1.reaches f = true ↔ Reaches p f := by
  obtain ⟨-, hlinked, hclosed⟩ := solve_spec p
  constructor
  · intro hf
    obtain ⟨b, hpath, -, hb⟩ := exists_base hlinked hf
    have hsub : Via p.solve.1 ≤ Edge p := fun _ _ hvia => (hlinked.edge_of_via _ _ hvia).1
    exact ⟨b, ReflTransGen.mono hsub _ _ hpath, hb⟩
  · rintro ⟨b, hpath, hb⟩
    induction hpath using ReflTransGen.head_induction_on with
    | refl => exact hlinked.base_reaches b hb
    | head hedge _ ih => exact hclosed _ _ hedge ih

omit [DecidableEq α] in
/-- The order of the functions does not matter. -/
theorem reaches_perm (p : Service α γ κ) {functions : List α} (h : functions.Perm p.functions) (f : α) :
    Reaches { p with functions := functions } f ↔ Reaches p f := by
  have hedge : Edge { p with functions := functions } = Edge p := by
    funext a b
    simp only [Edge, h.mem_iff]
    rfl
  have hbase : Base { p with functions := functions } = Base p := by
    funext a
    simp only [Base, h.mem_iff]
    rfl
  rw [Reaches, Reaches, hedge, hbase]

omit [DecidableEq α] in
/-- Wherever the links of a marked function lead, they end in a base function. -/
theorem base_of_chain {p : Service α γ κ} {m : Marks α} (h : Linked p m) {f b : α} (hf : m.reaches f = true)
    (hpath : ReflTransGen (Via m) f b) (hb : m.via b = none) : Base p b := by
  have hreach : m.reaches b = true := by
    induction hpath with
    | refl => exact hf
    | tail _ hstep _ => exact (h.edge_of_via _ _ hstep).2
  exact h.base_of_unlinked b hreach hb

/-- `_solve` ends; it marks the functions that reach a base function along calls, in whatever order the
functions are listed; and its links lead from every marked function along calls, without a cycle, to a
base function. -/
theorem solve_correct (p : Service α γ κ) :
    p.solve.2 = true ∧
    (∀ f, p.solve.1.reaches f = true ↔ Reaches p f) ∧
    (∀ functions : List α, functions.Perm p.functions → ∀ f,
      (Service.solve { p with functions := functions }).1.reaches f = p.solve.1.reaches f) ∧
    (∀ f, ¬ TransGen (Via p.solve.1) f f) ∧
    (∀ f g, Via p.solve.1 f g → Edge p f g ∧ p.solve.1.reaches g = true) ∧
    (∀ f, p.solve.1.reaches f = true →
      (∃ b, ReflTransGen (Via p.solve.1) f b ∧ p.solve.1.via b = none) ∧
      ∀ b, ReflTransGen (Via p.solve.1) f b → p.solve.1.via b = none → Base p b) := by
  obtain ⟨hends, hlinked, -⟩ := solve_spec p
  refine ⟨hends, solve_reaches_iff p, ?_, acyclic_via hlinked, hlinked.edge_of_via, ?_⟩
  · intro functions hperm f
    rw [Bool.eq_iff_iff, solve_reaches_iff, solve_reaches_iff]
    exact reaches_perm p hperm f
  · intro f hf
    obtain ⟨b, hpath, hb, -⟩ := exists_base hlinked hf
    exact ⟨⟨b, hpath, hb⟩, fun b hpath hb => base_of_chain hlinked hf hpath hb⟩

/-- Two functions that call each other, the second of them a third one with a database call. -/
def twoInACycle : Service Nat Unit Nat where
  functions := [0, 1, 2]
  calls f := [f]
  callTargets _ call :=
    if call = 0 then [.function 1] else if call = 1 then [.function 0, .function 2] else []
  isDbCall call := call = 2
  repository _ := false

theorem solve_correct_twoInACycle : twoInACycle.solve.1.reaches 0 = true := by
  have hedge : ∀ f g, g ∈ twoInACycle.edges f → f ∈ twoInACycle.functions → Edge twoInACycle f g :=
    fun _ _ hg hf => ⟨hf, hg⟩
  refine ((solve_correct twoInACycle).2.1 0).mpr ⟨2, ?_, by decide, by decide⟩
  exact .head (hedge 0 1 (by decide) (by decide)) (.single (hedge 1 2 (by decide) (by decide)))

omit [DecidableEq α] in
/-- `_chain` follows the links, and stops at a base function unless it is cut. -/
theorem chain_spec {p : Service α γ κ} {m : Marks α} (h : Linked p m) {f : α} (hf : m.reaches f = true)
    (n : Nat) :
    (chainFrom m n (some f)).IsChain (Via m) ∧
    ((chainFrom m n (some f)).length = n ∨ ∃ b, (chainFrom m n (some f)).getLast? = some b ∧ Base p b) := by
  induction n generalizing f with
  | zero => exact ⟨.nil, .inl rfl⟩
  | succ n ih =>
    rw [chainFrom]
    cases hvia : m.via f with
    | none =>
      have hnil : chainFrom m n none = [] := by cases n <;> rfl
      rw [hnil]
      exact ⟨.singleton f, .inr ⟨f, rfl, h.base_of_unlinked f hf hvia⟩⟩
    | some g =>
      obtain ⟨hchain, hend⟩ := ih (h.edge_of_via f g hvia).2
      cases n with
      | zero => exact ⟨.singleton f, .inl rfl⟩
      | succ n =>
        rw [chainFrom] at hchain hend ⊢
        refine ⟨.cons_cons hvia hchain, ?_⟩
        rcases hend with hlen | ⟨b, hb, hbase⟩
        · exact .inl (by simpa using hlen)
        · exact .inr ⟨b, by rw [List.getLast?_cons_cons, hb], hbase⟩

/-- A `try` is reported exactly when a call in its body reaches the database. -/
theorem tryReaches_iff (p : Service α γ κ) (calls : List κ) (targets : κ → List (Target α γ)) :
    (tryReaches p p.solve.1 calls targets).isSome = true ↔
      ∃ call ∈ calls, (targets call = [] ∧ p.isDbCall call = true) ∨
        ∃ f, .function f ∈ targets call ∧ Reaches p f := by
  rw [tryReaches, List.findSome?_isSome_iff]
  refine exists_congr fun call => and_congr_right fun _ => ?_
  by_cases hdb : ((targets call).isEmpty && p.isDbCall call) = true
  · rw [if_pos hdb]
    rw [Bool.and_eq_true, List.isEmpty_iff] at hdb
    exact iff_of_true rfl (.inl hdb)
  · rw [if_neg hdb, Option.isSome_map, List.find?_isSome]
    rw [Bool.and_eq_true, List.isEmpty_iff] at hdb
    rw [or_iff_right hdb]
    refine exists_congr fun f => and_congr ?_ (solve_reaches_iff p f)
    rw [List.mem_filterMap]
    constructor
    · rintro ⟨target, htarget, hf⟩
      cases target with
      | function g =>
        obtain rfl := Option.some.inj hf
        exact htarget
      | cls c => cases hf
    · intro htarget
      exact ⟨_, htarget, rfl⟩

end Solve

end DbReach
end Testing
end TrShared
