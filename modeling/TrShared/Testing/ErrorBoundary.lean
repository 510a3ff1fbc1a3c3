import TrShared.Testing.SwallowedErrors

/-!
# TrShared.Testing.ErrorBoundary

What the guard on swallowed database errors is worth: its verdicts against the executions of the code that
it scans. An error of a database call is followed through calls, handlers and `finally`, and every handler
that takes it is found among the `try` statements of the guard.

* `caught_reported`: a handler that takes a database error is reported, or it is of a kind that the guard
  lets pass, which `Excused` lists.
* `guarded_errors_reach_boundary`: where the guard passes, an error leaves its function, or such a handler
  took it, a `finally` or a context manager dropped it, or its file is not scanned or exempt.
-/

namespace TrShared
namespace Testing
namespace SwallowedErrors

open DbReach (Expr Target Service)
open Python Python.Exceptions

variable {φ γ μ ε : Type}

/-! ## The walk -/

@[simp]
theorem Collecting.scope_block (c : Collecting φ) (kind : BlockKind) : (c.block kind).scope = c.scope := by
  cases c with
  | module => cases kind <;> rfl
  | _ => rfl

@[simp]
theorem Collecting.scope_attempt (c : Collecting φ) : c.attempt.scope = c.scope := by cases c <;> rfl

@[simp]
theorem Collecting.scope_handler (c : Collecting φ) : c.handler.scope = c.scope := by cases c <;> rfl

section Walk

variable {t : Try φ Expr Expr} {r : Bool}

mutual

/-- Every `try` of a body outside nested scopes is found, with the scope of the body. -/
theorem attempt_foundIn (c : Collecting φ) :
    ∀ s : Stmt φ Expr Expr, .attempt t ∈ s.ownNodes → .attempt t r c.scope ∈ foundIn c r s
  | .simple _, h => by simp [Stmt.ownNodes] at h
  | .leave _, h => by simp [Stmt.ownNodes] at h
  | .raise _ _, h => by simp [Stmt.ownNodes] at h
  | .block kind calls body orelse, h => by
    have hbody := attempt_foundInBody (c.block kind) body
    have horelse := attempt_foundInBody (c.block kind) orelse
    simp only [Collecting.scope_block] at hbody horelse
    simp only [Stmt.ownNodes, List.mem_append, List.mem_map, reduceCtorEq, and_false, exists_false,
      or_false] at h
    rw [foundIn, List.mem_append]
    exact h.symm.imp hbody horelse
  | .attempt body handlers orelse finalbody, h => by
    have hbody := attempt_foundInBody c.attempt body
    have hhandlers := attempt_foundInHandlers c.handler handlers
    have horelse := attempt_foundInBody c.attempt orelse
    have hfinal := attempt_foundInBody c.attempt finalbody
    simp only [Collecting.scope_attempt, Collecting.scope_handler] at hbody hhandlers horelse hfinal
    simp only [Stmt.ownNodes, List.mem_cons, List.mem_append, Node.attempt.injEq] at h
    simp only [foundIn, List.mem_cons, List.mem_append]
    rcases h with rfl | ((h | h) | h) | h
    · exact .inl rfl
    · exact .inr (.inr (hfinal h))
    · exact .inr (.inl (.inr (horelse h)))
    · exact .inr (.inl (.inl (.inr (hhandlers h))))
    · exact .inr (.inl (.inl (.inl (hbody h))))
  | .define _ _, h => by simp [Stmt.ownNodes] at h

theorem attempt_foundInBody (c : Collecting φ) :
    ∀ b : Tree φ, .attempt t ∈ b.ownNodes → .attempt t r c.scope ∈ foundInBody c r b
  | .nil, h => by simp [Body.ownNodes] at h
  | .cons s rest, h => by
    rw [Body.ownNodes, List.mem_append] at h
    rw [foundInBody, List.mem_append]
    exact h.symm.imp (attempt_foundIn c s) (attempt_foundInBody c rest)

theorem attempt_foundInHandlers (c : Collecting φ) :
    ∀ hs : Handlers φ Expr Expr, .attempt t ∈ hs.ownNodes → .attempt t r c.scope ∈ foundInHandlers c r hs
  | .nil, h => by simp [Handlers.ownNodes] at h
  | .cons _ _ body rest, h => by
    rw [Handlers.ownNodes, List.mem_append] at h
    rw [foundInHandlers, List.mem_append]
    exact h.symm.imp (attempt_foundInBody c body) (attempt_foundInHandlers c rest)

end

variable {f : φ} {b : Tree φ}

/-- What is found in a function stands in the list, too. -/
def Nested (f : φ) (b : Tree φ) (l : List (Found φ)) : Prop :=
  ∃ r, ∀ x ∈ foundInBody (.function f) r b, x ∈ l

theorem Nested.mono {l l' : List (Found φ)} (h : Nested f b l) (hl : ∀ x ∈ l, x ∈ l') : Nested f b l' :=
  h.imp (fun _ h x hx => hl x (h x hx))

mutual

theorem function_foundIn (c : Collecting φ) (r : Bool) :
    ∀ s : Stmt φ Expr Expr, .function f b ∈ foundIn c r s → Nested f b (foundIn c r s)
  | .simple _, h => by simp [foundIn] at h
  | .leave _, h => by simp [foundIn] at h
  | .raise _ _, h => by simp [foundIn] at h
  | .block kind _ body orelse, h => by
    rw [foundIn, List.mem_append] at h
    rw [foundIn]
    rcases h with h | h
    · exact (function_foundInBody _ r body h).mono (fun _ => List.mem_append_left _)
    · exact (function_foundInBody _ r orelse h).mono (fun _ => List.mem_append_right _)
  | .attempt body handlers orelse finalbody, h => by
    simp only [foundIn, List.mem_cons, List.mem_append, reduceCtorEq, false_or] at h
    rw [foundIn]
    rcases h with ((h | h) | h) | h
    · exact (function_foundInBody _ r body h).mono (by simp +contextual)
    · exact (function_foundInHandlers _ r handlers h).mono (by simp +contextual)
    · exact (function_foundInBody _ r orelse h).mono (by simp +contextual)
    · exact (function_foundInBody _ r finalbody h).mono (by simp +contextual)
  | .define (.function g) body, h => by
    cases c with
    | lost =>
      simp only [foundIn] at h ⊢
      exact function_foundInBody .lost r body h
    | _ =>
      simp only [foundIn, List.mem_cons] at h ⊢
      rcases h with h | h
      · cases h
        exact ⟨r, fun _ => List.mem_cons_of_mem _⟩
      · exact (function_foundInBody (.function g) r body h).mono (fun _ => List.mem_cons_of_mem _)
  | .define (.cls name) body, h => by
    rw [foundIn] at h ⊢
    exact function_foundInBody _ _ body h

theorem function_foundInBody (c : Collecting φ) (r : Bool) :
    ∀ b' : Tree φ, .function f b ∈ foundInBody c r b' → Nested f b (foundInBody c r b')
  | .nil, h => by simp [foundInBody] at h
  | .cons s rest, h => by
    rw [foundInBody, List.mem_append] at h
    rw [foundInBody]
    rcases h with h | h
    · exact (function_foundIn c r s h).mono (fun _ => List.mem_append_left _)
    · exact (function_foundInBody c r rest h).mono (fun _ => List.mem_append_right _)

theorem function_foundInHandlers (c : Collecting φ) (r : Bool) :
    ∀ hs : Handlers φ Expr Expr, .function f b ∈ foundInHandlers c r hs → Nested f b (foundInHandlers c r hs)
  | .nil, h => by simp [foundInHandlers] at h
  | .cons _ _ body rest, h => by
    rw [foundInHandlers, List.mem_append] at h
    rw [foundInHandlers]
    rcases h with h | h
    · exact (function_foundInBody c r body h).mono (fun _ => List.mem_append_left _)
    · exact (function_foundInHandlers c r rest h).mono (fun _ => List.mem_append_right _)

end

end Walk

/-! ## The verdicts -/

section Verdicts

variable {p : Project φ γ μ} {m : μ}

theorem reraises_of_outageOnly {h : ExceptHandler φ} {aliases : OrderedDict Text (List Expr)}
    (ho : reraisesOutageOnly h aliases = true) : reraises h = true := by
  rw [reraisesOutageOnly, Bool.and_eq_true] at ho
  have hbare := ho.1
  unfold isBareRaise at hbare
  unfold reraises
  split at hbare
  · rename_i hbody
    rw [hbody]
    simp [Body.ownNodes, Stmt.ownNodes, Node.isRaise]
  · cases hbare

/-- A handler that has no `raise` is reported for what it names, or for what reaches it unless an earlier
handler lets outages through. -/
theorem mem_judge {via : Option (List Text)} {before after : List (ExceptHandler φ)}
    {h : ExceptHandler φ} {credited : Bool} (hraise : reraises h = false) :
    ((caught h (p.aliases m)).any (fun e => isGenericSqlalchemy e (p.imports m)) = true →
      ⟨h.lineno, []⟩ ∈ p.judge m via credited (before ++ h :: after)) ∧
    (∀ names, via = some names → isBroad h (p.aliases m) = true → credited = false →
      (∀ h' ∈ before, reraisesOutageOnly h' (p.aliases m) = false) →
      ∃ v, ⟨h.lineno, v⟩ ∈ p.judge m via credited (before ++ h :: after)) := by
  induction before generalizing credited with
  | nil =>
    have hown : reraisesOutageOnly h (p.aliases m) = false :=
      Bool.eq_false_iff.mpr (fun ho => absurd (reraises_of_outageOnly ho) (by simp [hraise]))
    simp only [List.nil_append, Project.judge, hraise, hown, Bool.or_false, Bool.false_eq_true, if_false]
    refine ⟨fun hgeneric => ?_, fun names hvia hbroad hcredited _ => ?_⟩
    · rw [if_pos hgeneric]
      exact List.mem_cons_self
    · split
      · exact ⟨[], List.mem_cons_self⟩
      · rw [if_pos (by simp [hcredited, hbroad]), hvia]
        exact ⟨names, List.mem_cons_self⟩
  | cons h' before ih =>
    obtain ⟨hgeneric, hbroad⟩ := @ih (credited || reraisesOutageOnly h' (p.aliases m))
    simp only [List.cons_append, Project.judge]
    refine ⟨fun h => List.mem_append_right _ (hgeneric h), fun names hvia hb hcredited hbefore => ?_⟩
    obtain ⟨hh', hbefore⟩ := List.forall_mem_cons.mp hbefore
    obtain ⟨v, hv⟩ := hbroad names hvia hb (by simp [hcredited, hh']) hbefore
    exact ⟨v, List.mem_append_right _ hv⟩

end Verdicts

/-! ## Runs -/

section Runs

/-- What the calls of the sources run. -/
def Project.program (p : Project φ γ μ) : Program φ Expr Expr (Option φ × μ) where
  body := p.body
  scope f := (some f, p.module f)

variable (p : Project φ γ μ)

/-- A function is called, or a module is imported. -/
inductive Project.Starts : Task φ Expr Expr (Option φ × μ) ε → Prop where
  | function {f : φ} : f ∈ p.functions → Project.Starts (.body (some f, p.module f) none (p.body f))
  | module {m : μ} : m ∈ p.modules → Project.Starts (.body (none, m) none (p.tree m))

/-- The guard knows the calls of the run: each ran a function that it resolves to, and a database error
came from a call that resolves to nothing and is named like one. -/
structure Project.Seen (isDb : ε → Prop) (l : List (Event φ Expr Expr (Option φ × μ) ε)) : Prop where
  ran : ∀ s call f, .ran s call f ∈ l → .function f ∈ p.callTargets s.1 s.2 call ∧ f ∈ p.functions
  outside : ∀ s call e, .outside s call e ∈ l → isDb e →
    p.callTargets s.1 s.2 call = [] ∧ isDbCall call = true
  unseen : ∀ e, .unseen e ∈ l → ¬ isDb e

/-- The handlers that the guard lets pass: with a `raise` of their own, after one that raises outages
again, or that name neither a broad exception nor a generic one of SQLAlchemy. -/
inductive Project.Excused (isinstance : Option φ × μ → Expr → ε → Prop)
    (c : Catch φ Expr Expr (Option φ × μ) ε) : Prop where
  | raises : reraises c.handler = true → Project.Excused isinstance c
  | credited (h : ExceptHandler φ) : h ∈ c.before → reraisesOutageOnly h (p.aliases c.scope.2) = true →
      ¬ h.Catches isinstance c.scope c.error → Project.Excused isinstance c
  | narrow : isBroad c.handler (p.aliases c.scope.2) = false →
      (∀ e ∈ caught c.handler (p.aliases c.scope.2), isGenericSqlalchemy e (p.imports c.scope.2) = false) →
      Project.Excused isinstance c

variable {p} {isinstance : Option φ × μ → Expr → ε → Prop} {isDb : ε → Prop}
variable {l : List (Event φ Expr Expr (Option φ × μ) ε)}

theorem module_mem {f : φ} (hf : f ∈ p.functions) :
    p.module f ∈ p.modules ∧ .function f (p.body f) ∈ p.found (p.module f) :=
  (p.mem_functions f _ _).mp ⟨hf, rfl, rfl⟩

/-- The `try` statements of a function are found in its module. -/
theorem attempt_found {f : φ} (hf : f ∈ p.functions) {t : Try φ Expr Expr}
    (ht : .attempt t ∈ (p.body f).ownNodes) : ∃ r, .attempt t r (some f) ∈ p.found (p.module f) := by
  obtain ⟨r, hr⟩ := function_foundInBody .module false _ (module_mem hf).2
  exact ⟨r, hr _ (attempt_foundInBody (.function f) _ ht)⟩

/-- An error of the database came through calls that reach it. -/
theorem reaches_of_throws (hseen : p.Seen isDb l) {e : ε} (hdb : isDb e) {s : Option φ × μ}
    {ns : List (Node φ Expr Expr)} (h : Throws p.program l e s ns) :
    ∃ call ∈ ns.filterMap Node.call?, (p.callTargets s.1 s.2 call = [] ∧ isDbCall call = true) ∨
      ∃ f, .function f ∈ p.callTargets s.1 s.2 call ∧ DbReach.Reaches p.service f := by
  induction h with
  | outside hc he =>
    exact ⟨_, List.mem_filterMap.mpr ⟨_, hc, rfl⟩, .inl (hseen.outside _ _ _ he hdb)⟩
  | @ran s ns c f hc he _ ih =>
    obtain ⟨htarget, hf⟩ := hseen.ran _ _ _ he
    refine ⟨_, List.mem_filterMap.mpr ⟨_, hc, rfl⟩, .inr ⟨f, htarget, ?_⟩⟩
    obtain ⟨call, hcall, ⟨hnone, hdb⟩ | ⟨g, hg, hreach⟩⟩ := ih
    · refine ⟨f, .refl, hf, ?_⟩
      rw [Service.base, Bool.or_eq_true, List.any_eq_true]
      refine .inl ⟨call, hcall, ?_⟩
      rw [Bool.and_eq_true, List.isEmpty_iff]
      exact ⟨hnone, hdb⟩
    · obtain ⟨b, hpath, hb⟩ := hreach
      refine ⟨b, .head ⟨hf, ?_⟩ hpath, hb⟩
      exact List.mem_flatMap.mpr ⟨call, hcall, List.mem_filterMap.mpr ⟨_, hg, rfl⟩⟩

variable [DecidableEq φ] {task : Task φ Expr Expr (Option φ × μ) ε} {o : Ending ε}

/-- A handler that takes a database error is reported, or let pass. -/
theorem caught_reported (hstart : p.Starts task) (hrun : Exec p.program isinstance task l o)
    (hseen : p.Seen isDb l) {c : Catch φ Expr Expr (Option φ × μ) ε} (hc : .caught c ∈ l)
    (hdb : isDb c.error) (hnew : c.current ≠ some c.error) :
    c.scope.2 ∈ p.modules ∧
      (p.Excused isinstance c ∨ ∃ via, ⟨c.handler.lineno, via⟩ ∈ p.swallowed c.scope.2) := by
  have hspec := hrun.caught_spec c hc
  obtain ⟨hmem, r, hfound⟩ : c.scope.2 ∈ p.modules ∧
      ∃ r, .attempt c.attempt r c.scope.1 ∈ p.found c.scope.2 := by
    rcases hspec.stands with ⟨hs, ht⟩ | ⟨s, call, f, hran, hs, ht⟩
    · cases hstart with
      | function hf => exact hs ▸ ⟨(module_mem hf).1, attempt_found hf ht⟩
      | module hm => exact hs ▸ ⟨hm, false, attempt_foundInBody .module _ ht⟩
    · have hf := (hseen.ran _ _ _ hran).2
      exact hs ▸ ⟨(module_mem hf).1, attempt_found hf ht⟩
  refine ⟨hmem, ?_⟩
  have hreach : ∃ names, p.tryReaches c.scope.2 c.attempt c.scope.1 = some names := by
    rcases hspec.thrown with h | h | h
    · exact absurd h hnew
    · exact absurd hdb (hseen.unseen _ h)
    · have hsome := (DbReach.tryReaches_iff p.service _ _).mpr (reaches_of_throws hseen hdb h)
      obtain ⟨via, hvia⟩ := Option.isSome_iff_exists.mp hsome
      exact ⟨via.map p.qualname, by rw [Project.tryReaches, calls, hvia, Option.map_some]⟩
  obtain ⟨after, hlist⟩ := hspec.listed
  have hreported : ∀ v, (⟨c.handler.lineno, v⟩ : SwallowedDbError) ∈
      p.hits c.scope.2 (.attempt c.attempt r c.scope.1) →
      (⟨c.handler.lineno, v⟩ : SwallowedDbError) ∈ p.swallowed c.scope.2 :=
    fun v hv => List.mem_mergeSort.mpr (List.mem_flatMap.mpr ⟨_, hfound, hv⟩)
  simp only [Project.hits, hlist] at hreported
  cases hraise : reraises c.handler with
  | true => exact .inl (.raises hraise)
  | false =>
    obtain ⟨hgeneric, hbroad⟩ := mem_judge hraise
    by_cases hg : (caught c.handler (p.aliases c.scope.2)).any
        (fun e => isGenericSqlalchemy e (p.imports c.scope.2)) = true
    · exact .inr ⟨_, hreported _ (hgeneric hg)⟩
    cases hb : isBroad c.handler (p.aliases c.scope.2) with
    | false => exact .inl (.narrow hb (by simpa using hg))
    | true =>
      by_cases hcredit : ∀ h ∈ c.before, reraisesOutageOnly h (p.aliases c.scope.2) = false
      · obtain ⟨names, hnames⟩ := hreach
        cases r with
        | true =>
          obtain ⟨v, hv⟩ := hbroad [] rfl hb rfl hcredit
          exact .inr ⟨v, hreported v hv⟩
        | false =>
          obtain ⟨v, hv⟩ := hbroad names hnames hb rfl hcredit
          exact .inr ⟨v, hreported v hv⟩
      · obtain ⟨h, hh, hcredit⟩ : ∃ h ∈ c.before, reraisesOutageOnly h (p.aliases c.scope.2) = true := by
          simpa using hcredit
        exact .inl (.credited h hh hcredit (hspec.passed h hh))

variable [DecidableEq μ]

/-- Where the guard passes, every scanned module with a report is exempt. -/
theorem exempt_of_passed {source : μ → Text} {allowlist : OrderedDict μ Exemption}
    (hpass : p.assertNoSwallowedDbErrors source allowlist = .ok ()) {m : μ} (hm : m ∈ p.modules)
    (hscanned : p.scanned m = true) {hit : SwallowedDbError} (hhit : hit ∈ p.swallowed m) :
    (allowlist.get m).isSome = true := by
  have hfound : (m, p.swallowed m) ∈ p.findSwallowedDbErrors := by
    refine List.mem_filter.mpr ⟨List.mem_map.mpr ⟨m, List.mem_filter.mpr ⟨hm, hscanned⟩, rfl⟩, ?_⟩
    simp [List.ne_nil_of_mem hhit]
  by_contra hnone
  rw [Project.assertNoSwallowedDbErrors, check, if_pos] at hpass
  · cases hpass
  · have hmem : (m, p.swallowed m) ∈
        p.findSwallowedDbErrors.filter (fun e => (allowlist.get e.1).isNone) :=
      List.mem_filter.mpr ⟨hfound, by simpa using hnone⟩
    simpa using List.ne_nil_of_mem hmem

/-- Where the guard passes, a database error leaves the function that was called, or something took it
that the guard does not object to. -/
theorem guarded_errors_reach_boundary {source : μ → Text} {allowlist : OrderedDict μ Exemption}
    (hpass : p.assertNoSwallowedDbErrors source allowlist = .ok ()) (hstart : p.Starts task)
    (hrun : Exec p.program isinstance task l o) (hseen : p.Seen isDb l) {s : Option φ × μ} {call : Expr}
    {e : ε} (he : .outside s call e ∈ l) (hdb : isDb e) :
    o.error = some e ∨ .lost e ∈ l ∨ ∃ c, .caught c ∈ l ∧ c.error = e ∧ c.ending.error ≠ some e ∧
      (c.current = some e ∨ p.Excused isinstance c ∨ p.scanned c.scope.2 = false ∨
        (allowlist.get c.scope.2).isSome = true) := by
  rcases hrun.outside_kept s call e he with h | h | ⟨c, hc, rfl, hending⟩
  · exact .inl h
  · exact .inr (.inl h)
  · refine .inr (.inr ⟨c, hc, rfl, hending, ?_⟩)
    by_cases hcur : c.current = some c.error
    · exact .inl hcur
    obtain ⟨hm, hexcused | ⟨via, hvia⟩⟩ := caught_reported hstart hrun hseen hc hdb hcur
    · exact .inr (.inl hexcused)
    · cases hscanned : p.scanned c.scope.2 with
      | false => exact .inr (.inr (.inl rfl))
      | true => exact .inr (.inr (.inr (exempt_of_passed hpass hm hscanned hvia)))

end Runs

/-! ## A service of two functions -/

section Demo

def callExecute : Expr := .attribute (.name (text "session")) (text "execute")

def callFetch : Expr := .name (text "fetch")

def fetchBody : Tree Nat := .cons (.simple [callExecute]) .nil

def handlerBody (again : Bool) : Tree Nat :=
  if again then .cons (.raise true []) .nil else .cons (.leave []) .nil

def loadTry (again : Bool) : Try Nat Expr Expr :=
  ⟨.cons (.leave [callFetch]) .nil,
    .cons 8 (some (.name (text "Exception"))) (handlerBody again) .nil, .nil, .nil⟩

def loadBody (again : Bool) : Tree Nat :=
  .cons (.attempt (loadTry again).body (loadTry again).handlers .nil .nil) .nil

/-- `fetch` asks the database; `load` calls it and takes every error, to raise it again or not. -/
def fetchAndLoad (again : Bool) : Project Nat Nat Nat where
  modules := [0]
  tree _ := .cons (.define (.function 1) fetchBody) (.cons (.define (.function 0) (loadBody again)) .nil)
  importStatements _ := []
  assignments _ := []
  scanned _ := true
  functions := [1, 0]
  body f := if f = 1 then fetchBody else loadBody again
  module _ := 0
  qualname f := text (if f = 1 then "fetch" else "load")
  callTargets _ _ func :=
    match func with
    | .name _ => [.function 1]
    | _ => []
  repository _ := false
  mem_functions := by
    intro f b m
    cases again <;>
    · simp only [foundInBody, foundIn, foundInHandlers, fetchBody, loadBody, loadTry, handlerBody,
        Bool.false_eq_true, if_true, if_false, List.append_nil, List.nil_append, List.cons_append,
        List.mem_cons, List.not_mem_nil, or_false, Found.function.injEq, reduceCtorEq]
      constructor
      · rintro ⟨rfl | rfl, rfl, rfl⟩ <;> simp
      · rintro ⟨rfl, ⟨rfl, rfl⟩ | ⟨rfl, rfl⟩⟩ <;> simp

/-- The handler of `load` is reported if it does not raise the error again. -/
example : ((fetchAndLoad false).found 0).flatMap ((fetchAndLoad false).hits 0) = [⟨8, [text "fetch"]⟩] := by
  decide +kernel

def fetchedCatch : Catch Nat Expr Expr (Option Nat × Nat) Unit :=
  ⟨(some 0, 0), none, loadTry true, [], ⟨8, some (.name (text "Exception")), handlerBody true⟩, (),
    .raised ()⟩

def fetchedLog : List (Event Nat Expr Expr (Option Nat × Nat) Unit) :=
  [.ran (some 0, 0) callFetch 1, .outside (some 1, 0) callExecute (), .caught fetchedCatch]

/-- The error comes out of `fetch` and into the handler of `load`. -/
theorem load_run : Exec (fetchAndLoad true).program (fun _ _ _ => True)
    (.body (some 0, 0) none (loadBody true)) fetchedLog (.raised ()) := by
  have hfetch : Exec (fetchAndLoad true).program (fun _ _ _ => True)
      (.body (some 1, 0) none fetchBody) [.outside (some 1, 0) callExecute ()] (.raised ()) :=
    .stop (.simple (.outside () List.mem_cons_self)) (by simp)
  have hbody : Exec (fetchAndLoad true).program (fun _ _ _ => True)
      (.body (some 0, 0) none (loadTry true).body)
      [.ran (some 0, 0) callFetch 1, .outside (some 1, 0) callExecute ()] (.raised ()) :=
    .stop (.leave (.propagated (f := 1) List.mem_cons_self hfetch)) (by simp)
  have hhandler : Exec (fetchAndLoad true).program (fun _ _ _ => True)
      (.body (some 0, 0) (some ()) (handlerBody true)) [] (.raised ()) :=
    .stop (.reraised .done) (by simp)
  have hguarded : Exec (fetchAndLoad true).program (fun _ _ _ => True)
      (.guarded (some 0, 0) none (loadTry true)) fetchedLog (.raised ()) :=
    .handled hbody rfl (fun _ h => absurd h List.not_mem_nil) trivial hhandler
  exact .stop (.finished hguarded .nil) (by simp)

theorem load_seen : (fetchAndLoad true).Seen (fun _ => True) fetchedLog where
  ran := by
    intro s call f h
    simp only [fetchedLog, List.mem_cons, Event.ran.injEq, reduceCtorEq, List.not_mem_nil, or_false] at h
    obtain ⟨rfl, rfl, rfl⟩ := h
    exact ⟨List.mem_cons_self, List.mem_cons_self⟩
  outside := by
    intro s call e h _
    simp only [fetchedLog, List.mem_cons, Event.outside.injEq, reduceCtorEq, List.not_mem_nil, or_false,
      false_or] at h
    obtain ⟨rfl, rfl, -⟩ := h
    exact ⟨rfl, by decide +kernel⟩
  unseen := by
    intro e h
    simp [fetchedLog] at h

/-- If it does, the guard passes, and an error of `fetch` leaves `load`. -/
theorem raised_error_leaves_load : ∃ o : Ending Unit,
    Exec (fetchAndLoad true).program (fun _ _ _ => True) (.body (some 0, 0) none (loadBody true))
      fetchedLog o ∧
    (o.error = some () ∨ .lost () ∈ fetchedLog ∨ ∃ c, .caught c ∈ fetchedLog ∧
      c.error = () ∧ c.ending.error ≠ some () ∧
      (c.current = some () ∨ (fetchAndLoad true).Excused (fun _ _ _ => True) c ∨
        (fetchAndLoad true).scanned c.scope.2 = false ∨
        ((OrderedDict.empty : OrderedDict Nat Exemption).get c.scope.2).isSome = true)) := by
  have hhits : ((fetchAndLoad true).found 0).flatMap ((fetchAndLoad true).hits 0) = [] := rfl
  have hpass : (fetchAndLoad true).assertNoSwallowedDbErrors (fun _ => []) .empty = .ok () := by
    have hnone : (fetchAndLoad true).swallowed 0 = [] := by
      rw [Project.swallowed, hhits, List.mergeSort_nil]
    have hall : (fetchAndLoad true).findSwallowedDbErrors =
        [(0, (fetchAndLoad true).swallowed 0)].filter (fun e => !e.2.isEmpty) := rfl
    rw [hnone] at hall
    rw [Project.assertNoSwallowedDbErrors, hall]
    rfl
  exact ⟨_, load_run, guarded_errors_reach_boundary hpass
    (.function (List.mem_cons_of_mem _ List.mem_cons_self)) load_run load_seen
    (List.mem_cons_of_mem _ List.mem_cons_self) trivial⟩

end Demo

end SwallowedErrors
end Testing
end TrShared
