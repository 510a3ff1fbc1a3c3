import TrShared.Python.Text
import TrShared.Testing.ErrorCategories

/-!
# TrShared.Testing.ClassFamily

`_class_family` of the guards: the class names that descend from the roots, over all files. The
definitions of all files go into one table, where a later definition of a name replaces an earlier one,
and the names are closed under that table.

* `mem_classFamily_iff`: the result is the family of the last definition of each name.
* `familyExact_iff`: it is the family of all definitions, in every order of the files, exactly when every
  member stays one by the last definitions alone.
* `familyExact_iff_of_acyclic`: without cyclic inheritance, exactly when in every file the last
  definition of each member has a base in the family; `familyExact_of_same_bases`: always where no name
  is defined twice with different bases.
-/

namespace TrShared
namespace Testing
namespace Guards

open Machine Python Relation

section Modules

/-- `name` or `name as asname` of an import. -/
structure Alias where
  name : Text
  asname : Option Text

inductive Import where
  /-- `from module import …`; no module for `from . import …` -/
  | fromImport (module : Option Text) (names : List Alias)
  | plain (names : List Alias)

/-- What a base of a class is written as. -/
inductive BaseExpr where
  | name (id : Text)
  | attribute (attr : Text)
  | other

structure ClassDef where
  name : Text
  bases : List BaseExpr

/-- A parsed file: its imports and its classes, in the order of `ast.walk`. -/
structure Module where
  imports : List Import
  classes : List ClassDef

/-- One statement of `_imports`. -/
def addImport (origins : OrderedDict Text Text) : Import → OrderedDict Text Text
  | .fromImport none _ => origins
  | .fromImport (some module) names =>
    if module = [] then origins
    else names.foldl (fun d a => d.set (a.asname.getD a.name) (module ++ [dot] ++ a.name)) origins
  | .plain names =>
    names.foldl (fun d a =>
      match a.asname with
      | some asname => d.set asname a.name
      | none => d.set (partition dot a.name).1 (partition dot a.name).1) origins

/-- `_imports`. -/
def imports (m : Module) : OrderedDict Text Text := m.imports.foldl addImport .empty

/-- `_tail_name`. -/
def tailName : BaseExpr → Text
  | .name id => id
  | .attribute attr => attr
  | .other => []

/-- `real.get(base, base)` with `_real_names`: the last part of where a name is imported from. -/
def realName (m : Module) (base : Text) : Text := ((imports m).get base).elim base (afterLast dot)

/-- `_class_definitions`. -/
def classDefinitions (m : Module) : List (Definition Text) :=
  m.classes.map (fun c => (c.name, c.bases.map (fun b => realName m (tailName b))))

end Modules

section Family

/-- `parents`: what is left of the definitions of all files. -/
def parents (modules : List Module) : OrderedDict Text (List Text) :=
  (modules.flatMap classDefinitions).foldl (fun d e => d.set e.1 e.2) .empty

/-- `{cls for cls, bases in parents.items() if bases & names} - names - exclude`. -/
def grown (parents : OrderedDict Text (List Text)) (exclude names : List Text) : List Text :=
  (parents.entries.filter (fun e => e.2.any (fun b => decide (b ∈ names)))).map Prod.fst
    |>.filter (fun n => decide (n ∉ names ∧ n ∉ exclude))

def growRound (parents : OrderedDict Text (List Text)) (exclude names : List Text) : List Text × Bool :=
  (names ++ grown parents exclude names, !(grown parents exclude names).isEmpty)

/-- `_class_family`, and whether its loop ended. -/
def classFamily (modules : List Module) (roots exclude : List Text) : List Text × Bool :=
  rounds (growRound (parents modules) exclude) ((parents modules).size + 1) roots

/-- The names that descend from the roots by some of the definitions: the least set with the roots and
with every name that is not excluded and has a definition with a base in the set. -/
inductive Family (definitions : List (Definition Text)) (roots exclude : List Text) : Text → Prop where
  | root {n : Text} : n ∈ roots → Family definitions roots exclude n
  | member {n base : Text} : Extends definitions n base → n ∉ exclude →
      Family definitions roots exclude base → Family definitions roots exclude n

theorem family_least {definitions : List (Definition Text)} {roots exclude : List Text} {s : Text → Prop}
    (hroots : ∀ n ∈ roots, s n)
    (hclosed : ∀ n base, Extends definitions n base → n ∉ exclude → s base → s n) {n : Text}
    (h : Family definitions roots exclude n) : s n := by
  induction h with
  | root hn => exact hroots _ hn
  | member hbase hexclude _ ih => exact hclosed _ _ hbase hexclude ih

/-- The last definition of each name. -/
def lastDefinitions : List (Definition Text) → List (Definition Text)
  | [] => []
  | e :: definitions =>
    if e.1 ∈ definitions.map Prod.fst then lastDefinitions definitions
    else e :: lastDefinitions definitions

theorem mem_of_mem_lastDefinitions {definitions : List (Definition Text)} {e : Definition Text}
    (h : e ∈ lastDefinitions definitions) : e ∈ definitions := by
  induction definitions with
  | nil => exact h
  | cons e' definitions ih =>
    rw [lastDefinitions] at h
    split at h
    · exact List.mem_cons_of_mem _ (ih h)
    · rcases List.mem_cons.mp h with rfl | h
      · simp
      · exact List.mem_cons_of_mem _ (ih h)

theorem mem_foldl_set (definitions : List (Definition Text)) (d : OrderedDict Text (List Text))
    (e : Definition Text) :
    e ∈ (definitions.foldl (fun d e => d.set e.1 e.2) d).entries ↔
      e ∈ lastDefinitions definitions ∨ (e ∈ d.entries ∧ e.1 ∉ definitions.map Prod.fst) := by
  induction definitions generalizing d with
  | nil => simp [lastDefinitions]
  | cons e' definitions ih =>
    obtain ⟨n, bases⟩ := e
    rw [List.foldl_cons, ih, OrderedDict.mem_set, lastDefinitions]
    simp only [List.map_cons, List.mem_cons, not_or]
    by_cases hlater : e'.1 ∈ definitions.map Prod.fst
    · rw [if_pos hlater]
      have hne : n ∉ definitions.map Prod.fst → n ≠ e'.1 := by
        rintro hn rfl
        exact hn hlater
      tauto
    · rw [if_neg hlater, List.mem_cons]
      have heq : (n, bases) = e' ↔ n = e'.1 ∧ bases = e'.2 := by
        rw [Prod.ext_iff]
      rw [heq]
      have hfirst : n = e'.1 → n ∉ definitions.map Prod.fst := by
        rintro rfl
        exact hlater
      tauto

theorem mem_parents (modules : List Module) (e : Definition Text) :
    e ∈ (parents modules).entries ↔ e ∈ lastDefinitions (modules.flatMap classDefinitions) := by
  rw [parents, mem_foldl_set]
  simp

theorem mem_grown {parents : OrderedDict Text (List Text)} {exclude names : List Text} {n : Text} :
    n ∈ grown parents exclude names ↔
      (∃ base, Extends parents.entries n base ∧ base ∈ names) ∧ n ∉ names ∧ n ∉ exclude := by
  simp only [grown, List.mem_filter, List.mem_map, List.any_eq_true, decide_eq_true_eq, Extends]
  refine and_congr_left' ?_
  constructor
  · rintro ⟨⟨n, bases⟩, ⟨he, base, hbase, hname⟩, rfl⟩
    exact ⟨base, ⟨bases, he, hbase⟩, hname⟩
  · rintro ⟨base, ⟨bases, he, hbase⟩, hname⟩
    exact ⟨(n, bases), ⟨he, base, hbase, hname⟩, rfl⟩

/-- How many classes are not in the family yet. -/
def outside (parents : OrderedDict Text (List Text)) (names : List Text) : Nat :=
  parents.keys.countP (fun n => decide (n ∉ names))

theorem outside_growRound {parents : OrderedDict Text (List Text)} {exclude names : List Text}
    (h : (growRound parents exclude names).2 = true) :
    outside parents (growRound parents exclude names).1 < outside parents names := by
  simp only [growRound, Bool.not_eq_true', List.isEmpty_eq_false_iff_exists_mem] at h
  obtain ⟨n, hn⟩ := h
  obtain ⟨⟨base, ⟨bases, he, -⟩, -⟩, hnames, -⟩ := mem_grown.mp hn
  refine countP_lt ?_ (List.mem_map_of_mem he) (by simpa using hnames) ?_
  · intro m _ hm
    simp only [growRound, List.mem_append, not_or, decide_eq_true_eq] at hm ⊢
    exact hm.1
  · simpa [growRound] using fun _ => hn

/-- What the rounds keep: the names have the roots, and nothing that is not in the family. -/
def FamilyPart (modules : List Module) (roots exclude names : List Text) : Prop :=
  (∀ n ∈ roots, n ∈ names) ∧
    ∀ n ∈ names, Family (lastDefinitions (modules.flatMap classDefinitions)) roots exclude n

/-- The loop ends with the family of the last definitions. -/
theorem mem_classFamily_iff (modules : List Module) (roots exclude : List Text) :
    (classFamily modules roots exclude).2 = true ∧
    ∀ n, n ∈ (classFamily modules roots exclude).1 ↔
      Family (lastDefinitions (modules.flatMap classDefinitions)) roots exclude n := by
  have hextends : Extends (parents modules).entries =
      Extends (lastDefinitions (modules.flatMap classDefinitions)) := by
    funext n base
    simp only [Extends, mem_parents]
  have hstep : ∀ names : List Text, FamilyPart modules roots exclude names →
      FamilyPart modules roots exclude (growRound (parents modules) exclude names).1 := by
    rintro names ⟨hroots, hfamily⟩
    refine ⟨fun n hn => List.mem_append_left _ (hroots n hn), ?_⟩
    intro n hn
    rcases List.mem_append.mp hn with hn | hn
    · exact hfamily n hn
    · obtain ⟨⟨base, hbase, hmem⟩, -, hexclude⟩ := mem_grown.mp hn
      rw [hextends] at hbase
      exact .member hbase hexclude (hfamily base hmem)
  have hbound : outside (parents modules) roots < (parents modules).size + 1 := by
    rw [OrderedDict.size_eq_length_keys]
    exact Nat.lt_succ_of_le List.countP_le_length
  obtain ⟨names, ⟨hroots, hfamily⟩, hstop, heq⟩ := rounds_of_measure hstep
    (fun _ _ h => outside_growRound h) ⟨fun _ hn => hn, fun _ hn => .root hn⟩ hbound
  have hnone : grown (parents modules) exclude names = [] := by
    simpa [growRound] using hstop
  have hsame : (growRound (parents modules) exclude names).1 = names := by
    rw [growRound, hnone, List.append_nil]
  rw [classFamily, heq, hsame]
  refine ⟨rfl, fun n => ⟨hfamily n, family_least hroots ?_⟩⟩
  intro n base hbase hexclude hmem
  by_contra hn
  have hgrown : n ∈ grown (parents modules) exclude names :=
    mem_grown.mpr ⟨⟨base, by rwa [hextends], hmem⟩, hn, hexclude⟩
  rw [hnone] at hgrown
  cases hgrown

end Family

section Exact

variable {roots exclude : List Text}

/-- In every order of the files the loop ends with the family of all their definitions. -/
def FamilyExact (modules : List Module) (roots exclude : List Text) : Prop :=
  ∀ modules' : List Module, modules'.Perm modules → (classFamily modules' roots exclude).2 = true ∧
    ∀ n, n ∈ (classFamily modules' roots exclude).1 ↔
      Family (modules.flatMap classDefinitions) roots exclude n

theorem family_mono {definitions definitions' : List (Definition Text)}
    (h : ∀ e ∈ definitions, e ∈ definitions') {n : Text} (hn : Family definitions roots exclude n) :
    Family definitions' roots exclude n := by
  induction hn with
  | root hn => exact .root hn
  | member hbase hexclude _ ih =>
    obtain ⟨bases, he, hmem⟩ := hbase
    exact .member ⟨bases, h _ he, hmem⟩ hexclude ih

theorem family_of_last {modules modules' : List Module} (hperm : modules'.Perm modules) {n : Text}
    (h : Family (lastDefinitions (modules'.flatMap classDefinitions)) roots exclude n) :
    Family (modules.flatMap classDefinitions) roots exclude n :=
  family_mono
    (fun _ he => (hperm.flatMap_right classDefinitions).mem_iff.mp (mem_of_mem_lastDefinitions he)) h

theorem FamilyExact.family_last {modules modules' : List Module} (h : FamilyExact modules roots exclude)
    (hperm : modules'.Perm modules) {n : Text}
    (hn : Family (modules.flatMap classDefinitions) roots exclude n) :
    Family (lastDefinitions (modules'.flatMap classDefinitions)) roots exclude n :=
  ((mem_classFamily_iff modules' roots exclude).2 n).mp (((h modules' hperm).2 n).mpr hn)

theorem familyExact_of_last {modules : List Module}
    (h : ∀ modules' : List Module, modules'.Perm modules → ∀ n,
      Family (modules.flatMap classDefinitions) roots exclude n →
        Family (lastDefinitions (modules'.flatMap classDefinitions)) roots exclude n) :
    FamilyExact modules roots exclude := by
  intro modules' hperm
  obtain ⟨hends, hmem⟩ := mem_classFamily_iff modules' roots exclude
  exact ⟨hends, fun n => (hmem n).trans ⟨family_of_last hperm, h modules' hperm n⟩⟩

theorem familyExact_iff (modules : List Module) (roots exclude : List Text) :
    FamilyExact modules roots exclude ↔
      ∀ modules' : List Module, modules'.Perm modules → ∀ n,
        Family (modules.flatMap classDefinitions) roots exclude n →
          Family (lastDefinitions (modules'.flatMap classDefinitions)) roots exclude n := by
  constructor
  · intro h modules' hperm n hn
    exact h.family_last hperm hn
  · exact familyExact_of_last

end Exact

section Acyclic

variable {roots exclude : List Text}

theorem mem_lastDefinitions_append {a b : List (Definition Text)} {e : Definition Text} :
    e ∈ lastDefinitions (a ++ b) ↔
      e ∈ lastDefinitions b ∨ (e ∈ lastDefinitions a ∧ e.1 ∉ b.map Prod.fst) := by
  induction a with
  | nil => simp [lastDefinitions]
  | cons e' a ih =>
    have hmap : e'.1 ∈ (a ++ b).map Prod.fst ↔ e'.1 ∈ a.map Prod.fst ∨ e'.1 ∈ b.map Prod.fst := by
      rw [List.map_append, List.mem_append]
    rw [List.cons_append, lastDefinitions, lastDefinitions]
    by_cases ha : e'.1 ∈ a.map Prod.fst
    · rw [if_pos (hmap.mpr (.inl ha)), if_pos ha, ih]
    · by_cases hb : e'.1 ∈ b.map Prod.fst
      · rw [if_pos (hmap.mpr (.inr hb)), if_neg ha, ih, List.mem_cons]
        have hfirst : e = e' → e.1 ∈ b.map Prod.fst := by
          rintro rfl
          exact hb
        tauto
      · rw [if_neg (fun h => (hmap.mp h).elim ha hb), if_neg ha, List.mem_cons, List.mem_cons, ih]
        have hfirst : e = e' → e.1 ∉ b.map Prod.fst := by
          rintro rfl
          exact hb
        tauto

theorem exists_lastDefinition {definitions : List (Definition Text)} {n : Text}
    (h : n ∈ definitions.map Prod.fst) : ∃ bases, (n, bases) ∈ lastDefinitions definitions := by
  induction definitions with
  | nil => cases h
  | cons e definitions ih =>
    rw [lastDefinitions]
    split
    · rename_i hlater
      rw [List.map_cons, List.mem_cons] at h
      rcases h with rfl | h
      · exact ih hlater
      · exact ih h
    · rw [List.map_cons, List.mem_cons] at h
      rcases h with rfl | h
      · exact ⟨e.2, by simp⟩
      · obtain ⟨bases, hb⟩ := ih h
        exact ⟨bases, List.mem_cons_of_mem _ hb⟩

theorem lastDefinition_unique {definitions : List (Definition Text)} {n : Text} {bases bases' : List Text}
    (h : (n, bases) ∈ lastDefinitions definitions) (h' : (n, bases') ∈ lastDefinitions definitions) :
    bases = bases' := by
  induction definitions with
  | nil => cases h
  | cons e definitions ih =>
    rw [lastDefinitions] at h h'
    split at h
    · rename_i hlater
      rw [if_pos hlater] at h'
      exact ih h h'
    · rename_i hlast
      have hnot : ∀ bases, e = (n, bases) → ∀ bases', (n, bases') ∉ lastDefinitions definitions := by
        rintro _ rfl bases' hb
        exact hlast (List.mem_map.mpr ⟨_, mem_of_mem_lastDefinitions hb, rfl⟩)
      rw [if_neg hlast] at h'
      rcases List.mem_cons.mp h with h | h
      · rcases List.mem_cons.mp h' with h' | h'
        · exact congrArg Prod.snd (h.trans h'.symm)
        · exact absurd h' (hnot bases h.symm bases')
      · rcases List.mem_cons.mp h' with h' | h'
        · exact absurd h (hnot bases' h'.symm bases)
        · exact ih h h'

theorem exists_module_of_last {modules : List Module} {e : Definition Text}
    (h : e ∈ lastDefinitions (modules.flatMap classDefinitions)) :
    ∃ m ∈ modules, e ∈ lastDefinitions (classDefinitions m) := by
  induction modules with
  | nil => cases h
  | cons m modules ih =>
    rw [List.flatMap_cons, mem_lastDefinitions_append] at h
    rcases h with h | ⟨h, -⟩
    · obtain ⟨m', hm', he⟩ := ih h
      exact ⟨m', List.mem_cons_of_mem _ hm', he⟩
    · exact ⟨m, by simp, h⟩

/-- A member that is no root is defined, not excluded, and has a base in the family. -/
theorem family_cases {definitions : List (Definition Text)} {n : Text}
    (h : Family definitions roots exclude n)
    (hroot : n ∉ roots) :
    n ∉ exclude ∧ ∃ base, Extends definitions n base ∧ Family definitions roots exclude base := by
  cases h with
  | root hn => exact absurd hn hroot
  | member hbase hexclude hfamily => exact ⟨hexclude, _, hbase, hfamily⟩

/-- Without cyclic inheritance it is enough to look at each definition that can be the last one. -/
theorem familyExact_iff_of_acyclic {modules : List Module}
    (hacyclic : ∀ n, ¬ TransGen (Extends (modules.flatMap classDefinitions)) n n) :
    FamilyExact modules roots exclude ↔
      ∀ n, Family (modules.flatMap classDefinitions) roots exclude n → n ∉ roots →
        ∀ m ∈ modules, ∀ bases, (n, bases) ∈ lastDefinitions (classDefinitions m) →
          ∃ base ∈ bases, Family (modules.flatMap classDefinitions) roots exclude base := by
  constructor
  · intro h n hn hroot m hm bases hlast
    -- the order in which `m` is visited last
    obtain ⟨before, after, rfl⟩ := List.append_of_mem hm
    have hperm : (before ++ after ++ [m]).Perm (before ++ m :: after) := by
      rw [List.append_assoc]
      exact (List.perm_append_singleton m after).append_left before
    have hfamily := h.family_last hperm hn
    obtain ⟨-, base, ⟨bases', hlast', hmem⟩, hbase⟩ := family_cases hfamily hroot
    have hlast'' : (n, bases) ∈ lastDefinitions ((before ++ after ++ [m]).flatMap classDefinitions) := by
      rw [List.flatMap_append, mem_lastDefinitions_append]
      exact .inl (by simpa using hlast)
    obtain rfl := lastDefinition_unique hlast'' hlast'
    exact ⟨base, hmem, family_of_last hperm hbase⟩
  · intro h
    refine familyExact_of_last ?_
    intro modules' hperm n hn
    have hdefinitions := hperm.flatMap_right classDefinitions
    have hdepth := depthLe_length hacyclic n
    generalize (modules.flatMap classDefinitions).length = k at hdepth
    induction k generalizing n with
    | zero =>
      by_cases hroot : n ∈ roots
      · exact .root hroot
      · obtain ⟨-, base, ⟨bases, hb, -⟩, -⟩ := family_cases hn hroot
        exact absurd hb (hdepth bases)
    | succ k ih =>
      by_cases hroot : n ∈ roots
      · exact .root hroot
      · obtain ⟨hexclude, base, ⟨bases, hb, -⟩, -⟩ := family_cases hn hroot
        obtain ⟨bases', hlast⟩ := exists_lastDefinition
          (List.mem_map.mpr ⟨_, hdefinitions.mem_iff.mpr hb, rfl⟩ :
            n ∈ (modules'.flatMap classDefinitions).map Prod.fst)
        obtain ⟨m, hm, hlastm⟩ := exists_module_of_last hlast
        obtain ⟨base', hmem, hfamily⟩ := h n hn hroot m (hperm.mem_iff.mp hm) bases' hlastm
        have hbase' : Extends (modules.flatMap classDefinitions) n base' :=
          ⟨bases', hdefinitions.mem_iff.mp (mem_of_mem_lastDefinitions hlast), hmem⟩
        exact .member ⟨bases', hlast, hmem⟩ hexclude (ih base' hfamily (hdepth base' hbase'))

/-- Nothing is lost where no class name is defined twice with different bases. -/
theorem familyExact_of_same_bases {modules : List Module}
    (hsame : ∀ e ∈ modules.flatMap classDefinitions, ∀ e' ∈ modules.flatMap classDefinitions,
      e.1 = e'.1 → e.2 = e'.2) : FamilyExact modules roots exclude := by
  refine familyExact_of_last ?_
  intro modules' hperm n hn
  have hdefinitions := hperm.flatMap_right classDefinitions
  induction hn with
  | root hn => exact .root hn
  | @member n base hbase hexclude _ ih =>
    obtain ⟨bases, he, hmem⟩ := hbase
    obtain ⟨bases', hlast⟩ := exists_lastDefinition
      (List.mem_map.mpr ⟨_, hdefinitions.mem_iff.mpr he, rfl⟩ :
        n ∈ (modules'.flatMap classDefinitions).map Prod.fst)
    have hlast' := hdefinitions.mem_iff.mp (mem_of_mem_lastDefinitions hlast)
    obtain rfl : bases = bases' := hsame _ he _ hlast' rfl
    exact .member ⟨bases, hlast, hmem⟩ hexclude ih

end Acyclic

section Counterexample

/-- `class AppError(HTTPException)` in one file, `class AppError(ValueError)` in the next. -/
def twoFiles : List Module :=
  [⟨[], [⟨text "AppError", [.name (text "HTTPException")]⟩]⟩,
   ⟨[], [⟨text "AppError", [.name (text "ValueError")]⟩]⟩]

theorem not_familyExact_twoFiles :
    ¬ ∀ (modules : List Module) (roots exclude : List Text), FamilyExact modules roots exclude := by
  intro h
  have hmem := ((h twoFiles [text "HTTPException"] [text "BaseAPIException"]) twoFiles (.refl _)).2
    (text "AppError")
  have hfamily : Family (twoFiles.flatMap classDefinitions) [text "HTTPException"] [text "BaseAPIException"]
      (text "AppError") :=
    @Family.member _ _ _ _ (text "HTTPException") ⟨[text "HTTPException"], by decide +kernel, by decide⟩
      (by decide) (.root (by decide))
  have hnot :
      text "AppError" ∉ (classFamily twoFiles [text "HTTPException"] [text "BaseAPIException"]).1 := by
    decide +kernel
  exact hnot (hmem.mpr hfamily)

end Counterexample

end Guards
end Testing
end TrShared
