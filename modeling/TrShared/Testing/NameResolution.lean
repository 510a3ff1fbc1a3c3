import Mathlib.Data.Finset.Card
import Mathlib.Data.Fintype.Basic
import TrShared.Machine.Recursion
import TrShared.Python.OrderedDict
import TrShared.Python.Text
import TrShared.Testing.DbReach

/-!
# TrShared.Testing.NameResolution

How `DbReach` finds what a call means: a dozen functions that call each other, over whatever the parsed
modules contain. A depth is handed from call to call; some of the functions refuse a depth over
`_MAX_DEPTH`, some hand it on as it is, some never look at it.

`resolution_terminates`: every call ends. The calls go down in `Weight`: the depth that is left, then
the rank of the function, then the size of what it works on.
-/

namespace TrShared
namespace Testing
namespace DbReach

open Machine Machine.Prog Python

section Model

/-- `ast.expr`, as far as it is told apart. -/
inductive Expr where
  | name (id : Text)
  | attribute (value : Expr) (attr : Text)
  /-- a constant that is a string -/
  | str (value : Text)
  | binOp (left right : Expr)
  | subscript (value slice : Expr)
  | tuple (elts : List Expr)
  | await (value : Expr)
  | boolOp (values : List Expr)
  | ifExp (body orelse : Expr)
  | call (func : Expr)
  | other

variable (φ κ μ : Type)

/-- `_Module`. -/
structure ModuleInfo where
  name : Text
  functions : OrderedDict Text φ
  classes : OrderedDict Text κ
  values : OrderedDict Text Expr
  annotations : OrderedDict Text Expr
  imports : OrderedDict Text (Text × Option Text)

/-- `_Class`. An attribute has what it is assigned or annotated with, whether that is an annotation, and
the method it stands in. -/
structure ClassInfo where
  bases : List Expr
  module : μ
  methods : OrderedDict Text φ
  attributes : OrderedDict Text (List (Expr × Bool × Option φ))
  parents : List κ
  children : List κ

/-- `_Function`. -/
structure FunctionInfo where
  returns : Option Expr
  /-- `_parameters(node)` -/
  parameters : List Text
  stub : Bool
  module : μ
  owner : Option κ
  outer : Option φ
  nested : OrderedDict Text φ
  values : OrderedDict Text Expr
  annotations : OrderedDict Text Expr
  imports : OrderedDict Text (Text × Option Text)

/-- What was collected from the sources, with `ast.parse` and `ast.unparse` of expressions. A nested
function is collected while its outer one is, so it lies on a deeper level. -/
structure World where
  modules : OrderedDict Text μ
  module : μ → ModuleInfo φ κ
  cls : κ → ClassInfo φ κ μ
  function : φ → FunctionInfo φ κ μ
  implementations : OrderedDict Text (List φ)
  level : φ → Nat
  outer_level : ∀ f g, (function f).outer = some g → level g < level f
  parse : Text → Option Expr
  unparse : Expr → Text

/-- `_Symbol`; a value comes with the place where it was found. -/
inductive Symbol where
  | function (f : φ)
  | cls (c : κ)
  | module (m : μ)
  | value (e : Expr) (annotated : Bool) (scope : Option φ) (module : μ)

/-- The functions with their arguments; a loop is a function of its state. -/
inductive Query where
  | moduleSymbol (moduleName name : Text) (depth : Int)
  | imported (origin : Text × Option Text) (depth : Int)
  | lookup (name : Text) (current : Option φ) (module : μ) (depth : Int)
  | annotationClasses (ann : Expr) (module : μ) (scope : Option φ) (depth : Int)
  | typeObjectClasses (ann : Option Expr) (module : μ) (depth : Int)
  | expressionSymbol (expression : Expr) (scope : Option φ) (module : μ) (depth : Int)
  | symbolInstances (symbol : Option (Symbol φ κ μ)) (depth : Int)
  | instances (expression : Expr) (scope : Option φ) (module : μ) (depth : Int)
  | attributeInstances (owners : List κ) (name : Text) (depth : Int)
  | classObjects (expression : Expr) (scope : Option φ) (module : μ) (depth : Int)
  | functionsCalled (func : Expr) (scope : Option φ) (module : μ) (depth : Int)
  | callTargets (func : Expr) (scope : Option φ) (module : μ) (depth : Int)
  | enclosingClass (current : Option φ)
  | mro (c : κ)
  | mroLoop (order stack : List κ)
  | descendants (c : κ)
  | descendantsLoop (found stack : List κ)
  | methods (classes : List κ) (name : Text)
  | conforms (c protocol : κ)

variable {φ κ μ}

abbrev Answer : Query φ κ μ → Type
  | .moduleSymbol .. => Option (Symbol φ κ μ)
  | .imported .. => Option (Symbol φ κ μ)
  | .lookup .. => Option (Symbol φ κ μ)
  | .annotationClasses .. => List κ
  | .typeObjectClasses .. => List κ
  | .expressionSymbol .. => Option (Symbol φ κ μ)
  | .symbolInstances .. => List κ
  | .instances .. => List κ
  | .attributeInstances .. => List κ
  | .classObjects .. => List κ
  | .functionsCalled .. => List φ
  | .callTargets .. => List (Target φ κ)
  | .enclosingClass .. => Option κ
  | .mro .. => List κ
  | .mroLoop .. => List κ
  | .descendants .. => List κ
  | .descendantsLoop .. => List κ
  | .methods .. => List φ
  | .conforms .. => Bool

abbrev Body (φ κ μ β : Type) := Prog (Query φ κ μ) Answer β

abbrev call (q : Query φ κ μ) : Body φ κ μ (Answer q) := ask q

def unionHeads : List Text := ["Optional", "Union", "Annotated"].map text

def typeHeads : List Text := ["type", "Type"].map text

variable (w : World φ κ μ)

def moduleSymbol (moduleName name : Text) (depth : Int) : Body φ κ μ (Option (Symbol φ κ μ)) :=
  let submodule := (w.modules.get (moduleName ++ [dot] ++ name)).map .module
  if maxDepth < depth then return none
  else
    match w.modules.get moduleName with
    | none => return submodule
    | some m =>
      match (w.module m).functions.get name with
      | some f => return some (.function f)
      | none =>
        match (w.module m).classes.get name with
        | some c => return some (.cls c)
        | none =>
          match (w.module m).annotations.get name with
          | some e => return some (.value e true none m)
          | none =>
            match (w.module m).values.get name with
            | some e => return some (.value e false none m)
            | none =>
              match (w.module m).imports.get name with
              | some origin => call (.imported origin (depth + 1))
              | none => return submodule

def imported (origin : Text × Option Text) (depth : Int) : Body φ κ μ (Option (Symbol φ κ μ)) :=
  match origin.2 with
  | none => return (w.modules.get origin.1).map .module
  | some attr => call (.moduleSymbol origin.1 attr depth)

/-- One scope of the loop of `_lookup`. -/
def lookup (name : Text) (current : Option φ) (module : μ) (depth : Int) :
    Body φ κ μ (Option (Symbol φ κ μ)) :=
  match current with
  | none => call (.moduleSymbol (w.module module).name name depth)
  | some f =>
    match (w.function f).nested.get name with
    | some g => return some (.function g)
    | none =>
      match (w.function f).annotations.get name with
      | some e => return some (.value e true (some f) (w.function f).module)
      | none =>
        match (w.function f).values.get name with
        | some e => return some (.value e false (some f) (w.function f).module)
        | none =>
          match (w.function f).imports.get name with
          | some origin => call (.imported origin (depth + 1))
          | none => call (.lookup name (w.function f).outer module depth)

def classOf : Option (Symbol φ κ μ) → List κ
  | some (.cls c) => [c]
  | _ => []

/-- The items of a subscript that are looked into. -/
def subscriptItems (head : Text) (slice : Expr) : List Expr :=
  let items :=
    match slice with
    | .tuple elts => elts
    | e => [e]
  if head = text "Annotated" then items.take 1 else items

def annotationClasses (ann : Expr) (module : μ) (scope : Option φ) (depth : Int) :
    Body φ κ μ (List κ) :=
  if maxDepth < depth then return []
  else
    let parsed :=
      match ann with
      | .str value => w.parse value
      | e => some e
    match parsed with
    | none => return []
    | some (.binOp left right) => do
      let l ← call (.annotationClasses left module scope (depth + 1))
      let r ← call (.annotationClasses right module scope (depth + 1))
      return l ++ r
    | some (.subscript value slice) =>
      let head := afterLast dot (w.unparse value)
      if head ∈ unionHeads then
        collect (subscriptItems head slice)
          (fun item => call (.annotationClasses item module scope (depth + 1)))
      else return []
    | some e => do
      let symbol ← call (.expressionSymbol e scope module (depth + 1))
      return classOf symbol

def typeObjectClasses (ann : Option Expr) (module : μ) (depth : Int) : Body φ κ μ (List κ) :=
  match ann with
  | some (.subscript value slice) =>
    if afterLast dot (w.unparse value) ∈ typeHeads then
      call (.annotationClasses slice module none (depth + 1))
    else return []
  | _ => return []

def expressionSymbol (expression : Expr) (scope : Option φ) (module : μ) (depth : Int) :
    Body φ κ μ (Option (Symbol φ κ μ)) :=
  match expression with
  | .name id => call (.lookup id scope module depth)
  | .attribute value attr => do
    let base ← call (.expressionSymbol value scope module (depth + 1))
    match base with
    | some (.module m) => call (.moduleSymbol (w.module m).name attr (depth + 1))
    | _ => return none
  | _ => return none

def symbolInstances (symbol : Option (Symbol φ κ μ)) (depth : Int) : Body φ κ μ (List κ) :=
  match symbol with
  | some (.value e true scope module) => call (.annotationClasses e module scope (depth + 1))
  | some (.value e false scope module) => call (.instances e scope module (depth + 1))
  | _ => return []

/-- The annotations of what the called functions return, in the call branch of `_instances`. -/
def returnedClasses (functions : List φ) (depth : Int) : Body φ κ μ (List κ) :=
  collect functions (fun f =>
    match (w.function f).returns with
    | some returns => call (.annotationClasses returns (w.function f).module none (depth + 1))
    | none => return [])

/-- `self.attr`, with the class that the scope stands in. -/
def selfAttribute (scope : Option φ) : Expr → Option (φ × Text)
  | .attribute (.name id) attr => if id = text "self" then scope.map (fun f => (f, attr)) else none
  | _ => none

def instances (expression : Expr) (scope : Option φ) (module : μ) (depth : Int) : Body φ κ μ (List κ) :=
  if maxDepth < depth then return []
  else
    match expression with
    | .await value => call (.instances value scope module (depth + 1))
    | .boolOp values => collect values (fun value => call (.instances value scope module (depth + 1)))
    | .ifExp body orelse => do
      let l ← call (.instances body scope module (depth + 1))
      let r ← call (.instances orelse scope module (depth + 1))
      return l ++ r
    | .call func => do
      let classes ← call (.classObjects func scope module (depth + 1))
      let functions ← call (.functionsCalled func scope module (depth + 1))
      let returned ← returnedClasses w functions depth
      return classes ++ returned
    | .attribute value attr =>
      match selfAttribute scope (.attribute value attr) with
      | some (f, attr) => do
        let owner ← call (.enclosingClass (some f))
        match owner with
        | some owner => call (.attributeInstances [owner] attr depth)
        | none => return []
      | none => do
        let symbol ← call (.expressionSymbol (.attribute value attr) scope module (depth + 1))
        match symbol with
        | some symbol => call (.symbolInstances (some symbol) depth)
        | none => do
          let owners ← call (.instances value scope module (depth + 1))
          call (.attributeInstances owners attr depth)
    | .name id => do
      let symbol ← call (.lookup id scope module depth)
      call (.symbolInstances symbol depth)
    | _ => return []

def attributeInstances (owners : List κ) (name : Text) (depth : Int) : Body φ κ μ (List κ) :=
  collect owners (fun owner => do
    let order ← call (.mro owner)
    collect order (fun c =>
      collect (((w.cls c).attributes.get name).getD []) (fun (e, annotated, scope) =>
        call (.symbolInstances (some (.value e annotated scope (w.cls c).module)) (depth + 1)))))

def classObjects (expression : Expr) (scope : Option φ) (module : μ) (depth : Int) :
    Body φ κ μ (List κ) :=
  if maxDepth < depth then return []
  else
    match expression with
    | .call func => do
      let functions ← call (.functionsCalled func scope module (depth + 1))
      collect functions
        (fun f => call (.typeObjectClasses (w.function f).returns (w.function f).module depth))
    | e => do
      let symbol ← call (.expressionSymbol e scope module (depth + 1))
      match symbol with
      | some (.cls c) => return [c]
      | some (.value value true _ valueModule) => call (.typeObjectClasses (some value) valueModule depth)
      | some (.value value false valueScope valueModule) =>
        call (.classObjects value valueScope valueModule (depth + 1))
      | _ => return []

/-- `self` or `cls` as the receiver of a call, in a scope. -/
def selfReceiver (scope : Option φ) : Expr → Option φ
  | .name id => if id = text "self" ∨ id = text "cls" then scope else none
  | _ => none

/-- The call `receiver.attr()` where the receiver is not `self` in a class. -/
def receiverCalled (receiver : Expr) (attr : Text) (scope : Option φ) (module : μ) (depth : Int) :
    Body φ κ μ (List φ) := do
  let symbol ← call (.expressionSymbol receiver scope module (depth + 1))
  match symbol with
  | some (.module m) => do
    let target ← call (.moduleSymbol (w.module m).name attr (depth + 1))
    match target with
    | some (.function f) => return [f]
    | _ => return []
  | some (.cls c) => call (.methods [c] attr)
  | _ => do
    let classes ← call (.instances receiver scope module (depth + 1))
    call (.methods classes attr)

def functionsCalled (func : Expr) (scope : Option φ) (module : μ) (depth : Int) : Body φ κ μ (List φ) :=
  if maxDepth < depth then return []
  else
    match func with
    | .attribute receiver attr =>
      match selfReceiver scope receiver with
      | some f => do
        let owner ← call (.enclosingClass (some f))
        match owner with
        | some owner => call (.methods [owner] attr)
        | none => receiverCalled w receiver attr scope module depth
      | none => receiverCalled w receiver attr scope module depth
    | e => do
      let symbol ← call (.expressionSymbol e scope module (depth + 1))
      match symbol with
      | some (.function f) => return [f]
      | _ => return []

def callTargets (func : Expr) (scope : Option φ) (module : μ) (depth : Int) :
    Body φ κ μ (List (Target φ κ)) := do
  let functions ← call (.functionsCalled func scope module depth)
  let classes ← call (.classObjects func scope module depth)
  return functions.map .function ++ classes.map .cls

/-- One round of the loop of `enclosing_class`. -/
def enclosingClass (current : Option φ) : Body φ κ μ (Option κ) :=
  match current with
  | none => return none
  | some f =>
    match (w.function f).owner with
    | some c => return some c
    | none => call (.enclosingClass (w.function f).outer)

variable [DecidableEq φ] [DecidableEq κ]

/-- One round of the loop of `_mro`. -/
def mroLoop (order stack : List κ) : Body φ κ μ (List κ) :=
  match stack with
  | [] => return order
  | current :: stack =>
    if current ∈ order then call (.mroLoop order stack)
    else call (.mroLoop (order ++ [current]) (stack ++ (w.cls current).parents))

/-- One round of the loop of `_descendants`, which takes from the end of the stack. -/
def descendantsLoop (found stack : List κ) : Body φ κ μ (List κ) :=
  match stack.getLast? with
  | none => return found
  | some current =>
    if current ∈ found then call (.descendantsLoop found stack.dropLast)
    else call (.descendantsLoop (found ++ [current]) (stack.dropLast ++ (w.cls current).children))

/-- `next((k.methods[name] for k in order if name in k.methods), None)`. -/
def firstMethod (order : List κ) (name : Text) : Option φ :=
  order.findSome? (fun k => (w.cls k).methods.get name)

/-- `_Class.protocol`. -/
def protocol (c : κ) : Bool :=
  (w.cls c).bases.any (fun base =>
    decide (afterLast dot (partition (codePoint '[') (w.unparse base)).1 = text "Protocol"))

/-- What one class adds to the methods found before. -/
def methodsOf (name : Text) (found : List φ) (c : κ) : Body φ κ μ (List φ) := do
  let descendants ← call (.descendants c)
  let found ← fold (c :: descendants) found (fun found candidate => do
    let order ← call (.mro candidate)
    match firstMethod w order name with
    | some f => return if (w.function f).stub = true ∨ f ∈ found then found else found ++ [f]
    | none => return found)
  if protocol w c then do
    let implementations ← collect ((w.implementations.get name).getD []) (fun f =>
      if f ∈ found then return []
      else
        match (w.function f).owner with
        | none => return []
        | some owner => do
          let conforms ← call (.conforms owner c)
          return if conforms then [f] else [])
    return found ++ implementations
  else return found

def methods (classes : List κ) (name : Text) : Body φ κ μ (List φ) := fold classes [] (methodsOf w name)

def conforms (c protocol : κ) : Body φ κ μ Bool :=
  every (w.cls protocol).methods.entries (fun (name, required) =>
    if (text "__").isPrefixOf name then return true
    else do
      let order ← call (.mro c)
      match firstMethod w order name with
      | none => return false
      | some f => return decide ((w.function f).parameters = (w.function required).parameters))

/-- The body of each function. -/
def body : (q : Query φ κ μ) → Body φ κ μ (Answer q)
  | .moduleSymbol moduleName name depth => moduleSymbol w moduleName name depth
  | .imported origin depth => imported w origin depth
  | .lookup name current module depth => lookup w name current module depth
  | .annotationClasses ann module scope depth => annotationClasses w ann module scope depth
  | .typeObjectClasses ann module depth => typeObjectClasses w ann module depth
  | .expressionSymbol expression scope module depth => expressionSymbol w expression scope module depth
  | .symbolInstances symbol depth => symbolInstances symbol depth
  | .instances expression scope module depth => instances w expression scope module depth
  | .attributeInstances owners name depth => attributeInstances w owners name depth
  | .classObjects expression scope module depth => classObjects w expression scope module depth
  | .functionsCalled func scope module depth => functionsCalled w func scope module depth
  | .callTargets func scope module depth => callTargets func scope module depth
  | .enclosingClass current => enclosingClass w current
  | .mro c => call (.mroLoop [] [c])
  | .mroLoop order stack => mroLoop w order stack
  | .descendants c => call (.descendantsLoop [] (w.cls c).children)
  | .descendantsLoop found stack => descendantsLoop w found stack
  | .methods classes name => methods w classes name
  | .conforms c protocol => conforms w c protocol

/-- The answer of a function, its calls carried out to a depth of `n`. -/
def resolve (n : Nat) (q : Query φ κ μ) : Option (Answer q) := run (body w) n q

end Model

section Weight

/-- What a call has to go down in. -/
structure Weight where
  depthLeft : Nat
  rank : Nat
  size : Nat
  length : Nat

/-- The lexicographic order. -/
def Weight.Lt (a b : Weight) : Prop :=
  a.depthLeft < b.depthLeft ∨ (a.depthLeft = b.depthLeft ∧
    (a.rank < b.rank ∨ (a.rank = b.rank ∧
      (a.size < b.size ∨ (a.size = b.size ∧ a.length < b.length)))))

theorem weight_wf : WellFounded Weight.Lt := by
  have hlex := (Prod.lex Nat.lt_wfRel (Prod.lex Nat.lt_wfRel (Prod.lex Nat.lt_wfRel Nat.lt_wfRel))).wf
  refine Subrelation.wf ?_ (InvImage.wf (fun a : Weight => (a.depthLeft, a.rank, a.size, a.length)) hlex)
  rintro ⟨d, r, s, l⟩ ⟨d', r', s', l'⟩ h
  simp only [Weight.Lt] at h
  rcases h with h | ⟨rfl, h | ⟨rfl, h | ⟨rfl, h⟩⟩⟩
  · exact .left _ _ h
  · exact .right _ (.left _ _ h)
  · exact .right _ (.right _ (.left _ _ h))
  · exact .right _ (.right _ (.right _ h))

/-- How many depths are left before a function refuses. -/
def depthLeft (depth : Int) : Nat := (maxDepth + 1 - depth).toNat

/-- A function that does not look at the depth. -/
def unchecked (depth : Int) (rank size : Nat) : Weight := ⟨depthLeft depth, rank, size, 0⟩

/-- A function that refuses a depth over the maximum, and asks nothing then. -/
def checked (depth : Int) (rank : Nat) : Weight :=
  if maxDepth < depth then ⟨0, 0, 0, 0⟩ else ⟨depthLeft depth, rank, 0, 0⟩

section Steps

variable {depth : Int} {r r' s s' l : Nat}

theorem unchecked_checked {depth' : Int} (hle : depth ≤ depth') (hr : r' < r) :
    (checked depth' r').Lt (unchecked depth r s) := by
  rw [checked]
  split
  · simp only [unchecked, Weight.Lt, depthLeft]
    omega
  · simp only [unchecked, Weight.Lt, depthLeft]
    omega

theorem unchecked_deeper : (checked (depth + 1) r').Lt (unchecked depth (r + 1) s) := by
  rw [checked]
  split
  · simp only [unchecked, Weight.Lt, depthLeft]
    omega
  · simp only [unchecked, Weight.Lt, depthLeft]
    omega

theorem unchecked_unchecked {depth' : Int} (hle : depth ≤ depth') (hr : r' < r) :
    (unchecked depth' r' s').Lt (unchecked depth r s) := by
  simp only [unchecked, Weight.Lt, depthLeft]
  omega

theorem unchecked_smaller {depth' : Int} (hle : depth ≤ depth') (hs : s' < s) :
    (unchecked depth' r s').Lt (unchecked depth r s) := by
  simp only [unchecked, Weight.Lt, depthLeft, true_and]
  omega

theorem checked_deeper (h : ¬ maxDepth < depth) : (unchecked (depth + 1) r' s').Lt (checked depth r) := by
  rw [checked, if_neg h]
  simp only [unchecked, Weight.Lt, depthLeft]
  omega

theorem checked_checked (h : ¬ maxDepth < depth) : (checked (depth + 1) r').Lt (checked depth r) := by
  rw [checked, checked, if_neg h]
  split
  · simp only [Weight.Lt, depthLeft]
    omega
  · simp only [Weight.Lt, depthLeft]
    omega

theorem checked_same (h : ¬ maxDepth < depth) (hr : r' < r) :
    (unchecked depth r' s').Lt (checked depth r) := by
  rw [checked, if_neg h]
  simp only [unchecked, Weight.Lt, true_and]
  omega

theorem checked_graph (h : ¬ maxDepth < depth) : Weight.Lt ⟨0, r', s', l⟩ (checked depth r) := by
  rw [checked, if_neg h]
  simp only [Weight.Lt, depthLeft]
  omega

theorem unchecked_graph (hr : r' < r) : Weight.Lt ⟨0, r', s', l⟩ (unchecked depth r s) := by
  simp only [unchecked, Weight.Lt]
  omega

theorem graph_graph (hr : r' < r) {l' : Nat} : Weight.Lt ⟨0, r', s', l'⟩ ⟨0, r, s, l⟩ := .inr ⟨rfl, .inl hr⟩

end Steps

variable {φ κ μ : Type} [DecidableEq κ] [Fintype κ]

/-- The attributes that an expression takes one of another. -/
def Expr.attributes : Expr → Nat
  | .attribute value _ => value.attributes + 1
  | _ => 0

def scopeLevel (w : World φ κ μ) : Option φ → Nat
  | none => 0
  | some f => w.level f + 1

/-- The classes that a loop over parents or children has not seen. -/
def unseen (seen : List κ) : Nat := (Finset.univ.filter (fun c => c ∉ seen)).card

def weight (w : World φ κ μ) : Query φ κ μ → Weight
  | .moduleSymbol _ _ depth => checked depth 1
  | .imported _ depth => unchecked depth 2 0
  | .lookup _ current _ depth => unchecked depth 3 (scopeLevel w current)
  | .expressionSymbol expression _ _ depth => unchecked depth 4 expression.attributes
  | .annotationClasses _ _ _ depth => checked depth 5
  | .typeObjectClasses _ _ depth => unchecked depth 6 0
  | .symbolInstances _ depth => unchecked depth 6 0
  | .attributeInstances _ _ depth => unchecked depth 7 0
  | .instances _ _ _ depth => checked depth 8
  | .classObjects _ _ _ depth => checked depth 8
  | .functionsCalled _ _ _ depth => checked depth 8
  | .callTargets _ _ _ depth => unchecked depth 9 0
  | .enclosingClass current => ⟨0, 1, scopeLevel w current, 0⟩
  | .mroLoop order stack => ⟨0, 1, unseen order, stack.length⟩
  | .mro _ => ⟨0, 2, 0, 0⟩
  | .descendantsLoop found stack => ⟨0, 1, unseen found, stack.length⟩
  | .descendants _ => ⟨0, 2, 0, 0⟩
  | .conforms _ _ => ⟨0, 3, 0, 0⟩
  | .methods _ _ => ⟨0, 4, 0, 0⟩

theorem unseen_append {seen : List κ} {c : κ} (h : c ∉ seen) : unseen (seen ++ [c]) < unseen seen := by
  refine Finset.card_lt_card ⟨?_, ?_⟩
  · intro d hd
    simp only [Finset.mem_filter, Finset.mem_univ, true_and, List.mem_append, not_or] at hd ⊢
    exact hd.1
  · intro hsub
    have hc : c ∈ Finset.univ.filter (fun d => d ∉ seen) := by simpa using h
    simpa using hsub hc

omit [DecidableEq κ] [Fintype κ] in
theorem scopeLevel_outer (w : World φ κ μ) (f : φ) :
    scopeLevel w (w.function f).outer < scopeLevel w (some f) := by
  cases h : (w.function f).outer with
  | none => exact Nat.succ_pos _
  | some g => exact Nat.succ_lt_succ (w.outer_level f g h)

end Weight

section Termination

variable {φ κ μ : Type} [DecidableEq κ] [Fintype κ] (w : World φ κ μ)

/-- Every call of the body is smaller than the weight. -/
def GoesDown {β : Type} (a : Weight) (p : Body φ κ μ β) : Prop := p.Asks (fun q => (weight w q).Lt a)

theorem moduleSymbol_down (moduleName name : Text) (depth : Int) :
    GoesDown w (checked depth 1) (moduleSymbol w moduleName name depth) := by
  unfold moduleSymbol GoesDown
  dsimp only
  split
  · exact asks_pure _
  · rename_i h
    split
    · exact asks_pure _
    · split
      · exact asks_pure _
      · split
        · exact asks_pure _
        · split
          · exact asks_pure _
          · split
            · exact asks_pure _
            · split
              · exact asks_ask (checked_deeper h)
              · exact asks_pure _

theorem imported_down (origin : Text × Option Text) (depth : Int) :
    GoesDown w (unchecked depth 2 0) (imported w origin depth) := by
  unfold imported GoesDown
  split
  · exact asks_pure _
  · exact asks_ask (unchecked_checked (Int.le_refl depth) (by decide))

theorem lookup_down (name : Text) (current : Option φ) (module : μ) (depth : Int) :
    GoesDown w (unchecked depth 3 (scopeLevel w current)) (lookup w name current module depth) := by
  unfold lookup GoesDown
  cases current with
  | none => exact asks_ask (unchecked_checked (Int.le_refl depth) (by decide))
  | some f =>
    dsimp only
    split
    · exact asks_pure _
    · split
      · exact asks_pure _
      · split
        · exact asks_pure _
        · split
          · exact asks_ask (unchecked_unchecked (by omega) (by decide))
          · exact asks_ask (unchecked_smaller (Int.le_refl depth) (scopeLevel_outer w f))

theorem annotationClasses_down (ann : Expr) (module : μ) (scope : Option φ) (depth : Int) :
    GoesDown w (checked depth 5) (annotationClasses w ann module scope depth) := by
  unfold annotationClasses GoesDown
  split
  · exact asks_pure _
  · rename_i h
    dsimp only
    split
    · exact asks_pure _
    · exact asks_ask_bind (checked_checked h)
        (fun _ => asks_ask_bind (checked_checked h) (fun _ => asks_pure _))
    · split
      · exact asks_collect (fun item _ => asks_ask (checked_checked h))
      · exact asks_pure _
    · exact asks_ask_bind (checked_deeper h) (fun _ => asks_pure _)

theorem typeObjectClasses_down (ann : Option Expr) (module : μ) (depth : Int) :
    GoesDown w (unchecked depth 6 0) (typeObjectClasses w ann module depth) := by
  unfold typeObjectClasses GoesDown
  split
  · split
    · exact asks_ask unchecked_deeper
    · exact asks_pure _
  · exact asks_pure _

theorem expressionSymbol_down (expression : Expr) (scope : Option φ) (module : μ) (depth : Int) :
    GoesDown w (unchecked depth 4 expression.attributes)
      (expressionSymbol w expression scope module depth) := by
  unfold expressionSymbol GoesDown
  split
  · exact asks_ask (unchecked_unchecked (Int.le_refl depth) (by decide))
  · refine asks_ask_bind (unchecked_smaller (by omega) (Nat.lt_succ_self _)) (fun base => ?_)
    split
    · exact asks_ask unchecked_deeper
    · exact asks_pure _
  · exact asks_pure _

theorem symbolInstances_down (symbol : Option (Symbol φ κ μ)) (depth : Int) :
    GoesDown w (unchecked depth 6 0) (symbolInstances symbol depth) := by
  unfold symbolInstances GoesDown
  split
  · exact asks_ask unchecked_deeper
  · exact asks_ask unchecked_deeper
  · exact asks_pure _

theorem returnedClasses_down {depth : Int} (h : ¬ maxDepth < depth) (functions : List φ) :
    GoesDown w (checked depth 8) (returnedClasses w functions depth) := by
  unfold returnedClasses GoesDown
  refine asks_collect (fun f _ => ?_)
  split
  · exact asks_ask (checked_checked h)
  · exact asks_pure _

/-- Of an attribute, the depth is handed on as it is to the owners' attributes. -/
theorem instances_down (expression : Expr) (scope : Option φ) (module : μ) (depth : Int) :
    GoesDown w (checked depth 8) (instances w expression scope module depth) := by
  unfold instances GoesDown
  split
  · exact asks_pure _
  · rename_i h
    split
    · exact asks_ask (checked_checked h)
    · exact asks_collect (fun value _ => asks_ask (checked_checked h))
    · exact asks_ask_bind (checked_checked h)
        (fun _ => asks_ask_bind (checked_checked h) (fun _ => asks_pure _))
    · refine asks_ask_bind (checked_checked h)
        (fun _ => asks_ask_bind (checked_checked h) (fun functions => ?_))
      exact asks_monad_bind (returnedClasses_down w h functions) (fun _ => asks_pure _)
    · split
      · refine asks_ask_bind (checked_graph h) (fun owner => ?_)
        split
        · exact asks_ask (checked_same h (by decide))
        · exact asks_pure _
      · refine asks_ask_bind (checked_deeper h) (fun symbol => ?_)
        split
        · exact asks_ask (checked_same h (by decide))
        · exact asks_ask_bind (checked_checked h) (fun _ => asks_ask (checked_same h (by decide)))
    · exact asks_ask_bind (checked_same h (by decide)) (fun _ => asks_ask (checked_same h (by decide)))
    · exact asks_pure _

theorem attributeInstances_down (owners : List κ) (name : Text) (depth : Int) :
    GoesDown w (unchecked depth 7 0) (attributeInstances w owners name depth) := by
  unfold attributeInstances GoesDown
  refine asks_collect
    (fun owner _ => asks_ask_bind ?_ (fun order => asks_collect (fun c _ => asks_collect ?_)))
  · exact unchecked_graph (by decide)
  · rintro ⟨e, annotated, scope⟩ _
    exact asks_ask (unchecked_unchecked (by omega) (by decide))

theorem classObjects_down (expression : Expr) (scope : Option φ) (module : μ) (depth : Int) :
    GoesDown w (checked depth 8) (classObjects w expression scope module depth) := by
  unfold classObjects GoesDown
  split
  · exact asks_pure _
  · rename_i h
    split
    · exact asks_ask_bind (checked_checked h)
        (fun functions => asks_collect (fun f _ => asks_ask (checked_same h (by decide))))
    · refine asks_ask_bind (checked_deeper h) (fun symbol => ?_)
      split
      · exact asks_pure _
      · exact asks_ask (checked_same h (by decide))
      · exact asks_ask (checked_checked h)
      · exact asks_pure _

theorem receiverCalled_down (receiver : Expr) (attr : Text) (scope : Option φ) (module : μ) {depth : Int}
    (h : ¬ maxDepth < depth) :
    GoesDown w (checked depth 8) (receiverCalled w receiver attr scope module depth) := by
  unfold receiverCalled GoesDown
  refine asks_ask_bind (checked_deeper h) (fun symbol => ?_)
  split
  · refine asks_ask_bind (checked_checked h) (fun target => ?_)
    split
    · exact asks_pure _
    · exact asks_pure _
  · exact asks_ask (checked_graph h)
  · exact asks_ask_bind (checked_checked h) (fun classes => asks_ask (checked_graph h))

theorem functionsCalled_down (func : Expr) (scope : Option φ) (module : μ) (depth : Int) :
    GoesDown w (checked depth 8) (functionsCalled w func scope module depth) := by
  unfold functionsCalled GoesDown
  split
  · exact asks_pure _
  · rename_i h
    split
    · split
      · refine asks_ask_bind (checked_graph h) (fun owner => ?_)
        split
        · exact asks_ask (checked_graph h)
        · exact receiverCalled_down w _ _ scope module h
      · exact receiverCalled_down w _ _ scope module h
    · refine asks_ask_bind (checked_deeper h) (fun symbol => ?_)
      split
      · exact asks_pure _
      · exact asks_pure _

theorem callTargets_down (func : Expr) (scope : Option φ) (module : μ) (depth : Int) :
    GoesDown w (unchecked depth 9 0) (callTargets func scope module depth) := by
  unfold callTargets GoesDown
  refine asks_ask_bind (unchecked_checked (Int.le_refl depth) (by decide)) (fun functions => ?_)
  exact asks_ask_bind (unchecked_checked (Int.le_refl depth) (by decide)) (fun classes => asks_pure _)

theorem enclosingClass_down (current : Option φ) :
    GoesDown w ⟨0, 1, scopeLevel w current, 0⟩ (enclosingClass w current) := by
  unfold enclosingClass GoesDown
  cases current with
  | none => exact asks_pure _
  | some f =>
    dsimp only
    split
    · exact asks_pure _
    · exact asks_ask (.inr ⟨rfl, .inr ⟨rfl, .inl (scopeLevel_outer w f)⟩⟩)

/-- A round has seen one more class, or has one less on the stack. -/
theorem mroLoop_down (order stack : List κ) :
    GoesDown w ⟨0, 1, unseen order, stack.length⟩ (mroLoop w order stack) := by
  unfold mroLoop GoesDown
  cases stack with
  | nil => exact asks_pure _
  | cons current stack =>
    dsimp only
    split
    · exact asks_ask (.inr ⟨rfl, .inr ⟨rfl, .inr ⟨rfl, Nat.lt_succ_self _⟩⟩⟩)
    · rename_i h
      exact asks_ask (.inr ⟨rfl, .inr ⟨rfl, .inl (unseen_append h)⟩⟩)

theorem descendantsLoop_down (found stack : List κ) :
    GoesDown w ⟨0, 1, unseen found, stack.length⟩ (descendantsLoop w found stack) := by
  unfold descendantsLoop GoesDown
  split
  · exact asks_pure _
  · rename_i current hlast
    split
    · refine asks_ask (.inr ⟨rfl, .inr ⟨rfl, .inr ⟨rfl, ?_⟩⟩⟩)
      have hne : stack ≠ [] := by
        rintro rfl
        cases hlast
      have hlength := List.length_pos_of_ne_nil hne
      change stack.dropLast.length < stack.length
      rw [List.length_dropLast]
      omega
    · rename_i h
      exact asks_ask (.inr ⟨rfl, .inr ⟨rfl, .inl (unseen_append h)⟩⟩)

theorem conforms_down (c protocol : κ) : GoesDown w ⟨0, 3, 0, 0⟩ (conforms w c protocol) := by
  unfold conforms GoesDown
  refine asks_every ?_
  rintro ⟨name, required⟩ _
  dsimp only
  split
  · exact asks_pure _
  · refine asks_ask_bind (graph_graph (by decide)) (fun order => ?_)
    split
    · exact asks_pure _
    · exact asks_pure _

theorem methodsOf_down [DecidableEq φ] (name : Text) (found : List φ) (c : κ) :
    GoesDown w ⟨0, 4, 0, 0⟩ (methodsOf w name found c) := by
  unfold methodsOf GoesDown
  refine asks_ask_bind (graph_graph (by decide)) (fun descendants => asks_monad_bind (asks_fold ?_) ?_)
  · intro found candidate _
    refine asks_ask_bind (graph_graph (by decide)) (fun order => ?_)
    split
    · exact asks_pure _
    · exact asks_pure _
  · intro found
    split
    · refine asks_monad_bind (asks_collect (fun f _ => ?_)) (fun _ => asks_pure _)
      split
      · exact asks_pure _
      · split
        · exact asks_pure _
        · exact asks_ask_bind (graph_graph (by decide)) (fun _ => asks_pure _)
    · exact asks_pure _

variable [DecidableEq φ]

theorem body_down (q : Query φ κ μ) : GoesDown w (weight w q) (body w q) := by
  cases q with
  | moduleSymbol moduleName name depth => exact moduleSymbol_down w moduleName name depth
  | imported origin depth => exact imported_down w origin depth
  | lookup name current module depth => exact lookup_down w name current module depth
  | annotationClasses ann module scope depth =>
    exact annotationClasses_down w ann module scope depth
  | typeObjectClasses ann module depth => exact typeObjectClasses_down w ann module depth
  | expressionSymbol expression scope module depth =>
    exact expressionSymbol_down w expression scope module depth
  | symbolInstances symbol depth => exact symbolInstances_down w symbol depth
  | instances expression scope module depth => exact instances_down w expression scope module depth
  | attributeInstances owners name depth => exact attributeInstances_down w owners name depth
  | classObjects expression scope module depth => exact classObjects_down w expression scope module depth
  | functionsCalled func scope module depth => exact functionsCalled_down w func scope module depth
  | callTargets func scope module depth => exact callTargets_down w func scope module depth
  | enclosingClass current => exact enclosingClass_down w current
  | mro c => exact asks_ask (graph_graph (by decide))
  | mroLoop order stack => exact mroLoop_down w order stack
  | descendants c => exact asks_ask (graph_graph (by decide))
  | descendantsLoop found stack => exact descendantsLoop_down w found stack
  | methods classes name => exact asks_fold (fun found c _ => methodsOf_down w name found c)
  | conforms c protocol => exact conforms_down w c protocol

/-- Every function and every loop of the resolution ends, on all arguments. -/
theorem resolution_terminates (q : Query φ κ μ) : ∃ n answer, ∀ m, n ≤ m → resolve w m q = some answer :=
  run_total (InvImage.wf (weight w) weight_wf) (body_down w) q

theorem exists_answer (q : Query φ κ μ) : ∃ answer n, ∀ m, n ≤ m → resolve w m q = some answer := by
  obtain ⟨n, answer, h⟩ := run_total (InvImage.wf (weight w) weight_wf) (body_down w) q
  exact ⟨answer, n, h⟩

end Termination

section Example

/-- One module with `x = x`. -/
def assignedToItself : World (Fin 0) (Fin 0) Unit where
  modules := ⟨[(text "m", ())], List.nodup_singleton _⟩
  module _ :=
    ⟨text "m", .empty, .empty, ⟨[(text "x", .name (text "x"))], List.nodup_singleton _⟩, .empty,
      .empty⟩
  cls c := c.elim0
  function f := f.elim0
  implementations := .empty
  level _ := 0
  outer_level f := f.elim0
  parse _ := none
  unparse _ := []

example : resolve assignedToItself 30 (.instances (.name (text "x")) none () 0) = some [] := by decide +kernel

end Example

section Sources

variable {φ κ μ : Type} [DecidableEq φ] [DecidableEq κ] [Fintype κ] (w : World φ κ μ)

/-- What a call returns. -/
noncomputable def answer (q : Query φ κ μ) : Answer q := (exists_answer w q).choose

theorem resolve_answer (q : Query φ κ μ) : ∃ n, ∀ m, n ≤ m → resolve w m q = some (answer w q) :=
  (exists_answer w q).choose_spec

/-- What `_solve` asks about the functions, by the names in the sources. -/
noncomputable def World.service (functions : List φ) (calls : φ → List Expr) (isDbCall : Expr → Bool)
    (repository : κ → Bool) : Service φ κ Expr where
  functions := functions
  calls := calls
  callTargets f func := answer w (.callTargets func (some f) (w.function f).module 0)
  isDbCall := isDbCall
  repository f := (answer w (.enclosingClass (some f)) : Option κ).elim false repository

/-- From the sources to the marks: names are resolved, and the marks are the functions that reach the
database by the calls found so. -/
theorem service_solve (functions : List φ) (calls : φ → List Expr) (isDbCall : Expr → Bool)
    (repository : κ → Bool) (f : φ) :
    (w.service functions calls isDbCall repository).solve.2 = true ∧
      ((w.service functions calls isDbCall repository).solve.1.reaches f = true ↔
        Reaches (w.service functions calls isDbCall repository) f) :=
  ⟨(solve_spec _).1, solve_reaches_iff _ f⟩

end Sources

end DbReach
end Testing
end TrShared
