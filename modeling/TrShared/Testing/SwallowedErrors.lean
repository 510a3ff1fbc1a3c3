import Mathlib.Data.List.Infix
import TrShared.Python.Exceptions
import TrShared.Testing.ClassFamily
import TrShared.Testing.NameResolution
import TrShared.Testing.Stack

/-!
# TrShared.Testing.SwallowedErrors

`assert_no_swallowed_db_errors`: the guard that looks for handlers which stop a database error before it
reaches the boundary of a service. It judges the handlers of every `try` by what they name, by whether a
`raise` stands in them, and by whether a call in the body of the `try` reaches the database. `except*`
(`ast.TryStar`), whose handlers the guard judges in the same way, is left out.
-/

namespace TrShared
namespace Testing
namespace SwallowedErrors

open DbReach (Expr Target Service)
open Guards (Import)
open Python Python.Exceptions Python.Regex

section Names

def genericSqlalchemyErrors : List Text :=
  ["SQLAlchemyError", "DBAPIError", "OperationalError", "InterfaceError", "DatabaseError",
    "TimeoutError"].map text

def broadExceptions : List Text := ["Exception", "BaseException"].map text

def outageErrors : List Text := ["DatabaseUnavailableError", "DATABASE_OUTAGE_ERRORS"].map text

def dbMethods : List Text :=
  ["execute", "scalar", "scalars", "scalar_one", "scalar_one_or_none", "flush", "commit", "refresh",
    "get_by_id"].map text

def notDb : List Text := ["cache", "redis", "pipe", "websocket", "driver"].map text

def literal (s : String) : Pattern CodePoint := (text s).map (fun c => .one (fun a => decide (a = c)))

/-- `^`. -/
def atStart (before : Option CodePoint) (_ : Text) : Bool := before.isNone

/-- `(^|_)s($|_)`, one pattern for each choice. -/
def word (s : String) : List (Pattern CodePoint) :=
  [.assert atStart :: (literal s ++ [.assert atEnd]), .assert atStart :: (literal s ++ literal "_"),
    literal "_" ++ literal s ++ [.assert atEnd], literal "_" ++ literal s ++ literal "_"]

/-- `_DB_CALLEE`, its alternatives. -/
def dbCallee : List (Pattern CodePoint) :=
  [literal "Repository" ++ [.assert atEnd], literal "Repo" ++ [.assert atEnd], literal "SessionLocal",
    literal "session_factory", .assert atStart :: (literal "get_db" ++ [.assert atEnd]),
    .assert atStart :: (literal "get_sync_db" ++ [.assert atEnd]), literal "execute_sql"] ++
    word "db" ++ word "repo" ++ word "uow"

/-- `_DB_RECEIVER`. -/
def dbReceiver : List (Pattern CodePoint) :=
  word "db" ++ word "session" ++ word "repo" ++ word "repository" ++ word "uow" ++
    [literal "_repo" ++ [.assert atEnd], literal "Repository", literal "SessionLocal"]

def searchAny (alternatives : List (Pattern CodePoint)) (s : Text) : Bool :=
  alternatives.any (fun p => (search p none s).isSome)

/-- `_chain`. -/
def chain : Expr → List Text
  | .attribute value attr => chain value ++ [attr]
  | .name id => [id]
  | .call func => chain func
  | .subscript value _ => chain value
  | .await value => chain value
  | _ => []

/-- `_last_name`. -/
def lastName (e : Expr) : Text := (chain e).getLast?.getD []

/-- `_is_db_call`, of what is called. -/
def isDbCall (func : Expr) : Bool :=
  match (chain func).reverse with
  | [] => false
  | callee :: receivers =>
    !(chain func).any (fun part => notDb.any (fun w => decide (w <:+: part.flatMap lowerChar))) &&
      (searchAny dbCallee callee ||
        (receivers.head?.map (fun receiver =>
          searchAny dbReceiver receiver || decide (callee ∈ dbMethods))).getD false)

end Names

section Handlers

variable {φ : Type}

/-- A statement of a module that assigns. -/
structure Assignment where
  targets : List Expr
  value : Option Expr

/-- `_expand`. -/
def expand (elts : List Expr) (aliases : OrderedDict Text (List Expr)) : List Expr :=
  elts.flatMap (fun elt =>
    match elt with
    | .name id => (aliases.get id).getD [elt]
    | _ => [elt])

def addAlias (elts : List Expr) (aliases : OrderedDict Text (List Expr)) :
    Expr → OrderedDict Text (List Expr)
  | .name id => aliases.set id (expand elts aliases)
  | _ => aliases

/-- `_tuple_aliases`. -/
def tupleAliases (body : List Assignment) : OrderedDict Text (List Expr) :=
  body.foldl (fun aliases a =>
    match a.value with
    | some (.tuple elts) => a.targets.foldl (addAlias elts) aliases
    | _ => aliases) .empty

abbrev ExceptHandler (φ : Type) := Handler φ Expr Expr

/-- `_caught`. -/
def caught (handler : ExceptHandler φ) (aliases : OrderedDict Text (List Expr)) : List Expr :=
  match handler.type with
  | none => []
  | some (.tuple elts) => expand elts aliases
  | some type => expand [type] aliases

def isBroadName : Expr → Bool
  | .name id => decide (id ∈ broadExceptions)
  | _ => false

/-- `_is_broad`. -/
def isBroad (handler : ExceptHandler φ) (aliases : OrderedDict Text (List Expr)) : Bool :=
  handler.type.isNone || (caught handler aliases).any isBroadName

/-- `_reraises`. -/
def reraises (handler : ExceptHandler φ) : Bool := handler.body.ownNodes.any Node.isRaise

/-- `_is_generic_sqlalchemy`. -/
def isGenericSqlalchemy (caught : Expr) (imports : OrderedDict Text Text) : Bool :=
  match chain caught with
  | [] => false
  | part :: parts =>
    match imports.get part with
    | none => false
    | some origin =>
      let qualified := [dot].intercalate (origin :: parts)
      (text "sqlalchemy.").isPrefixOf qualified &&
        decide (afterLast dot qualified ∈ genericSqlalchemyErrors)

/-- The body of the handler is a `raise` alone. -/
def isBareRaise (handler : ExceptHandler φ) : Bool :=
  match handler.body with
  | .cons (.raise true _) .nil => true
  | _ => false

/-- `_reraises_outage_only`. -/
def reraisesOutageOnly (handler : ExceptHandler φ) (aliases : OrderedDict Text (List Expr)) : Bool :=
  isBareRaise handler && (caught handler aliases).any (fun e => decide (lastName e ∈ outageErrors))

end Handlers

section Project

variable (φ γ μ : Type)

/-- Where `_collect_statement`, `_collect_class` and `_collect_function` come by; `lost` is what none of
them looks into. -/
inductive Collecting where
  | module
  | cls
  | function (f : φ)
  | lost

abbrev Tree := Body φ Expr Expr

/-- A function that is collected, or a `try` of `_tries` with what `_scopes` has for it. -/
inductive Found where
  | function (f : φ) (body : Tree φ)
  | attempt (t : Try φ Expr Expr) (inRepository : Bool) (scope : Option φ)

variable {φ γ μ}

def Collecting.scope : Collecting φ → Option φ
  | .function f => some f
  | _ => none

/-- Inside a block of statements. -/
def Collecting.block (kind : BlockKind) : Collecting φ → Collecting φ
  | .function f => .function f
  | .module => if kind = .branch then .module else .lost
  | _ => .lost

/-- Inside the body, the `else` and the `finally` of a `try`. -/
def Collecting.attempt : Collecting φ → Collecting φ
  | .cls => .lost
  | c => c

/-- Inside its handlers. -/
def Collecting.handler : Collecting φ → Collecting φ
  | .function f => .function f
  | _ => .lost

def Collecting.inClass : Collecting φ → Collecting φ
  | .module => .cls
  | _ => .lost

/-- `node.name.endswith(("Repository", "Repo"))`. -/
def isRepositoryName (name : Text) : Bool :=
  (text "Repository").isSuffixOf name || (text "Repo").isSuffixOf name

mutual

/-- `_tries` and the collecting of functions, in one walk. -/
def foundIn (c : Collecting φ) (inRepository : Bool) : Stmt φ Expr Expr → List (Found φ)
  | .simple _ => []
  | .leave _ => []
  | .raise _ _ => []
  | .block kind _ body orelse =>
    foundInBody (c.block kind) inRepository body ++ foundInBody (c.block kind) inRepository orelse
  | .attempt body handlers orelse finalbody =>
    .attempt ⟨body, handlers, orelse, finalbody⟩ inRepository c.scope ::
      (foundInBody c.attempt inRepository body ++ foundInHandlers c.handler inRepository handlers ++
        foundInBody c.attempt inRepository orelse ++ foundInBody c.attempt inRepository finalbody)
  | .define (.function f) body =>
    match c with
    | .lost => foundInBody .lost inRepository body
    | _ => .function f body :: foundInBody (.function f) inRepository body
  | .define (.cls name) body => foundInBody c.inClass (inRepository || isRepositoryName name) body

def foundInBody (c : Collecting φ) (inRepository : Bool) : Tree φ → List (Found φ)
  | .nil => []
  | .cons s rest => foundIn c inRepository s ++ foundInBody c inRepository rest

def foundInHandlers (c : Collecting φ) (inRepository : Bool) : Handlers φ Expr Expr → List (Found φ)
  | .nil => []
  | .cons _ _ body rest => foundInBody c inRepository body ++ foundInHandlers c inRepository rest

end

variable (φ γ μ) in
/-- The files under a root, as `DbReach` reads them. -/
structure Project where
  modules : List μ
  tree : μ → Tree φ
  /-- the imports, in the order of `ast.walk` -/
  importStatements : μ → List Import
  assignments : μ → List Assignment
  /-- `iter_python_files`, which leaves out every `__init__.py` -/
  scanned : μ → Bool
  /-- `_functions` -/
  functions : List φ
  body : φ → Tree φ
  module : φ → μ
  qualname : φ → Text
  /-- `_call_targets`, for what is called in a scope of a module -/
  callTargets : Option φ → μ → Expr → List (Target φ γ)
  /-- `enclosing_class.repository` -/
  repository : φ → Bool
  mem_functions : ∀ f b m, (f ∈ functions ∧ body f = b ∧ module f = m) ↔
    (m ∈ modules ∧ .function f b ∈ foundInBody .module false (tree m))

variable (p : Project φ γ μ)

def Project.found (m : μ) : List (Found φ) := foundInBody .module false (p.tree m)

def Project.imports (m : μ) : OrderedDict Text Text := Guards.imports ⟨p.importStatements m, []⟩

def Project.aliases (m : μ) : OrderedDict Text (List Expr) := tupleAliases (p.assignments m)

/-- `_calls`. -/
def calls (b : Tree φ) : List Expr := b.ownNodes.filterMap Node.call?

/-- What `_solve` looks at. -/
def Project.service : Service φ γ Expr where
  functions := p.functions
  calls f := calls (p.body f)
  callTargets f call := p.callTargets (some f) (p.module f) call
  isDbCall := isDbCall
  repository := p.repository

structure SwallowedDbError where
  line : Nat
  via : List Text
  deriving DecidableEq

variable [DecidableEq φ]

/-- `try_reaches`, with the names of the functions. -/
def Project.tryReaches (m : μ) (t : Try φ Expr Expr) (scope : Option φ) : Option (List Text) :=
  (DbReach.tryReaches p.service p.service.solve.1 (calls t.body) (p.callTargets scope m)).map
    (fun via => via.map p.qualname)

/-- The loop over the handlers of a `try`. -/
def Project.judge (p : Project φ γ μ) (m : μ) (via : Option (List Text)) (credited : Bool) :
    List (ExceptHandler φ) → List SwallowedDbError
  | [] => []
  | handler :: rest =>
    let credited := credited || reraisesOutageOnly handler (p.aliases m)
    (if reraises handler then []
      else if (caught handler (p.aliases m)).any (fun e => isGenericSqlalchemy e (p.imports m)) then
        [⟨handler.lineno, []⟩]
      else if !credited && isBroad handler (p.aliases m) then
        (via.map (fun via => ⟨handler.lineno, via⟩)).toList
      else []) ++ p.judge m via credited rest

def Project.hits (m : μ) : Found φ → List SwallowedDbError
  | .function _ _ => []
  | .attempt t inRepository scope =>
    p.judge m (if inRepository then some [] else p.tryReaches m t scope) false t.handlers.list

def SwallowedDbError.le (a b : SwallowedDbError) : Bool :=
  decide (a.line < b.line) || (decide (a.line = b.line) && decide (a.via ≤ b.via))

/-- `_swallowed`. -/
def Project.swallowed (m : μ) : List SwallowedDbError :=
  ((p.found m).flatMap (p.hits m)).mergeSort SwallowedDbError.le

/-- `find_swallowed_db_errors`. -/
def Project.findSwallowedDbErrors : List (μ × List SwallowedDbError) :=
  ((p.modules.filter p.scanned).map (fun m => (m, p.swallowed m))).filter (fun e => !e.2.isEmpty)

structure Exemption where
  requiresSymbols : List Text
  mustBeInert : Bool

/-- Why `_check` raises. -/
inductive GuardError (μ : Type) where
  | undocumented (found : List (μ × List SwallowedDbError))
  | stale (modules : List μ)
  | proseOnly (m : μ)
  | symbolGone (m : μ) (symbol : Text)

variable [DecidableEq μ]

def checkExemption (source : μ → Text) (m : μ) (e : Exemption) : Except (GuardError μ) Unit :=
  if e.requiresSymbols.isEmpty && !e.mustBeInert then .error (.proseOnly m)
  else
    match e.requiresSymbols.find? (fun symbol => !decide (symbol <:+: source m)) with
    | some symbol => .error (.symbolGone m symbol)
    | none => .ok ()

/-- `_check`. -/
def check (source : μ → Text) (found : List (μ × List SwallowedDbError))
    (allowlist : OrderedDict μ Exemption) : Except (GuardError μ) Unit :=
  let undocumented := found.filter (fun e => (allowlist.get e.1).isNone)
  let stale := (allowlist.entries.map Prod.fst).filter (fun m => decide (m ∉ found.map Prod.fst))
  if !undocumented.isEmpty then .error (.undocumented undocumented)
  else if !stale.isEmpty then .error (.stale stale)
  else allowlist.entries.forM (fun e => checkExemption source e.1 e.2)

/-- `assert_no_swallowed_db_errors`. -/
def Project.assertNoSwallowedDbErrors (source : μ → Text) (allowlist : OrderedDict μ Exemption) :
    Except (GuardError μ) Unit :=
  check source p.findSwallowedDbErrors allowlist

end Project

end SwallowedErrors
end Testing
end TrShared
