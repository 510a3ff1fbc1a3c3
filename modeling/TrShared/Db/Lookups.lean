import TrShared.Db.Repository
import TrShared.Python.Json

/-!
# TrShared.Db.Lookups

The lookups of `BaseRepository`: `get_by_id`, `find_by_field` and `find_by_field_in`.

A table is here any list of rows; that `id` is unique is a property of the mapped class (`unique`).
`Returns` and `Counts` say what each of the six readers may return.
-/

namespace TrShared
namespace Db

open Python

variable {V K : Type}

/-! ## Mapped classes and comparisons -/

/-- SQL's `=` on values that are not `NULL`. -/
structure SqlDatabase (V K : Type) extends Database V K where
  symm : ∀ {x y : V}, equal x y = true → equal y x = true
  trans : ∀ {x y z : V}, equal x y = true → equal y z = true → equal x z = true

/-- A mapped class with a column `id`. `blank` are the class attributes that are `None`: `hasattr` finds
them and `_column` takes them for absent. -/
structure Entity (V : Type) extends Model V where
  key : getattr "id" = some .column
  blank : String → Bool := fun _ => false
  /-- `id` is the primary key. -/
  unique : Bool := true

/-- `column == value`, which is `IS NULL` for `None`. -/
def Database.equals (db : Database V K) (cell : Option V) : Option V → Bool
  | some value => db.holds cell value
  | none => cell.isNone

/-- `column.in_(values)`; a `NULL` in the list equals nothing. -/
def Database.isIn (db : Database V K) (cell : Option V) (values : List (Option V)) : Bool :=
  values.any (fun value => value.any (fun v => db.holds cell v))

/-! ## The lookups -/

/-- `select(model).where(condition, model.tenant_id == tenant_id)`, without the soft-deleted rows. -/
def scopedQuery (db : Database V K) (m : Model V) (condition : Row V → Bool) (tenantId : V) :
    Query V :=
  let q := (Query.restrict {} condition).restrict (fun r => db.holds (r.cell "tenant_id") tenantId)
  if m.has "deleted_at" then q.restrict (fun r => (r.cell "deleted_at").isNone) else q

/-- `get_by_id`, up to the query. -/
def getById (db : Database V K) (e : Entity V) (id tenantId : Option V) : Except Raised (Query V) := do
  let tenantId ← requireTenant e.toModel tenantId
  pure (scopedQuery db e.toModel (fun r => db.equals (r.cell "id") id) tenantId)

/-- `_column`. -/
def columnOf (e : Entity V) (fieldName : String) : Except Raised (Attribute V) :=
  let missing : Raised := .valueError (e.name ++ " has no column '" ++ fieldName ++ "'")
  match e.getattr fieldName with
  | some .column => .ok .column
  | some (.plain equals) => if e.blank fieldName then .error missing else .ok (.plain equals)
  | none => .error missing

/-- `find_by_field`, up to the query. -/
def findByField (db : Database V K) (e : Entity V) (fieldName : String) (value tenantId : Option V) :
    Except Raised (Query V) := do
  let tenantId ← requireTenant e.toModel tenantId
  match ← columnOf e fieldName with
  | .column =>
    pure (scopedQuery db e.toModel (fun r => db.equals (r.cell fieldName) value) tenantId)
  | .plain equals => pure (scopedQuery db e.toModel (fun _ => value.any equals) tenantId)

/-- `find_by_field_in`, up to the query; no values, no query. A plain attribute has no `in_`. -/
def findByFieldIn (db : Database V K) (e : Entity V) (fieldName : String)
    (values : List (Option V)) (tenantId : Option V) : Except Raised (Option (Query V)) := do
  let tenantId ← requireTenant e.toModel tenantId
  if values.isEmpty then pure none
  else
    match ← columnOf e fieldName with
    | .column =>
      pure (some (scopedQuery db e.toModel (fun r => db.isIn (r.cell fieldName) values) tenantId))
    | .plain _ => .error .attributeError

inductive CallError where
  /-- Raised before any query is issued. -/
  | raised (e : Raised)
  | typeError (message : String)
  /-- `MultipleResultsFound` of `scalar_one_or_none`. -/
  | multipleResultsFound
  /-- A statement failed, or an earlier one of its transaction did. -/
  | statementFailed
  /-- `refresh` found no row. -/
  | notRefreshed
  deriving DecidableEq, Repr

/-- `result.scalar_one_or_none()`. -/
def scalarOneOrNone : List (Row V) → Except CallError (Option (Row V))
  | [] => .ok none
  | [r] => .ok (some r)
  | _ => .error .multipleResultsFound

/-! ## What a reader may return -/

def Query.select (q : Query V) (rows : List (Row V)) : List (Row V) :=
  rows.filter (fun r => q.conditions.all (fun condition => condition r))

/-- `Query.Answers` for any rows. -/
def Query.AnswersFrom [LE K] (db : Database V K) (q : Query V) (rows items : List (Row V)) : Prop :=
  ∃ l, l.Perm (q.select rows) ∧ l.Pairwise (q.Precedes db) ∧ q.window l = some items

theorem answersFrom_table [LE K] (db : Database V K) (q : Query V) (table : Table V)
    (items : List (Row V)) : q.AnswersFrom db table.rows items ↔ q.Answers db table items :=
  Iff.rfl

/-- A call of a reader, with its arguments other than the tenant. -/
inductive Read (V : Type) where
  | getById (id : Option V)
  | getAll (filters : Filters V) (orderBy : Option String) (descending : Bool)
  | findByField (fieldName : String) (value : Option V)
  | findByFieldIn (fieldName : String) (values : List (Option V))
  | getPaginated (page perPage : Int) (filters : Filters V) (orderBy : Option String)
  | count (filters : Filters V)

/-- The reader may return these rows. -/
def Returns [LE K] (db : Database V K) (e : Entity V) (rows : List (Row V)) (tenantId : Option V) :
    Read V → List (Row V) → Prop
  | .getById id, items =>
    ∃ q answer r, getById db e id tenantId = .ok q ∧ q.AnswersFrom db rows answer ∧
      scalarOneOrNone answer = .ok r ∧ items = r.toList
  | .getAll filters orderBy descending, items =>
    ∃ q, getAll db e.toModel tenantId filters orderBy descending = .ok q ∧
      q.AnswersFrom db rows items
  | .findByField fieldName value, items =>
    ∃ q answer r, findByField db e fieldName value tenantId = .ok q ∧
      q.AnswersFrom db rows answer ∧ scalarOneOrNone answer = .ok r ∧ items = r.toList
  | .findByFieldIn fieldName values, items =>
    ∃ found, findByFieldIn db e fieldName values tenantId = .ok found ∧
      match found with
      | some q => q.AnswersFrom db rows items
      | none => items = []
  | .getPaginated page perPage filters orderBy, items =>
    ∃ countQ q, getPaginated db e.toModel tenantId page perPage filters orderBy = .ok (countQ, q) ∧
      q.AnswersFrom db rows items
  | .count _, _ => False

/-- The reader may return this number. -/
def Counts (db : Database V K) (e : Entity V) (rows : List (Row V)) (tenantId : Option V) :
    Read V → Nat → Prop
  | .getPaginated page perPage filters orderBy, n =>
    ∃ countQ q, getPaginated db e.toModel tenantId page perPage filters orderBy = .ok (countQ, q) ∧
      n = (countQ.select rows).length
  | .count filters, n =>
    ∃ q, count db e.toModel tenantId filters = .ok q ∧ n = (q.select rows).length
  | _, _ => False

end Db
end TrShared
