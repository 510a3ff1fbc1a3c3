import Mathlib.Data.List.Basic

/-!
# TrShared.Db.Repository

The list queries of `BaseRepository` (`tr_shared/db/repository.py`): `get_all`, `get_paginated` and
`count`. Each builds a `Query`; the database then answers it on a table.

A row has a value, or `NULL`, in each of its columns. What `=` and `ORDER BY` mean for values is up
to the database (`Database`). An answer to a query is any sequence of the matching rows that its
`ORDER BY` allows, so rows that compare equal may come in a different order each time
(`Query.Answers`).
-/

namespace TrShared
namespace Db

variable {V K : Type}

/-! ## Tables, models, queries -/

/-- The cells of a row by column; `none` is `NULL`. -/
abbrev Row (V : Type) := List (String × Option V)

def Row.cell (r : Row V) (column : String) : Option V := (r.lookup column).join

/-- The rows of a table, which differ in their primary key. -/
structure Table (V : Type) where
  rows : List (Row V)
  keyed : (rows.map (fun r => Row.cell r "id")).Nodup

/-- The SQL comparisons: `x = y` of two values that are not `NULL`, and what `ORDER BY` compares. -/
structure Database (V K : Type) where
  equal : V → V → Bool
  rank : Option V → K

/-- `column = value` is true of a cell. -/
def Database.holds (db : Database V K) (cell : Option V) (value : V) : Bool :=
  match cell with
  | some x => db.equal x value
  | none => false

/-- What `getattr(model, name)` finds: a mapped column, or a plain attribute of the class, which
Python compares itself and which has no `desc`. -/
inductive Attribute (V : Type) where
  | column
  | plain (equals : V → Bool)

/-- A mapped class. `tenant_id` is a column of it; `deleted_at` and `created_at` are columns where
they exist. -/
structure Model (V : Type) where
  name : String
  getattr : String → Option (Attribute V)
  tenant : getattr "tenant_id" = some .column
  deleted : ∀ a, getattr "deleted_at" = some a → a = .column
  created : ∀ a, getattr "created_at" = some a → a = .column

/-- `hasattr(model, name)`. -/
def Model.has (m : Model V) (name : String) : Bool := (m.getattr name).isSome

structure Query (V : Type) where
  conditions : List (Row V → Bool) := []
  /-- a column, and whether it is sorted descending -/
  order : Option (String × Bool) := none
  limit : Option Int := none
  offset : Int := 0

/-- `query.where(condition)`. -/
def Query.restrict (q : Query V) (condition : Row V → Bool) : Query V :=
  { q with conditions := q.conditions ++ [condition] }

def Query.matching (q : Query V) (table : Table V) : List (Row V) :=
  table.rows.filter (fun r => q.conditions.all (fun condition => condition r))

/-- `SELECT count(*)`. -/
def Query.total (q : Query V) (table : Table V) : Nat := (q.matching table).length

/-- The `ORDER BY` lets the first row stand before the second. -/
def Query.Precedes [LE K] (db : Database V K) (q : Query V) (r r' : Row V) : Prop :=
  match q.order with
  | none => True
  | some (column, true) => db.rank (r'.cell column) ≤ db.rank (r.cell column)
  | some (column, false) => db.rank (r.cell column) ≤ db.rank (r'.cell column)

/-- `LIMIT` and `OFFSET`; `none` is the error for a negative one. -/
def Query.window (q : Query V) (rows : List (Row V)) : Option (List (Row V)) :=
  match q.limit with
  | none => if q.offset < 0 then none else some (rows.drop q.offset.toNat)
  | some limit =>
    if q.offset < 0 ∨ limit < 0 then none
    else some ((rows.drop q.offset.toNat).take limit.toNat)

/-- The database may answer the query with these rows. -/
def Query.Answers [LE K] (db : Database V K) (q : Query V) (table : Table V)
    (items : List (Row V)) : Prop :=
  ∃ rows, rows.Perm (q.matching table) ∧ rows.Pairwise (q.Precedes db) ∧ q.window rows = some items

/-! ## The repository -/

inductive Raised where
  | valueError (message : String)
  | attributeError
  deriving DecidableEq, Repr

abbrev Filters (V : Type) := List (String × Option V)

/-- `_require_tenant`. -/
def requireTenant (m : Model V) : Option V → Except Raised V
  | some tenantId => .ok tenantId
  | none =>
    .error (.valueError (m.name ++ ": tenant_id is required and must not be None"))

/-- One turn of the loop in `_apply_filters`. -/
def applyFilter (db : Database V K) (m : Model V) (q : Query V) (f : String × Option V) : Query V :=
  match f.2, m.getattr f.1 with
  | some value, some .column => q.restrict (fun r => db.holds (r.cell f.1) value)
  | some value, some (.plain equals) => q.restrict (fun _ => equals value)
  | _, _ => q

/-- `_apply_filters`; no filters at all is the empty list. -/
def applyFilters (db : Database V K) (m : Model V) (q : Query V) (filters : Filters V) : Query V :=
  filters.foldl (applyFilter db m) q

/-- The rows of the tenant that are not soft-deleted, which every query starts from. -/
def tenantQuery (db : Database V K) (m : Model V) (tenantId : V) : Query V :=
  let q := Query.restrict {} (fun r => db.holds (r.cell "tenant_id") tenantId)
  if m.has "deleted_at" then q.restrict (fun r => (r.cell "deleted_at").isNone) else q

/-- `query.order_by(getattr(model, name).desc())`, or `asc()`. -/
def orderOn (m : Model V) (q : Query V) (name : String) (descending : Bool) :
    Except Raised (Query V) :=
  match m.getattr name with
  | some .column => .ok { q with order := some (name, descending) }
  | _ => .error .attributeError

/-- `order_by and hasattr(model, order_by)`: the name, if so. -/
def knownOrder (m : Model V) (orderBy : Option String) : Option String :=
  orderBy.filter (fun name => name != "" && m.has name)

/-- `get_all`. -/
def getAll (db : Database V K) (m : Model V) (tenantId : Option V) (filters : Filters V)
    (orderBy : Option String) (descending : Bool) : Except Raised (Query V) := do
  let tenantId ← requireTenant m tenantId
  let q := applyFilters db m (tenantQuery db m tenantId) filters
  match knownOrder m orderBy with
  | some name => orderOn m q name descending
  | none => pure q

/-- The order of the pages: `order_by` if the model has it, else `created_at` if the model has it,
always descending. -/
def pageOrder (m : Model V) (q : Query V) (orderBy : Option String) : Except Raised (Query V) :=
  match knownOrder m orderBy with
  | some name => orderOn m q name true
  | none => if m.has "created_at" then orderOn m q "created_at" true else pure q

/-- `get_paginated`: the query whose rows are counted, and the query for the page. -/
def getPaginated (db : Database V K) (m : Model V) (tenantId : Option V) (page perPage : Int)
    (filters : Filters V) (orderBy : Option String) : Except Raised (Query V × Query V) := do
  let tenantId ← requireTenant m tenantId
  let countQ := applyFilters db m (tenantQuery db m tenantId) filters
  let q ← pageOrder m countQ orderBy
  pure (countQ, { q with limit := some perPage, offset := (page - 1) * perPage })

/-- `count`. -/
def count (db : Database V K) (m : Model V) (tenantId : Option V) (filters : Filters V) :
    Except Raised (Query V) := do
  let tenantId ← requireTenant m tenantId
  pure (applyFilters db m (tenantQuery db m tenantId) filters)

/-! ## What a call can return -/

/-- `get_all` may return these rows. -/
def GotAll [LE K] (db : Database V K) (m : Model V) (table : Table V) (tenantId : Option V)
    (filters : Filters V) (orderBy : Option String) (descending : Bool) (rows : List (Row V)) :
    Prop :=
  ∃ q, getAll db m tenantId filters orderBy descending = .ok q ∧ q.Answers db table rows

/-- `get_paginated` may return these items and this total. -/
def GotPage [LE K] (db : Database V K) (m : Model V) (table : Table V) (tenantId : Option V)
    (page perPage : Int) (filters : Filters V) (orderBy : Option String) (items : List (Row V))
    (total : Nat) : Prop :=
  ∃ countQ q, getPaginated db m tenantId page perPage filters orderBy = .ok (countQ, q) ∧
    total = countQ.total table ∧ q.Answers db table items

/-- `count` returns this number. -/
def Counted (db : Database V K) (m : Model V) (table : Table V) (tenantId : Option V)
    (filters : Filters V) (n : Nat) : Prop :=
  ∃ q, count db m tenantId filters = .ok q ∧ n = q.total table

end Db
end TrShared
