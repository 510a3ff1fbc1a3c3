import TrShared.Db.Lookups

/-!
# TrShared.Db.Session

The calls of `BaseRepository` that write, `create` and `soft_delete`, on a session of
`create_session_factory`: one transaction until the caller commits or rolls back, no autoflush, no
savepoint.

* A flush writes whatever was set on instances of the session since the last one, with the new
  instance of `create` or the stamps of `soft_delete`. The primary key refuses two rows with one `id`.
* A statement that fails takes the transaction back to its beginning (`Session.abort`), and nothing but
  a rollback is possible then.
* `call` runs one of the two calls, `step` anything that happens to the session. A statement may fail
  for reasons of its own, so every call comes with the answers of the database.

Other sessions do not write the table meanwhile.
-/

namespace TrShared
namespace Db

open Python

variable {V K : Type}

structure Session (V : Type) where
  /-- What a rollback goes back to. -/
  committed : List (Row V)
  /-- What a query of the transaction sees. -/
  rows : List (Row V)
  /-- Attributes set on instances since the last flush, with the `id` of the row. -/
  pending : List (Option V × Row V) := []
  failed : Bool := false

def Session.start (rows : List (Row V)) : Session V := { committed := rows, rows := rows }

/-- What `create` is given: an instance the session does not know, or one of a row it has loaded. -/
inductive Instance (V : Type) where
  | new (row : Row V)
  | known (id : Option V)

def Instance.inserted : Instance V → List (Row V)
  | .new row => [row]
  | .known _ => []

/-! ## The flush -/

/-- `setattr` of every attribute, on the instance of this `id`. -/
def setAttributes (db : Database V K) (r : Row V) (p : Option V × Row V) : Row V :=
  if db.equals (r.cell "id") p.1 then p.2.foldl (fun r c => setItem r c.1 c.2) r else r

/-- The row with what is pending for it. -/
def Session.written (db : Database V K) (s : Session V) (r : Row V) : Row V :=
  s.pending.foldl (setAttributes db) r

/-- `entity.tenant_id`, as the caller sees it. -/
def Session.tenantOf (db : Database V K) (s : Session V) : Instance V → Option V
  | .new row => row.cell "tenant_id"
  | .known id =>
    (s.rows.find? (fun r => db.equals (r.cell "id") id)).bind
      (fun r => (s.written db r).cell "tenant_id")

/-- What the primary key asks of the rows: each has an `id`, and no two the same. -/
def Keyed (db : Database V K) (rows : List (Row V)) : Prop :=
  (∀ r ∈ rows, (r.cell "id").isSome = true) ∧
    rows.Pairwise (fun r r' => db.equals (r.cell "id") (r'.cell "id") = false)

instance (db : Database V K) (rows : List (Row V)) : Decidable (Keyed db rows) :=
  inferInstanceAs (Decidable (_ ∧ _))

/-- A rollback to the beginning of the transaction, for a session that is then unusable. -/
def Session.abort (s : Session V) : Session V :=
  { s with rows := s.committed, pending := [], failed := true }

/-- The flush that makes the table these rows; `none` when it fails. -/
def Session.flush (db : Database V K) (e : Entity V) (s : Session V) (rows : List (Row V))
    (flushed : Bool) : Option (Session V) :=
  if !s.failed && flushed && (!e.unique || decide (Keyed db rows)) then
    some { s with rows := rows, pending := [] }
  else none

/-! ## `create` and `soft_delete` -/

/-- The values `soft_delete` writes: two readings of the clock, and `False`. -/
structure Stamps (V : Type) where
  deletedAt : V
  updatedAt : V
  inactive : V

/-- `if hasattr(entity, column): entity.column = value`. An attribute that is no column is not part of
the row. -/
def assign (m : Model V) (column : String) (value : V) (r : Row V) : Row V :=
  match m.getattr column with
  | some .column => setItem r column (some value)
  | _ => r

/-- The entity as `soft_delete` flushes it. -/
def softDeleted (m : Model V) (stamps : Stamps V) (r : Row V) : Row V :=
  assign m "updated_at" stamps.updatedAt
    (assign m "is_active" stamps.inactive (assign m "deleted_at" stamps.deletedAt r))

/-- How `refresh` ends: with the row, without one, or by a statement that failed. -/
inductive Refresh where
  | found
  | missing
  | failed
  deriving DecidableEq

/-- A call, with the answers of the database to its statements. -/
inductive Write (V : Type) where
  | create (entity : Instance V) (flushed : Bool) (refreshed : Refresh)
  | softDelete (id tenantId : Option V) (stamps : Stamps V) (selected flushed : Bool)

inductive Written (V : Type) where
  | entity (entity : Instance V)
  | deleted (found : Bool)

/-- `create`. -/
def create (db : Database V K) (e : Entity V) (s : Session V) (entity : Instance V) (flushed : Bool)
    (refreshed : Refresh) : Except CallError (Written V) × Session V :=
  if (s.tenantOf db entity).isNone then
    (.error (.raised (.valueError (e.name ++ ".tenant_id must be set before create()"))), s)
  else
    match s.flush db e (s.rows.map (s.written db) ++ entity.inserted) flushed with
    | none => (.error .statementFailed, s.abort)
    | some s' =>
      match refreshed with
      | .found => (.ok (.entity entity), s')
      | .missing => (.error .notRefreshed, s')
      | .failed => (.error .statementFailed, s'.abort)

/-- The row as the flush of `soft_delete` writes it, if the query found it. -/
def stamped (db : Database V K) (m : Model V) (s : Session V) (q : Query V) (stamps : Stamps V)
    (r : Row V) : Row V :=
  if q.conditions.all (fun condition => condition r) then softDeleted m stamps (s.written db r)
  else s.written db r

/-- `soft_delete`. The row that `get_by_id` found is the one that is updated. -/
def softDelete (db : Database V K) (e : Entity V) (s : Session V) (id tenantId : Option V)
    (stamps : Stamps V) (selected flushed : Bool) : Except CallError (Written V) × Session V :=
  match requireTenant e.toModel tenantId with
  | .error err => (.error (.raised err), s)
  | .ok _ =>
    if !e.has "deleted_at" then
      (.error (.typeError (e.name ++ " has no deleted_at column to soft-delete")), s)
    else
      match getById db e id tenantId with
      | .error err => (.error (.raised err), s)
      | .ok q =>
        if s.failed || !selected then (.error .statementFailed, s.abort)
        else
          match scalarOneOrNone (q.select s.rows) with
          | .error err => (.error err, s)
          | .ok none => (.ok (.deleted false), s)
          | .ok (some _) =>
            match s.flush db e (s.rows.map (stamped db e.toModel s q stamps)) flushed with
            | none => (.error .statementFailed, s.abort)
            | some s' => (.ok (.deleted true), s')

def call (db : Database V K) (e : Entity V) (s : Session V) :
    Write V → Except CallError (Written V) × Session V
  | .create entity flushed refreshed => create db e s entity flushed refreshed
  | .softDelete id tenantId stamps selected flushed =>
    softDelete db e s id tenantId stamps selected flushed

/-! ## The session over time -/

inductive SessionAct (V : Type) where
  | write (w : Write V)
  /-- A query of a reader that the database fails. -/
  | readFailed
  /-- The caller sets attributes of the instance with this `id`. -/
  | setattr (id : Option V) (attributes : Row V)
  | commit (flushed : Bool)
  | rollback

def step (db : Database V K) (e : Entity V) (s : Session V) : SessionAct V → Option (Session V)
  | .write w => some (call db e s w).2
  | .readFailed => some s.abort
  | .setattr id attributes => some { s with pending := s.pending ++ [(id, attributes)] }
  | .commit flushed =>
    if s.failed then none
    else
      match s.flush db e (s.rows.map (s.written db)) flushed with
      | none => some s.abort
      | some s' => some { s' with committed := s'.rows }
  | .rollback => some { s with rows := s.committed, pending := [], failed := false }

end Db
end TrShared
