import TrShared.Db.Repository
import TrShared.Machine.Pages
import Mathlib.Order.WithBot
import Mathlib.Order.Nat

/-!
# TrShared.Db.Pagination

When the pages of `get_paginated` put together are the matching rows.

`Wanted` says which rows a caller asks for, and `Partitions` what it may expect of the pages, for
every way the database may answer. The total is always right. The pages are sorted by one column
and nothing else, and each page is a query of its own: `pagination_partition_iff` says that they
partition the rows exactly when `order_by` does not name an attribute that is no column, and no
group of rows with one value in the sort column lies across a page boundary.
-/

namespace TrShared
namespace Db

open Machine

variable {V K : Type} {db : Database V K} {m : Model V} {table : Table V}
  {tenantId : V} {filters : Filters V} {orderBy : Option String} {perPage : Int}

/-! ## What is asked for -/

/-- A filter that has a value and names an attribute of the model holds of the row. -/
def meets (db : Database V K) (m : Model V) (r : Row V) (f : String × Option V) : Bool :=
  match f.2, m.getattr f.1 with
  | some value, some .column => db.holds (r.cell f.1) value
  | some value, some (.plain equals) => equals value
  | _, _ => true

structure Wanted (db : Database V K) (m : Model V) (tenantId : V) (filters : Filters V) (r : Row V) :
    Prop where
  tenant : db.holds (r.cell "tenant_id") tenantId = true
  visible : m.has "deleted_at" = true → r.cell "deleted_at" = none
  filters : ∀ f ∈ filters, meets db m r f = true

theorem wanted_iff {r : Row V} : Wanted db m tenantId filters r ↔
    (db.holds (r.cell "tenant_id") tenantId = true ∧
      (m.has "deleted_at" = true → r.cell "deleted_at" = none)) ∧
    ∀ f ∈ filters, meets db m r f = true :=
  ⟨fun ⟨ht, hd, hf⟩ => ⟨⟨ht, hd⟩, hf⟩, fun ⟨⟨ht, hd⟩, hf⟩ => ⟨ht, hd, hf⟩⟩

instance (r : Row V) : Decidable (Wanted db m tenantId filters r) := decidable_of_iff' _ wanted_iff

def wantedRows (db : Database V K) (m : Model V) (table : Table V) (tenantId : V)
    (filters : Filters V) : List (Row V) :=
  table.rows.filter (fun r => decide (Wanted db m tenantId filters r))

/-- The pages are a partition of the rows asked for, however the database answers. -/
structure Partitions [LE K] (db : Database V K) (m : Model V) (table : Table V) (tenantId : V)
    (perPage : Int) (filters : Filters V) (orderBy : Option String) : Prop where
  returns : ∀ k : Nat, ∃ items total,
    GotPage db m table (some tenantId) (k + 1) perPage filters orderBy items total
  totals : ∀ k : Nat, ∀ items total,
    GotPage db m table (some tenantId) (k + 1) perPage filters orderBy items total →
      Counted db m table (some tenantId) filters total ∧
      ∀ orderBy descending rows,
        GotAll db m table (some tenantId) filters orderBy descending rows → rows.length = total
  partition : ∀ (pages : Nat → List (Row V)) (total : Nat),
    (∀ k : Nat,
      GotPage db m table (some tenantId) (k + 1) perPage filters orderBy (pages k) total) →
    ((List.range (pageCount perPage.toNat total)).flatMap pages).Perm
      (wantedRows db m table tenantId filters)

/-! ## When it is given -/

/-- `order_by` is a column wherever the model has an attribute of that name. -/
def Sortable (m : Model V) (orderBy : Option String) : Prop :=
  ∀ name, orderBy = some name → name ≠ "" → ∀ a, m.getattr name = some a → a = .column

def createdColumn (m : Model V) : Option String :=
  if m.has "created_at" then some "created_at" else none

/-- The column the pages are sorted by: `order_by`, or `created_at`, or none. -/
def sortColumn (m : Model V) (orderBy : Option String) : Option String :=
  match orderBy with
  | some name => if name ≠ "" ∧ m.has name = true then some name else createdColumn m
  | none => createdColumn m

/-- Rows with one key may come in any order; smaller keys come first. -/
def sortKey (db : Database V K) (column : Option String) (r : Row V) : OrderDual K :=
  match column with
  | some column => OrderDual.toDual (db.rank (r.cell column))
  | none => OrderDual.toDual (db.rank none)

/-! ## The queries -/

theorem restrict_all (q : Query V) (condition : Row V → Bool) (r : Row V) :
    (q.restrict condition).conditions.all (fun c => c r) =
      (q.conditions.all (fun c => c r) && condition r) := by
  simp [Query.restrict]

theorem applyFilter_all (q : Query V) (f : String × Option V) (r : Row V) :
    (applyFilter db m q f).conditions.all (fun c => c r) = true ↔
      q.conditions.all (fun c => c r) = true ∧ meets db m r f = true := by
  unfold applyFilter meets
  cases f.2 with
  | none => simp
  | some value =>
    rcases m.getattr f.1 with _ | (_ | equals)
    · simp
    · simp [restrict_all]
    · simp [restrict_all]

theorem applyFilters_all (q : Query V) (filters : Filters V) (r : Row V) :
    (applyFilters db m q filters).conditions.all (fun c => c r) = true ↔
      q.conditions.all (fun c => c r) = true ∧ ∀ f ∈ filters, meets db m r f = true := by
  induction filters generalizing q with
  | nil => simp [applyFilters]
  | cons f filters ih =>
    rw [applyFilters, List.foldl_cons, ← applyFilters, ih, applyFilter_all, List.forall_mem_cons,
      and_assoc]

theorem tenantQuery_all (r : Row V) :
    (tenantQuery db m tenantId).conditions.all (fun c => c r) = true ↔
      db.holds (r.cell "tenant_id") tenantId = true ∧
        (m.has "deleted_at" = true → r.cell "deleted_at" = none) := by
  unfold tenantQuery
  by_cases hd : m.has "deleted_at" = true
  · simp [hd, Query.restrict]
  · simp [hd, Query.restrict]

/-- The query all three methods build before anything else. -/
def baseQuery (db : Database V K) (m : Model V) (tenantId : V) (filters : Filters V) : Query V :=
  applyFilters db m (tenantQuery db m tenantId) filters

theorem baseQuery_matching :
    (baseQuery db m tenantId filters).matching table = wantedRows db m table tenantId filters := by
  unfold Query.matching wantedRows
  refine List.filter_congr fun r _ => ?_
  rw [Bool.eq_iff_iff, baseQuery, applyFilters_all, tenantQuery_all, decide_eq_true_eq, wanted_iff]

/-- The query has conditions and nothing else. -/
structure Query.Bare (q : Query V) : Prop where
  order : q.order = none
  limit : q.limit = none
  offset : q.offset = 0

theorem applyFilters_bare {q : Query V} (hq : q.Bare) (filters : Filters V) :
    (applyFilters db m q filters).Bare := by
  induction filters generalizing q with
  | nil => exact hq
  | cons f filters ih =>
    rw [applyFilters, List.foldl_cons, ← applyFilters]
    refine ih ?_
    unfold applyFilter
    split
    · exact ⟨hq.order, hq.limit, hq.offset⟩
    · exact ⟨hq.order, hq.limit, hq.offset⟩
    · exact hq

theorem baseQuery_bare : (baseQuery db m tenantId filters).Bare := by
  refine applyFilters_bare ?_ filters
  unfold tenantQuery
  split <;> exact ⟨rfl, rfl, rfl⟩

theorem orderOn_ok {q q' : Query V} {name : String} {descending : Bool} :
    orderOn m q name descending = .ok q' ↔
      m.getattr name = some .column ∧ q' = { q with order := some (name, descending) } := by
  unfold orderOn
  split
  · rename_i hattr
    simp [hattr, eq_comm]
  · rename_i hattr
    constructor
    · intro h
      cases h
    · intro h
      exact absurd h.1 hattr

/-- The query sorted descending on the column, if there is one. -/
def Query.sortedOn (q : Query V) (column : Option String) : Query V :=
  { q with order := column.map (fun column => (column, true)) }

theorem created_ok {q q' : Query V} (hq : q.order = none) :
    (if m.has "created_at" then orderOn m q "created_at" true else pure q) = .ok q' ↔
      q' = q.sortedOn (createdColumn m) := by
  unfold createdColumn Query.sortedOn
  by_cases hc : m.has "created_at" = true
  · obtain ⟨a, ha⟩ := Option.isSome_iff_exists.1 hc
    have hattr : m.getattr "created_at" = some .column := by rw [ha, m.created a ha]
    simp [hc, orderOn_ok, hattr]
  · simp only [hc, Bool.false_eq_true, if_false, Option.map_none]
    rw [← hq]
    constructor
    · intro h
      cases h
      rfl
    · rintro rfl
      rfl

/-- `Sortable`, of a name that an `order_by` clause is made for. -/
theorem sortable_known {name : String} (hname : name ≠ "") (hhas : m.has name = true) :
    Sortable m (some name) ↔ m.getattr name = some .column := by
  obtain ⟨a, ha⟩ := Option.isSome_iff_exists.1 hhas
  constructor
  · intro h
    rw [ha, h name rfl hname a ha]
  · rintro h name' hname' - a' ha'
    cases hname'
    rw [h] at ha'
    cases ha'
    rfl

theorem sortable_default : Sortable m none := by
  intro name h
  cases h

theorem sortable_unknown {name : String} (h : ¬ (name ≠ "" ∧ m.has name = true)) :
    Sortable m (some name) := by
  rintro name' hname' hne a ha
  cases hname'
  exact absurd ⟨hne, by simp [Model.has, ha]⟩ h

theorem pageOrder_ok {q q' : Query V} (hq : q.order = none) :
    pageOrder m q orderBy = .ok q' ↔ Sortable m orderBy ∧ q' = q.sortedOn (sortColumn m orderBy) := by
  cases orderBy with
  | none =>
    rw [pageOrder, knownOrder, Option.filter_none, sortColumn, created_ok hq]
    exact (and_iff_right sortable_default).symm
  | some name =>
    by_cases hname : name ≠ "" ∧ m.has name = true
    · have hknown : knownOrder m (some name) = some name := by
        simp [knownOrder, Option.filter, hname]
      rw [pageOrder, hknown, sortColumn, if_pos hname, sortable_known hname.1 hname.2]
      exact orderOn_ok
    · have hknown : knownOrder m (some name) = none := by
        simpa [knownOrder, Option.filter] using hname
      rw [pageOrder, hknown, sortColumn, if_neg hname]
      rw [created_ok hq]
      exact (and_iff_right (sortable_unknown hname)).symm

def pageQuery (db : Database V K) (m : Model V) (tenantId : V) (page perPage : Int)
    (filters : Filters V) (orderBy : Option String) : Query V :=
  { (baseQuery db m tenantId filters).sortedOn (sortColumn m orderBy) with
    limit := some perPage, offset := (page - 1) * perPage }

/-- The query counted and the query for the page, as they come out of `get_paginated`. -/
theorem getPaginated_ok {page : Int} {countQ q : Query V} :
    getPaginated db m (some tenantId) page perPage filters orderBy = .ok (countQ, q) ↔
      Sortable m orderBy ∧ countQ = baseQuery db m tenantId filters ∧
        q = pageQuery db m tenantId page perPage filters orderBy := by
  have hdef : getPaginated db m (some tenantId) page perPage filters orderBy =
      (pageOrder m (baseQuery db m tenantId filters) orderBy).bind (fun q =>
        .ok (baseQuery db m tenantId filters,
          { q with limit := some perPage, offset := (page - 1) * perPage })) := rfl
  rw [hdef]
  constructor
  · intro h
    cases ho : pageOrder m (baseQuery db m tenantId filters) orderBy with
    | error e => rw [ho] at h; cases h
    | ok q' =>
      rw [ho] at h
      cases h
      obtain ⟨hs, rfl⟩ := (pageOrder_ok baseQuery_bare.order).1 ho
      exact ⟨hs, rfl, rfl⟩
  · rintro ⟨hs, rfl, rfl⟩
    rw [(pageOrder_ok baseQuery_bare.order).2 ⟨hs, rfl⟩]
    rfl

theorem getAll_ok {descending : Bool} {q : Query V}
    (h : getAll db m (some tenantId) filters orderBy descending = .ok q) :
    ∃ order, q = { baseQuery db m tenantId filters with order := order } := by
  have hdef : getAll db m (some tenantId) filters orderBy descending =
      match knownOrder m orderBy with
      | some name => orderOn m (baseQuery db m tenantId filters) name descending
      | none => pure (baseQuery db m tenantId filters) := rfl
  rw [hdef] at h
  split at h
  · exact ⟨_, (orderOn_ok.1 h).2⟩
  · cases h
    exact ⟨_, rfl⟩

/-! ## Answers -/

theorem pageQuery_window (hper : 1 ≤ perPage) (k : Nat) (rows : List (Row V)) :
    (pageQuery db m tenantId (k + 1) perPage filters orderBy).window rows =
      some (page perPage.toNat k rows) := by
  obtain ⟨n, rfl⟩ : ∃ n : Nat, perPage = n := ⟨perPage.toNat, by omega⟩
  have hoffset : ((k : Int) + 1 - 1) * (n : Int) = ((k * n : Nat) : Int) := by
    rw [Int.add_sub_cancel, Int.natCast_mul]
  simp only [Query.window, pageQuery, page, hoffset, Int.toNat_natCast]
  rw [if_neg (by omega)]

theorem counted_wanted : Counted db m table (some tenantId) filters
    (wantedRows db m table tenantId filters).length :=
  ⟨_, rfl, congrArg List.length baseQuery_matching.symm⟩

section Answers

variable [LinearOrder K]

theorem pageQuery_precedes (page : Int) (r r' : Row V) :
    (pageQuery db m tenantId page perPage filters orderBy).Precedes db r r' ↔
      sortKey db (sortColumn m orderBy) r ≤ sortKey db (sortColumn m orderBy) r' := by
  simp only [pageQuery, Query.sortedOn, Query.Precedes]
  cases sortColumn m orderBy with
  | none => exact ⟨fun _ => le_rfl, fun _ => trivial⟩
  | some column => exact Iff.rfl

theorem pageQuery_answers (hper : 1 ≤ perPage) (k : Nat) (items : List (Row V)) :
    (pageQuery db m tenantId (k + 1) perPage filters orderBy).Answers db table items ↔
      PageAnswer (sortKey db (sortColumn m orderBy)) (wantedRows db m table tenantId filters)
        perPage.toNat k items := by
  have hmatch : (pageQuery db m tenantId (k + 1) perPage filters orderBy).matching table =
      wantedRows db m table tenantId filters := baseQuery_matching
  constructor
  · rintro ⟨rows, hperm, hsorted, hwindow⟩
    rw [pageQuery_window hper] at hwindow
    cases hwindow
    exact ⟨rows, ⟨hmatch ▸ hperm, hsorted.imp (pageQuery_precedes _ _ _).1⟩, rfl⟩
  · rintro ⟨rows, hrows, rfl⟩
    exact ⟨rows, hmatch ▸ hrows.perm, hrows.sorted.imp (pageQuery_precedes _ _ _).2,
      pageQuery_window hper k rows⟩

theorem gotPage_iff (hper : 1 ≤ perPage) (k : Nat) (items : List (Row V)) (total : Nat) :
    GotPage db m table (some tenantId) (k + 1) perPage filters orderBy items total ↔
      Sortable m orderBy ∧ total = (wantedRows db m table tenantId filters).length ∧
        PageAnswer (sortKey db (sortColumn m orderBy)) (wantedRows db m table tenantId filters)
          perPage.toNat k items := by
  unfold GotPage
  constructor
  · rintro ⟨countQ, q, hq, rfl, hitems⟩
    obtain ⟨hs, rfl, rfl⟩ := getPaginated_ok.1 hq
    exact ⟨hs, by rw [Query.total, baseQuery_matching], (pageQuery_answers hper k items).1 hitems⟩
  · rintro ⟨hs, rfl, hitems⟩
    exact ⟨_, _, getPaginated_ok.2 ⟨hs, rfl, rfl⟩, by rw [Query.total, baseQuery_matching],
      (pageQuery_answers hper k items).2 hitems⟩

theorem gotAll_length {descending : Bool} {rows : List (Row V)}
    (h : GotAll db m table (some tenantId) filters orderBy descending rows) :
    rows.length = (wantedRows db m table tenantId filters).length := by
  obtain ⟨q, hq, rows', hperm, -, hwindow⟩ := h
  obtain ⟨order, rfl⟩ := getAll_ok hq
  have hmatch : Query.matching { baseQuery db m tenantId filters with order := order } table =
      wantedRows db m table tenantId filters := baseQuery_matching
  simp only [Query.window, baseQuery_bare.limit, baseQuery_bare.offset] at hwindow
  cases hwindow
  rw [← hmatch]
  exact hperm.length_eq

end Answers

/-! ## The pages -/

theorem wantedRows_nodup : (wantedRows db m table tenantId filters).Nodup :=
  (List.Nodup.of_map _ table.keyed).filter _

theorem pagination_partition_iff [LinearOrder K] (db : Database V K) (m : Model V)
    (table : Table V) (tenantId : V) (filters : Filters V) (orderBy : Option String) (perPage : Int)
    (hper : 1 ≤ perPage) :
    Partitions db m table tenantId perPage filters orderBy ↔
      Sortable m orderBy ∧ ∀ k, ¬ Cut (sortKey db (sortColumn m orderBy))
        (wantedRows db m table tenantId filters) (k * perPage.toNat) := by
  have hsize : 0 < perPage.toNat := by omega
  have hiff : (∀ pages : Nat → List (Row V), (∀ k, PageAnswer (sortKey db (sortColumn m orderBy))
        (wantedRows db m table tenantId filters) perPage.toNat k (pages k)) → _) ↔ _ :=
    pages_perm_iff wantedRows_nodup hsize
  constructor
  · intro h
    obtain ⟨items, total, hpage⟩ := h.returns 0
    have hs : Sortable m orderBy := ((gotPage_iff hper 0 items total).1 hpage).1
    refine ⟨hs, hiff.1 ?_⟩
    intro pages hpages
    exact h.partition pages _ (fun k => (gotPage_iff hper k _ _).2 ⟨hs, rfl, hpages k⟩)
  · rintro ⟨hs, hcut⟩
    constructor
    case returns =>
      intro k
      obtain ⟨rows, hrows⟩ := Arranged.exists (sortKey db (sortColumn m orderBy))
        (wantedRows db m table tenantId filters)
      exact ⟨_, _, (gotPage_iff hper k _ _).2 ⟨hs, rfl, rows, hrows, rfl⟩⟩
    case totals =>
      intro k items total hpage
      obtain ⟨-, rfl, -⟩ := (gotPage_iff hper k items total).1 hpage
      exact ⟨counted_wanted, fun orderBy descending rows hall => gotAll_length hall⟩
    case partition =>
      intro pages total hpages
      obtain ⟨-, rfl, -⟩ := (gotPage_iff hper 0 _ _).1 (hpages 0)
      refine hiff.2 hcut pages ?_
      intro k
      exact ((gotPage_iff hper k _ _).1 (hpages k)).2.2

/-! Rows of one tenant, by their `id` and `created_at`. -/

def demoRow (id createdAt : Nat) : Row Nat :=
  [("id", some id), ("tenant_id", some 7), ("created_at", some createdAt), ("deleted_at", none)]

def demoColumns : List String := ["id", "tenant_id", "created_at", "deleted_at"]

def demoModel : Model Nat where
  name := "Lead"
  getattr name := if name ∈ demoColumns then some .column else none
  tenant := rfl
  deleted := by rintro a h; cases h; rfl
  created := by rintro a h; cases h; rfl

/-- `NULL` sorts above every value. -/
def demoDb : Database Nat (WithTop Nat) where
  equal := fun x y => x == y
  rank
    | some x => .some x
    | none => ⊤

def demoDistinct : Table Nat where
  rows := [demoRow 1 100, demoRow 2 101, demoRow 3 102]
  keyed := by decide

def demoTied : Table Nat where
  rows := [demoRow 1 100, demoRow 2 100]
  keyed := by decide

/-- Pages of one row each, from answers that order the two tied rows differently. -/
def demoPages (k : Nat) : List (Row Nat) := if k ≤ 1 then [demoRow 1 100] else []

theorem distinct_timestamps_partition : (1 : Int) ≤ 2 ∧
    Partitions demoDb demoModel demoDistinct 7 2 [] none := by
  have hper : (1 : Int) ≤ 2 := by decide
  refine ⟨hper, (pagination_partition_iff _ _ _ _ _ _ _ hper).2 ⟨?_, ?_⟩⟩
  · exact sortable_default
  · intro k
    refine not_cut_of_nodup ?_ _
    decide

/-- Two rows with one timestamp on pages of one row: the first row can come twice and the second
never. -/
theorem tied_rows_repeated : ¬ ∀ (V K : Type) [LinearOrder K] (db : Database V K) (m : Model V)
    (table : Table V) (tenantId : V) (filters : Filters V) (orderBy : Option String) (perPage : Int),
    1 ≤ perPage → Partitions db m table tenantId perPage filters orderBy := by
  intro hall
  have h := hall Nat (WithTop Nat) demoDb demoModel demoTied 7 [] none 1 (by decide)
  have hpages : ∀ k : Nat,
      GotPage demoDb demoModel demoTied (some 7) (k + 1) 1 [] none (demoPages k) 2 := by
    intro k
    refine (gotPage_iff (by decide) k _ _).2 ⟨sortable_default, rfl, ?_⟩
    rcases k with _ | _ | k
    · exact ⟨[demoRow 1 100, demoRow 2 100], ⟨.refl _, by decide⟩, rfl⟩
    · exact ⟨[demoRow 2 100, demoRow 1 100], ⟨.swap .., by decide⟩, rfl⟩
    · exact ⟨[demoRow 1 100, demoRow 2 100], ⟨.refl _, by decide⟩, by simp [demoPages, page]⟩
  have hnodup := (h.partition demoPages 2 hpages).nodup_iff.2 wantedRows_nodup
  revert hnodup
  decide

end Db
end TrShared
