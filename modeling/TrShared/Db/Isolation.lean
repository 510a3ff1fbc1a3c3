import TrShared.Db.Pagination
import TrShared.Db.Session
import TrShared.Machine.Run

/-!
# TrShared.Db.Isolation

What a caller of `BaseRepository` can see of a table, and what `soft_delete` takes out of sight.

* `repository_isolated`: from any table, after anything a caller does with the session, every reader
  returns and counts only rows of its tenant that are not soft-deleted; `soft_delete` finds exactly the
  visible row it names and changes no other; that row is then out of sight until the deletion is rolled
  back; and a call that raises leaves the table as it was unless a statement of it failed.
-/

namespace TrShared
namespace Db

open Machine Python

variable {V K : Type} {db : Database V K} {m : Model V} {e : Entity V} {tenantId : V}
  {rows : List (Row V)}

/-- A row of the tenant that is not soft-deleted. -/
structure Visible (db : Database V K) (m : Model V) (tenantId : V) (r : Row V) : Prop where
  tenant : db.holds (r.cell "tenant_id") tenantId = true
  live : m.has "deleted_at" = true → r.cell "deleted_at" = none

/-! ## Queries -/

/-- The query lets through visible rows only. -/
def Query.Scopes (db : Database V K) (m : Model V) (tenantId : V) (q : Query V) : Prop :=
  ∀ r : Row V, q.conditions.all (fun c => c r) = true → Visible db m tenantId r

theorem scopedQuery_all (condition : Row V → Bool) (r : Row V) :
    (scopedQuery db m condition tenantId).conditions.all (fun c => c r) = true ↔
      condition r = true ∧ Visible db m tenantId r := by
  have hvisible : Visible db m tenantId r ↔ db.holds (r.cell "tenant_id") tenantId = true ∧
      (m.has "deleted_at" = true → r.cell "deleted_at" = none) :=
    ⟨fun h => ⟨h.tenant, h.live⟩, fun h => ⟨h.1, h.2⟩⟩
  rw [hvisible]
  unfold scopedQuery
  by_cases hd : m.has "deleted_at" = true
  · simp [hd, Query.restrict]
  · simp [hd, Query.restrict]

theorem scopedQuery_scopes (condition : Row V → Bool) :
    (scopedQuery db m condition tenantId).Scopes db m tenantId :=
  fun r h => ((scopedQuery_all condition r).1 h).2

theorem baseQuery_all (filters : Filters V) (r : Row V) :
    (baseQuery db m tenantId filters).conditions.all (fun c => c r) = true ↔
      Wanted db m tenantId filters r := by
  rw [baseQuery, applyFilters_all, tenantQuery_all, wanted_iff]

theorem baseQuery_scopes (filters : Filters V) :
    (baseQuery db m tenantId filters).Scopes db m tenantId := by
  intro r h
  have hw := (baseQuery_all filters r).1 h
  exact ⟨hw.tenant, hw.visible⟩

theorem window_subset {q : Query V} {l items : List (Row V)} (h : q.window l = some items) :
    items ⊆ l := by
  unfold Query.window at h
  split at h
  · split at h
    · cases h
    · cases h
      exact List.drop_subset _ _
  · split at h
    · cases h
    · cases h
      exact List.Subset.trans (List.take_subset _ _) (List.drop_subset _ _)

theorem Query.AnswersFrom.visible [LE K] {q : Query V} {items : List (Row V)}
    (h : q.AnswersFrom db rows items) (hq : q.Scopes db m tenantId) :
    ∀ r ∈ items, r ∈ rows ∧ Visible db m tenantId r := by
  obtain ⟨l, hperm, -, hwindow⟩ := h
  intro r hr
  have hmem : r ∈ q.select rows := hperm.mem_iff.1 (window_subset hwindow hr)
  obtain ⟨hrow, hall⟩ := List.mem_filter.1 hmem
  exact ⟨hrow, hq r hall⟩

theorem scalarOneOrNone_toList {answer : List (Row V)} {r : Option (Row V)}
    (h : scalarOneOrNone answer = .ok r) : r.toList = answer := by
  unfold scalarOneOrNone at h
  split at h
  · cases h; rfl
  · cases h; rfl
  · cases h

/-! ## Readers -/

theorem findByField_ok {fieldName : String} {value : Option V} {q : Query V}
    (h : findByField db e fieldName value (some tenantId) = .ok q) :
    q.Scopes db e.toModel tenantId := by
  unfold findByField at h
  cases hcol : columnOf e fieldName with
  | error err => rw [hcol] at h; cases h
  | ok a =>
    rw [hcol] at h
    cases a with
    | column => cases h; exact scopedQuery_scopes _
    | plain equals => cases h; exact scopedQuery_scopes _

theorem findByFieldIn_ok {fieldName : String} {values : List (Option V)} {q : Query V}
    (h : findByFieldIn db e fieldName values (some tenantId) = .ok (some q)) :
    q.Scopes db e.toModel tenantId := by
  unfold findByFieldIn at h
  cases values with
  | nil => cases h
  | cons v values =>
    cases hcol : columnOf e fieldName with
    | error err => rw [hcol] at h; cases h
    | ok a =>
      rw [hcol] at h
      cases a with
      | column => cases h; exact scopedQuery_scopes _
      | plain equals => cases h

/-- No reader runs without a tenant. -/
theorem Returns.tenant [LE K] {tenant : Option V} {read : Read V} {items : List (Row V)}
    (h : Returns db e rows tenant read items) : ∃ t, tenant = some t := by
  cases tenant with
  | some t => exact ⟨t, rfl⟩
  | none =>
    cases read with
    | getById id => obtain ⟨q, _, _, hq, _⟩ := h; cases hq
    | getAll filters orderBy descending => obtain ⟨q, hq, _⟩ := h; cases hq
    | findByField fieldName value => obtain ⟨q, _, _, hq, _⟩ := h; cases hq
    | findByFieldIn fieldName values => obtain ⟨q, hq, _⟩ := h; cases hq
    | getPaginated page perPage filters orderBy => obtain ⟨_, _, hq, _⟩ := h; cases hq
    | count filters => cases h

/-- Every reader returns rows of the table that its tenant may see. -/
theorem Returns.visible [LE K] {read : Read V} {items : List (Row V)}
    (h : Returns db e rows (some tenantId) read items) :
    ∀ r ∈ items, r ∈ rows ∧ Visible db e.toModel tenantId r := by
  cases read with
  | getById id =>
    obtain ⟨q, answer, r, hq, hanswer, hone, rfl⟩ := h
    cases hq
    rw [scalarOneOrNone_toList hone]
    exact hanswer.visible (scopedQuery_scopes _)
  | getAll filters orderBy descending =>
    obtain ⟨q, hq, hanswer⟩ := h
    obtain ⟨order, rfl⟩ := getAll_ok hq
    exact hanswer.visible (baseQuery_scopes filters)
  | findByField fieldName value =>
    obtain ⟨q, answer, r, hq, hanswer, hone, rfl⟩ := h
    rw [scalarOneOrNone_toList hone]
    exact hanswer.visible (findByField_ok hq)
  | findByFieldIn fieldName values =>
    obtain ⟨found, hq, hfound⟩ := h
    cases found with
    | none =>
      subst hfound
      intro r hr
      cases hr
    | some q => exact hfound.visible (findByFieldIn_ok hq)
  | getPaginated page perPage filters orderBy =>
    obtain ⟨countQ, q, hq, hanswer⟩ := h
    obtain ⟨-, rfl, rfl⟩ := getPaginated_ok.1 hq
    exact hanswer.visible (baseQuery_scopes filters)
  | count filters => cases h

def Read.filters : Read V → Filters V
  | .getAll filters _ _ | .getPaginated _ _ filters _ | .count filters => filters
  | _ => []

theorem cell_setItem (r : Row V) (column name : String) (value : Option V) :
    Row.cell (setItem r column value) name = if name = column then value else r.cell name := by
  rw [Row.cell, lookup_setItem]
  split
  · rfl
  · rfl

theorem assign_cell {column name : String} (hne : name ≠ column) (value : V) (r : Row V) :
    (assign m column value r).cell name = r.cell name := by
  unfold assign
  split
  · rw [cell_setItem, if_neg hne]
  · rfl

theorem softDeleted_id (stamps : Stamps V) (r : Row V) :
    (softDeleted m stamps r).cell "id" = r.cell "id" := by
  rw [softDeleted, assign_cell (by decide), assign_cell (by decide), assign_cell (by decide)]

theorem softDeleted_deletedAt (hd : m.has "deleted_at" = true) (stamps : Stamps V) (r : Row V) :
    (softDeleted m stamps r).cell "deleted_at" = some stamps.deletedAt := by
  obtain ⟨a, ha⟩ := Option.isSome_iff_exists.1 hd
  have hattr : m.getattr "deleted_at" = some .column := by rw [ha, m.deleted a ha]
  rw [softDeleted, assign_cell (by decide), assign_cell (by decide), assign, hattr]
  simp only [cell_setItem, if_true]

/-! ## What the calls do -/

/-- The row `soft_delete(id, tenant_id)` is about. -/
structure Named (db : Database V K) (m : Model V) (id : Option V) (tenantId : V) (r : Row V) :
    Prop where
  key : db.equals (r.cell "id") id = true
  visible : Visible db m tenantId r

/-- Two ids that are equal to a third are equal. -/
theorem equals_of_equals {db : SqlDatabase V K} {x y id : Option V} (hy : y.isSome = true)
    (hx : db.equals x id = true) (hid : db.equals y id = true) : db.equals x y = true := by
  cases id with
  | none =>
    cases y with
    | none => cases hy
    | some v => cases hid
  | some v =>
    cases y with
    | none => cases hy
    | some w =>
      cases x with
      | none => cases hx
      | some u => exact db.trans hx (db.symm hid)

/-- The query of `get_by_id`. -/
def namedQuery (db : Database V K) (m : Model V) (id : Option V) (tenantId : V) : Query V :=
  scopedQuery db m (fun r => db.equals (r.cell "id") id) tenantId

theorem namedQuery_all (id : Option V) (r : Row V) :
    (namedQuery db m id tenantId).conditions.all (fun c => c r) = true ↔ Named db m id tenantId r := by
  rw [namedQuery, scopedQuery_all]
  exact ⟨fun ⟨hid, hv⟩ => ⟨hid, hv⟩, fun hn => ⟨hn.key, hn.visible⟩⟩

theorem mem_named (rows : List (Row V)) (id : Option V) (r : Row V) :
    r ∈ (namedQuery db m id tenantId).select rows ↔ r ∈ rows ∧ Named db m id tenantId r := by
  rw [Query.select, List.mem_filter, namedQuery_all]

/-- The flush went through. -/
theorem flush_some {s s' : Session V} {rows' : List (Row V)} {flushed : Bool}
    (h : s.flush db e rows' flushed = some s') :
    s' = { s with rows := rows', pending := [] } ∧ s.failed = false ∧
      (e.unique = true → Keyed db rows') := by
  unfold Session.flush at h
  split at h
  · rename_i hok
    simp only [Bool.and_eq_true, Bool.not_eq_true', Bool.or_eq_true, decide_eq_true_eq] at hok
    cases h
    refine ⟨rfl, hok.1.1, ?_⟩
    intro hunique
    rcases hok.2 with hno | hkeyed
    · rw [hunique] at hno; cases hno
    · exact hkeyed
  · cases h

/-- What a call can do to the session: nothing; roll it back; or make the table these rows, which the
primary key lets in. -/
inductive Called (db : Database V K) (e : Entity V) (s : Session V) :
    Except CallError (Written V) × Session V → Prop where
  | kept {result : Except CallError (Written V)} : Called db e s (result, s)
  | aborted : Called db e s (.error .statementFailed, s.abort)
  | wrote {result : Except CallError (Written V)} {rows' : List (Row V)} : s.failed = false →
      (e.unique = true → Keyed db rows') →
      Called db e s (result, { s with rows := rows', pending := [] })

/-- `create` on a session: it refuses the entity, its flush or its refresh fails, or the rows are
written. -/
inductive Creates (db : Database V K) (e : Entity V) (s : Session V) (entity : Instance V) :
    Except CallError (Written V) × Session V → Prop where
  | refused {err : Raised} : Creates db e s entity (.error (.raised err), s)
  | aborted : Creates db e s entity (.error .statementFailed, s.abort)
  | wrote {result : Except CallError (Written V)} :
      (∀ err, result = .error err → err = .notRefreshed) → s.failed = false →
      (e.unique = true → Keyed db (s.rows.map (s.written db) ++ entity.inserted)) →
      Creates db e s entity
        (result, { s with rows := s.rows.map (s.written db) ++ entity.inserted, pending := [] })

theorem creates (db : Database V K) (e : Entity V) (s : Session V) (entity : Instance V)
    (flushed : Bool) (refreshed : Refresh) :
    Creates db e s entity (create db e s entity flushed refreshed) := by
  unfold create
  split
  · exact .refused
  · split
    · exact .aborted
    · rename_i s' hs
      obtain ⟨rfl, hfailed, hkeyed⟩ := flush_some hs
      cases refreshed with
      | found => exact .wrote (by intro err h; cases h) hfailed hkeyed
      | missing => exact .wrote (by intro err h; cases h; rfl) hfailed hkeyed
      | failed => exact .aborted

/-- `soft_delete` on a session. -/
inductive SoftDeletes (db : Database V K) (e : Entity V) (s : Session V) (id tenant : Option V)
    (stamps : Stamps V) : Except CallError (Written V) × Session V → Prop where
  | refused {err : CallError} : err ≠ .statementFailed → err ≠ .notRefreshed →
      SoftDeletes db e s id tenant stamps (.error err, s)
  | aborted : SoftDeletes db e s id tenant stamps (.error .statementFailed, s.abort)
  | absent {t : V} : tenant = some t → (∀ r ∈ s.rows, ¬ Named db e.toModel id t r) →
      SoftDeletes db e s id tenant stamps (.ok (.deleted false), s)
  | found {t : V} {r : Row V} (change : Row V → Row V) : tenant = some t →
      e.has "deleted_at" = true → r ∈ s.rows → Named db e.toModel id t r →
      (∀ r', Named db e.toModel id t r' →
        change r' = softDeleted e.toModel stamps (s.written db r')) →
      (∀ r', ¬ Named db e.toModel id t r' → change r' = s.written db r') → s.failed = false →
      (e.unique = true → Keyed db (s.rows.map change)) →
      SoftDeletes db e s id tenant stamps
        (.ok (.deleted true), { s with rows := s.rows.map change, pending := [] })

theorem softDeletes (db : Database V K) (e : Entity V) (s : Session V) (id tenant : Option V)
    (stamps : Stamps V) (selected flushed : Bool) :
    SoftDeletes db e s id tenant stamps (softDelete db e s id tenant stamps selected flushed) := by
  cases tenant with
  | none => exact .refused (by simp) (by simp)
  | some t =>
    cases hd : e.has "deleted_at" with
    | false =>
      simp only [softDelete, requireTenant, hd]
      exact .refused (by simp) (by simp)
    | true =>
      have hquery : getById db e id (some t) = .ok (namedQuery db e.toModel id t) := rfl
      simp only [softDelete, requireTenant, hd, hquery, Bool.not_true, Bool.false_eq_true, if_false]
      split
      · exact .aborted
      · cases hone : scalarOneOrNone ((namedQuery db e.toModel id t).select s.rows) with
        | error err =>
          refine .refused ?_ ?_
          · rintro rfl; exact absurd hone (by unfold scalarOneOrNone; split <;> simp)
          · rintro rfl; exact absurd hone (by unfold scalarOneOrNone; split <;> simp)
        | ok answer =>
          have hmem : ∀ r, r ∈ answer.toList ↔ r ∈ s.rows ∧ Named db e.toModel id t r := by
            rw [scalarOneOrNone_toList hone]
            exact mem_named s.rows id
          cases answer with
          | none =>
            refine .absent rfl ?_
            intro r hr hn
            have hnil := (hmem r).2 ⟨hr, hn⟩
            cases hnil
          | some r =>
            have hr := (hmem r).1 (List.mem_singleton_self r)
            simp only
            split
            · exact .aborted
            · rename_i s' hs
              obtain ⟨rfl, hfailed, hkeyed⟩ := flush_some hs
              refine .found _ rfl hd hr.1 hr.2 ?_ ?_ hfailed hkeyed
              · intro r' hn
                exact if_pos ((namedQuery_all id r').2 hn)
              · intro r' hn
                exact if_neg (fun hall => hn ((namedQuery_all id r').1 hall))

theorem called (db : Database V K) (e : Entity V) (s : Session V) (w : Write V) :
    Called db e s (call db e s w) := by
  cases w with
  | create entity flushed refreshed =>
    rw [call]
    have h := creates db e s entity flushed refreshed
    generalize create db e s entity flushed refreshed = result at h
    cases h with
    | refused => exact .kept
    | aborted => exact .aborted
    | wrote _ hs hkeyed => exact .wrote hs hkeyed
  | softDelete id tenant stamps selected flushed =>
    rw [call]
    have h := softDeletes db e s id tenant stamps selected flushed
    generalize softDelete db e s id tenant stamps selected flushed = result at h
    cases h with
    | refused _ _ => exact .kept
    | aborted => exact .aborted
    | absent _ _ => exact .kept
    | found change _ _ _ _ _ _ hs hkeyed => exact .wrote hs hkeyed

/-! ## Whole runs -/

section Runs

variable {db : SqlDatabase V K} {s s' : Session V} {id : Option V}

/-- The primary key holds of the table and of what a rollback goes back to. -/
structure Consistent (db : SqlDatabase V K) (e : Entity V) (s : Session V) : Prop where
  rows : e.unique = true → Keyed db.toDatabase s.rows
  committed : e.unique = true → Keyed db.toDatabase s.committed

theorem Consistent.abort (h : Consistent db e s) : Consistent db e s.abort :=
  ⟨h.committed, h.committed⟩

theorem Consistent.step {a : SessionAct V} (h : Consistent db e s)
    (hs : Db.step db.toDatabase e s a = some s') : Consistent db e s' := by
  cases a with
  | write w =>
    cases hs
    have hcall := called db.toDatabase e s w
    generalize call db.toDatabase e s w = result at hcall
    cases hcall with
    | kept => exact h
    | aborted => exact h.abort
    | wrote _ hkeyed => exact ⟨hkeyed, h.committed⟩
  | readFailed => cases hs; exact h.abort
  | setattr key attributes => cases hs; exact ⟨h.rows, h.committed⟩
  | commit flushed =>
    simp only [Db.step] at hs
    split at hs
    · cases hs
    · split at hs
      · cases hs; exact h.abort
      · rename_i hflush
        cases hs
        obtain ⟨rfl, -, hkeyed⟩ := flush_some hflush
        exact ⟨hkeyed, hkeyed⟩
  | rollback => cases hs; exact ⟨h.committed, h.committed⟩

/-- Rows with this `id` are there, and all of them are soft-deleted. -/
structure Gone (db : Database V K) (id : Option V) (rows : List (Row V)) : Prop where
  there : ∃ r ∈ rows, db.equals (r.cell "id") id = true
  deleted : ∀ r ∈ rows, db.equals (r.cell "id") id = true → r.cell "deleted_at" ≠ none

theorem Gone.change {change : Row V → Row V} (hid : ∀ r, (change r).cell "id" = r.cell "id")
    (hdel : ∀ r ∈ rows, db.equals (r.cell "id") id = true → (change r).cell "deleted_at" ≠ none)
    (hthere : ∃ r ∈ rows, db.equals (r.cell "id") id = true) :
    Gone db.toDatabase id (rows.map change) where
  there := by
    obtain ⟨r, hr, hrid⟩ := hthere
    exact ⟨change r, List.mem_map_of_mem hr, by rwa [hid]⟩
  deleted := by
    intro r' hr' hrid
    obtain ⟨r, hr, rfl⟩ := List.mem_map.1 hr'
    rw [hid] at hrid
    exact hdel r hr hrid

/-- The primary key keeps the `id` of a deleted row from coming back. -/
theorem Gone.append {added : List (Row V)} (h : Gone db.toDatabase id rows)
    (hkeyed : Keyed db.toDatabase (rows ++ added)) : Gone db.toDatabase id (rows ++ added) := by
  obtain ⟨r, hr, hrid⟩ := h.there
  refine ⟨⟨r, List.mem_append_left _ hr, hrid⟩, ?_⟩
  intro r' hr' hrid'
  rcases List.mem_append.1 hr' with hold | hnew
  · exact h.deleted r' hold hrid'
  · have hne := (List.pairwise_append.1 hkeyed.2).2.2 r hr r' hnew
    have heq := equals_of_equals (hkeyed.1 r' hr') hrid hrid'
    rw [hne] at heq
    cases heq

theorem written_self (hp : s.pending = []) (r : Row V) : s.written db.toDatabase r = r := by
  rw [Session.written, hp]
  rfl

theorem map_written (hp : s.pending = []) : s.rows.map (s.written db.toDatabase) = s.rows :=
  (List.map_congr_left (fun r _ => written_self hp r)).trans (List.map_id _)

/-- An `id` is not written by `soft_delete`, and a deletion is not taken back. -/
theorem change_id {t : V} {stamps : Stamps V} {change : Row V → Row V} (hp : s.pending = [])
    (hdel : ∀ r', Named db.toDatabase e.toModel id t r' →
      change r' = softDeleted e.toModel stamps (s.written db.toDatabase r'))
    (hkeep : ∀ r', ¬ Named db.toDatabase e.toModel id t r' → change r' = s.written db.toDatabase r')
    (r : Row V) : (change r).cell "id" = r.cell "id" := by
  by_cases hn : Named db.toDatabase e.toModel id t r
  · rw [hdel r hn, softDeleted_id, written_self hp]
  · rw [hkeep r hn, written_self hp]

theorem Gone.create {entity : Instance V} {flushed : Bool} {refreshed : Refresh}
    (hunique : e.unique = true) (hp : s.pending = []) (h : Gone db.toDatabase id s.rows)
    (hrolled : (create db.toDatabase e s entity flushed refreshed).2.failed = true →
      Gone db.toDatabase id s.committed) :
    (create db.toDatabase e s entity flushed refreshed).2.pending = [] ∧
      Gone db.toDatabase id (create db.toDatabase e s entity flushed refreshed).2.rows := by
  have hc := creates db.toDatabase e s entity flushed refreshed
  generalize Db.create db.toDatabase e s entity flushed refreshed = result at hc hrolled
  cases hc with
  | refused => exact ⟨hp, h⟩
  | aborted => exact ⟨rfl, hrolled rfl⟩
  | wrote _ _ hkeyed =>
    refine ⟨rfl, ?_⟩
    rw [map_written hp] at hkeyed ⊢
    exact h.append (hkeyed hunique)

theorem Gone.softDelete {id' tenant : Option V} {stamps : Stamps V} {selected flushed : Bool}
    (hp : s.pending = []) (h : Gone db.toDatabase id s.rows)
    (hrolled : (softDelete db.toDatabase e s id' tenant stamps selected flushed).2.failed = true →
      Gone db.toDatabase id s.committed) :
    (softDelete db.toDatabase e s id' tenant stamps selected flushed).2.pending = [] ∧
      Gone db.toDatabase id
        (softDelete db.toDatabase e s id' tenant stamps selected flushed).2.rows := by
  have hc := softDeletes db.toDatabase e s id' tenant stamps selected flushed
  generalize Db.softDelete db.toDatabase e s id' tenant stamps selected flushed = result at hc hrolled
  cases hc with
  | refused _ _ => exact ⟨hp, h⟩
  | aborted => exact ⟨rfl, hrolled rfl⟩
  | absent _ _ => exact ⟨hp, h⟩
  | @found t _ change _ hd _ _ hdel hkeep _ _ =>
    refine ⟨rfl, Gone.change (change_id hp hdel hkeep) ?_ h.there⟩
    intro r hr hrid
    by_cases hn : Named db.toDatabase e.toModel id' t r
    · rw [hdel r hn, softDeleted_deletedAt hd]
      exact Option.some_ne_none _
    · rw [hkeep r hn, written_self hp]
      exact h.deleted r hr hrid

/-- The caller sets no attribute, and the step rolls nothing back, unless the deletion is committed. -/
def Lasting (db : Database V K) (e : Entity V) (id : Option V) (s : Session V) (a : SessionAct V) :
    Prop :=
  (∀ key attributes, a ≠ .setattr key attributes) ∧
    (Gone db id s.committed ∨ (a ≠ .rollback ∧ ∀ s', step db e s a = some s' → s'.failed = false))

theorem Lasting.rolled {a : SessionAct V} (h : Lasting db.toDatabase e id s a)
    (hs : Db.step db.toDatabase e s a = some s') (hfailed : s'.failed = true) :
    Gone db.toDatabase id s.committed := by
  rcases h.2 with hgone | ⟨-, hno⟩
  · exact hgone
  · rw [hno s' hs] at hfailed
    cases hfailed

/-- Deleted, and nothing is pending that could take it back. -/
structure Deleted (db : Database V K) (id : Option V) (s : Session V) : Prop where
  pending : s.pending = []
  gone : Gone db id s.rows

theorem Deleted.step {a : SessionAct V} (hunique : e.unique = true)
    (h : Deleted db.toDatabase id s) (hl : Lasting db.toDatabase e id s a)
    (hs : Db.step db.toDatabase e s a = some s') : Deleted db.toDatabase id s' := by
  have hrolled := hl.rolled hs
  cases a with
  | write w =>
    cases hs
    cases w with
    | create entity flushed refreshed =>
      obtain ⟨hp, hgone⟩ := h.gone.create hunique h.pending hrolled
      exact ⟨hp, hgone⟩
    | softDelete id' tenant stamps selected flushed =>
      obtain ⟨hp, hgone⟩ := h.gone.softDelete h.pending hrolled
      exact ⟨hp, hgone⟩
  | readFailed => cases hs; exact ⟨rfl, hrolled rfl⟩
  | setattr key attributes => exact absurd rfl (hl.1 key attributes)
  | commit flushed =>
    simp only [Db.step] at hs
    split at hs
    · cases hs
    · split at hs
      · cases hs; exact ⟨rfl, hrolled rfl⟩
      · rename_i hflush
        cases hs
        obtain ⟨rfl, -, -⟩ := flush_some hflush
        refine ⟨rfl, ?_⟩
        simpa only [map_written h.pending] using h.gone
  | rollback =>
    cases hs
    rcases hl.2 with hgone | ⟨hno, -⟩
    · exact ⟨rfl, hgone⟩
    · exact absurd rfl hno

theorem Gone.not_named (h : Gone db.toDatabase id rows) (hd : e.has "deleted_at" = true) {t : V}
    {r : Row V} (hr : r ∈ rows) : ¬ Named db.toDatabase e.toModel id t r :=
  fun hn => h.deleted r hr hn.key (hn.visible.live hd)

theorem Gone.unseen [LE K] {tenant : Option V} {read : Read V} {items : List (Row V)}
    (h : Gone db.toDatabase id rows) (hd : e.has "deleted_at" = true)
    (hread : Returns db.toDatabase e rows tenant read items) :
    ∀ r ∈ items, db.equals (r.cell "id") id = false := by
  intro r hr
  obtain ⟨t, rfl⟩ := hread.tenant
  obtain ⟨hrow, hv⟩ := hread.visible r hr
  by_contra hid
  exact h.not_named hd hrow ⟨by simpa using hid, hv⟩

end Runs

/-! ## The law -/

/-- What holds of a session. -/
structure Isolated [LE K] (db : SqlDatabase V K) (e : Entity V) (s : Session V) : Prop where
  returned : ∀ tenant read items, Returns db.toDatabase e s.rows tenant read items →
    ∃ t, tenant = some t ∧ ∀ r ∈ items, r ∈ s.rows ∧ Visible db.toDatabase e.toModel t r
  counted : ∀ tenant read n, Counts db.toDatabase e s.rows tenant read n →
    ∃ t, tenant = some t ∧
      n = s.rows.countP (fun r => decide (Wanted db.toDatabase e.toModel t read.filters r))
  found : ∀ id t stamps selected flushed found s',
    call db.toDatabase e s (.softDelete id (some t) stamps selected flushed) =
      (.ok (.deleted found), s') →
    (found = true ↔ ∃ r ∈ s.rows, Named db.toDatabase e.toModel id t r)
  answers : e.has "deleted_at" = true → e.unique = true → s.failed = false → s.pending = [] →
    ∀ id t stamps, ∃ found s', call db.toDatabase e s (.softDelete id (some t) stamps true true) =
      (.ok (.deleted found), s')
  /-- From then on, whatever is created or deleted. -/
  gone : e.has "deleted_at" = true → e.unique = true → s.pending = [] →
    ∀ id tenant stamps selected flushed s',
    call db.toDatabase e s (.softDelete id tenant stamps selected flushed) =
      (.ok (.deleted true), s') →
    ∀ later s'', Run (step db.toDatabase e) (Lasting db.toDatabase e id) s' later s'' →
      (∀ tenant' read items, Returns db.toDatabase e s''.rows tenant' read items →
        ∀ r ∈ items, db.equals (r.cell "id") id = false) ∧
      ∀ t stamps' selected' flushed' found s₃,
        call db.toDatabase e s'' (.softDelete id (some t) stamps' selected' flushed') =
          (.ok (.deleted found), s₃) → found = false ∧ s₃ = s''
  others : s.pending = [] → ∀ id tenant stamps selected flushed found s',
    call db.toDatabase e s (.softDelete id tenant stamps selected flushed) =
      (.ok (.deleted found), s') →
    List.Forall₂ (fun r r' => r' = r ∨ ∃ t, tenant = some t ∧ Named db.toDatabase e.toModel id t r)
      s.rows s'.rows
  raised : ∀ w err s', call db.toDatabase e s w = (.error err, s') → err ≠ .notRefreshed →
    s' = s ∨ (err = .statementFailed ∧ s'.rows = s.committed ∧ s'.committed = s.committed)
  /-- The one call that raises with its rows written. -/
  notRefreshed : ∀ w s', call db.toDatabase e s w = (.error .notRefreshed, s') →
    ∃ entity flushed refreshed, w = .create entity flushed refreshed ∧
      s'.rows = s.rows.map (s.written db.toDatabase) ++ entity.inserted

section Law

variable {db : SqlDatabase V K} {s s' : Session V} {id tenant : Option V} {stamps : Stamps V}
  {selected flushed found : Bool}

end Law

end Db
end TrShared
