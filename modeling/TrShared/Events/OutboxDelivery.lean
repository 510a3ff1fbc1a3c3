import Mathlib.Data.List.Perm.Basic
import TrShared.Events.OutboxSteps

/-!
# TrShared.Events.OutboxDelivery

What every run of the outbox keeps, whatever fails and wherever a drain crashes: nothing is lost
and nothing is invented.

`Delivery` is the invariant. It survives stale snapshots because the columns that make up the
event (`Snapshot.event`) are never written by a drain, and it survives competing writers because
each of its clauses is about one `UPDATE` and what must have happened before a drain reaches it.
-/

namespace TrShared
namespace Events
namespace Outbox

open Python Machine

variable {cfg : DrainId → DrainConfig} {lib : Stdlib}

/-- The columns that make up the event; no drain writes them. -/
def Snapshot.event (x : Snapshot) : Snapshot := { x with retryCount := 0 }

theorem Write.apply_event (w : Write) (now : Int) (r : Row) :
    (w.apply now r).snapshot.event = r.snapshot.event := by
  cases w <;> rfl

theorem publishArgs_event (lib : Stdlib) (x : Snapshot) :
    publishArgs lib x.event = publishArgs lib x := rfl

/-- `e` is an event that publishing row `r` sends. -/
def Carries (lib : Stdlib) (e : WireEvent) (r : Row) : Prop :=
  ∃ args, publishArgs lib r.snapshot = some args ∧ e.eventType = args.eventType ∧
    e.tenantId = args.tenantId ∧ e.actorId = args.actorId.getD "" ∧
    e.data = lib.dumps args.data ∧ e.metadata = lib.dumps (.obj (eventMetadata args))

theorem Carries.of_event {e : WireEvent} {r r' : Row} (h : Carries lib e r)
    (he : r'.snapshot.event = r.snapshot.event) : Carries lib e r' := by
  obtain ⟨args, hargs, hrest⟩ := h
  refine ⟨args, ?_, hrest⟩
  rw [← publishArgs_event, he, publishArgs_event, hargs]

/-- Setting the correlation id read from the metadata changes nothing. -/
theorem eventMetadata_of_row {args : PublishArgs} {metadata : Dict}
    (hm : args.metadata = some metadata)
    (hc : args.correlationId = getD metadata "correlation_id" .null) :
    eventMetadata args = metadata := by
  simp only [eventMetadata, hm, hc, Option.getD_some]
  split
  · rename_i ht
    apply setItem_lookup
    simp only [getD] at ht ⊢
    cases hl : List.lookup "correlation_id" metadata with
    | none => rw [hl] at ht; cases ht
    | some v => rfl
  · rfl

/-- The event has the values the row's columns decode to. -/
theorem Carries.decoded {e : WireEvent} {r : Row} {data : Json} {metadata : Dict}
    (h : Carries lib e r) (hd : decodeData lib r.data = some data)
    (hm : decodeMetadata lib r.metadata = some metadata) :
    e.eventType = r.eventType ∧ e.tenantId = r.tenantId ∧ e.actorId = r.actorId.getD "" ∧
      e.data = lib.dumps data ∧ e.metadata = lib.dumps (.obj metadata) := by
  obtain ⟨args, hargs, h1, h2, h3, h4, h5⟩ := h
  simp only [publishArgs, Row.snapshot, hd, hm] at hargs
  cases hargs
  refine ⟨h1, h2, ?_, h4, ?_⟩
  · rw [h3]
    by_cases ha : r.actorId.getD "" = ""
    · simp [ha]
    · simp [ha]
  · rw [h5, eventMetadata_of_row rfl rfl]

theorem Carries.dict {e : WireEvent} {r : Row} {data metadata : Dict} (h : Carries lib e r)
    (hd : r.data = .obj data) (hm : r.metadata = .obj metadata) :
    e.eventType = r.eventType ∧ e.tenantId = r.tenantId ∧ e.actorId = r.actorId.getD "" ∧
      e.data = lib.dumps r.data ∧ e.metadata = lib.dumps r.metadata := by
  have hd' : decodeData lib r.data = some r.data := by rw [hd]; rfl
  have hm' : decodeMetadata lib r.metadata = some metadata := by rw [hm]; rfl
  have := h.decoded hd' hm'
  rwa [← hm] at this

/-- Start of a run: a table of rows no drain has touched, and no drain running. -/
def start (table : Table Row.id) (now : Int) : World := { now := now, table := table }

def Pending (table : Table Row.id) : Prop :=
  ∀ r ∈ table.rows, r.publishedAt = none ∧ r.deadLetter = false

/-! ## Rows stay, and batches hold stored rows -/

/-- A row the locking `SELECT` returns is a stored row. -/
theorem Selects.find {s : World} {limit : Nat} {picked : List Row} (h : Selects s limit picked)
    {r : Row} (hr : r ∈ picked) : s.table.find r.id = some r ∧ r.due s.now = true := by
  have hc := h.2.1 r hr
  simp only [World.candidates, List.mem_filter, Bool.and_eq_true] at hc
  exact ⟨Table.find_of_mem hc.1, hc.2.1⟩

/-- A stored row keeps its event through every move. -/
theorem apply_keeps_event {s : World} {d : DrainId} {m : Move} {id : RowId} {r : Row}
    (hr : s.table.find id = some r) :
    ∃ r', (s.apply d m).table.find id = some r' ∧ r'.snapshot.event = r.snapshot.event := by
  rw [apply_find, hr]
  cases m.writes with
  | none => exact ⟨r, rfl, rfl⟩
  | some p =>
    simp only
    split
    · exact ⟨_, rfl, Write.apply_event _ _ _⟩
    · exact ⟨r, rfl, rfl⟩

/-- A step keeps every row, with its event. -/
theorem step_keeps_row {s s' : World} {a : Act} (hs : step cfg lib s a = some s') {id : RowId}
    {r : Row} (hr : s.table.find id = some r) :
    ∃ r', s'.table.find id = some r' ∧ r'.snapshot.event = r.snapshot.event := by
  cases step_cases hs with
  | tick dt => exact ⟨r, hr, rfl⟩
  | insert hrow hnew =>
    exact ⟨r, Table.find_insert_of_find hnew hr, rfl⟩
  | select _ _ => exact ⟨r, hr, rfl⟩
  | drain hm _ => exact apply_keeps_event hr

theorem run_keeps_row {ok : World → Act → Prop} {s s' : World} {as : List Act}
    (h : Run (step cfg lib) ok s as s') {id : RowId} {r : Row} (hr : s.table.find id = some r) :
    ∃ r', s'.table.find id = some r' ∧ r'.snapshot.event = r.snapshot.event := by
  refine h.relation (I := fun _ => True)
    (R := fun s s' => ∀ id r, s.table.find id = some r →
      ∃ r', s'.table.find id = some r' ∧ r'.snapshot.event = r.snapshot.event)
    ?_ ?_ (fun _ _ _ _ _ _ => trivial) ?_ trivial id r hr
  · intro s id r hr
    exact ⟨r, hr, rfl⟩
  · intro s s' s'' h₁ h₂ id r hr
    obtain ⟨r1, hr1, he1⟩ := h₁ id r hr
    obtain ⟨r2, hr2, he2⟩ := h₂ id r1 hr1
    exact ⟨r2, hr2, he2.trans he1⟩
  · intro s a s' _ _ hs id r hr
    exact step_keeps_row hs hr

/-- Every row in a batch is stored, with the event of its snapshot. -/
def Known (s : World) : Prop :=
  ∀ d, ∀ x ∈ (s.drains d).phase.hold,
    ∃ r, s.table.find x.id = some r ∧ r.snapshot.event = x.event

theorem Known.start (table : Table Row.id) (now : Int) : Known (start table now) := by
  intro d x hx
  cases hx

theorem Known.step {s s' : World} {a : Act} (h : Known s)
    (hs : Outbox.step cfg lib s a = some s') : Known s' := by
  have keep : ∀ x : Snapshot, (∃ r, s.table.find x.id = some r ∧ r.snapshot.event = x.event) →
      ∃ r, s'.table.find x.id = some r ∧ r.snapshot.event = x.event := by
    rintro x ⟨r, hr, he⟩
    obtain ⟨r', hr', he'⟩ := step_keeps_row hs hr
    exact ⟨r', hr', he'.trans he⟩
  intro d' x hx
  apply keep
  cases step_cases hs with
  | tick dt => exact h d' x hx
  | insert _ _ => exact h d' x hx
  | select _ hsel =>
    rw [begin_phase] at hx
    split at hx
    · obtain ⟨r, hr, rfl⟩ := List.mem_map.1 hx
      exact ⟨r, (hsel.find hr).1, rfl⟩
    · exact h d' x hx
  | @drain d e m hm _ =>
    rw [apply_phase] at hx
    split at hx
    · exact h d x (hm.hold_sublist.subset hx)
    · exact h d' x hx

/-- A new stream entry is built from the drain's snapshot, and the stored row has the same event. -/
theorem Known.committed_drain {s : World} (h : Known s)
    (hc : ∀ a ∈ s.stream, ∃ r, s.table.find a.row = some r ∧ Carries lib a.event r)
    {d : DrainId} {e : Event} {m : Move}
    (hm : Moves (cfg d) lib s.now (s.drains d).phase e m) :
    ∀ a ∈ (s.apply d m).stream,
      ∃ r, (s.apply d m).table.find a.row = some r ∧ Carries lib a.event r := by
  intro a ha
  have key : ∃ r, s.table.find a.row = some r ∧ Carries lib a.event r := by
    rcases mem_apply_stream.1 ha with ha | ha
    · exact hc a ha
    · obtain ⟨row, rest, args, eventId, hph, hrow, hargs, hev, _, _⟩ := hm.accepts ha
      obtain ⟨r, hr, he⟩ := h d row (by rw [hph]; simp [Phase.hold])
      obtain ⟨_, h1, h2, h3, h4, h5⟩ := wireEvent_ok hev
      refine ⟨r, by rw [hrow]; exact hr, args, ?_, h1, h2, h3, h4, h5⟩
      rw [← publishArgs_event, he, publishArgs_event, hargs]
  obtain ⟨r, hr, hcar⟩ := key
  obtain ⟨r', hr', he'⟩ := apply_keeps_event (d := d) (m := m) hr
  exact ⟨r', hr', hcar.of_event he'⟩

/-! ## The invariant -/

structure Delivery (cfg : DrainId → DrainConfig) (lib : Stdlib) (s : World) : Prop where
  known : Known s
  committed : ∀ a ∈ s.stream, ∃ r, s.table.find a.row = some r ∧ Carries lib a.event r
  marking : ∀ d row rest, (s.drains d).phase = .marking row rest → ∃ a ∈ s.stream, a.row = row.id
  published : ∀ id r, s.table.find id = some r → r.publishedAt ≠ none →
    ∃ a ∈ s.stream, a.row = id
  excepted : ∀ d row n exc rest, (s.drains d).phase = .deadLettering row n exc rest →
    row.id ∈ s.raised
  dead : ∀ id r, s.table.find id = some r → r.deadLetter = true → id ∈ s.raised
  backoff : ∀ d row n nextAt exc rest, (s.drains d).phase = .retrying row n nextAt exc rest →
    nextAt ≤ s.now + seconds (cfg d).policy.maxBackoff

theorem Delivery.start {table : Table Row.id} (h : Pending table) (now : Int) :
    Delivery cfg lib (start table now) := by
  have hfind : ∀ id r, table.find id = some r → r.publishedAt = none ∧ r.deadLetter = false :=
    fun id r hr => h r (Table.find_some hr).1
  constructor
  case known => exact .start table now
  case committed => intro a ha; cases ha
  case marking => intro d row rest hd; cases hd
  case published => intro id r hr hp; exact absurd (hfind id r hr).1 hp
  case excepted => intro d row n exc rest hd; cases hd
  case dead =>
    intro id r hr hp
    rw [(hfind id r hr).2] at hp
    cases hp
  case backoff => intro d row n nextAt exc rest hd; cases hd

theorem Delivery.tick {s : World} (h : Delivery cfg lib s) (dt : Nat) :
    Delivery cfg lib { s with now := s.now + dt } := by
  refine { h with backoff := ?_ }
  intro d row n nextAt exc rest hd
  have := h.backoff d row n nextAt exc rest hd
  simp only
  omega

theorem Delivery.insert {s : World} (h : Delivery cfg lib s) {row : Row}
    (hnew : row.id ∉ s.table.rows.map Row.id) (hp : row.publishedAt = none)
    (hd : row.deadLetter = false) (hk : Known { s with table := s.table.insert row hnew }) :
    Delivery cfg lib { s with table := s.table.insert row hnew } := by
  constructor
  case known => exact hk
  case committed =>
    intro a ha
    obtain ⟨r, hr, hc⟩ := h.committed a ha
    exact ⟨r, Table.find_insert_of_find hnew hr, hc⟩
  case marking => exact h.marking
  case published =>
    intro id r hr hpub
    rcases Table.find_of_find_insert hnew hr with rfl | hr
    · exact absurd hp hpub
    · exact h.published id r hr hpub
  case excepted => exact h.excepted
  case dead =>
    intro id r hr hdead
    rcases Table.find_of_find_insert hnew hr with rfl | hr
    · rw [hd] at hdead; cases hdead
    · exact h.dead id r hr hdead
  case backoff => exact h.backoff

theorem Delivery.begin {s : World} (h : Delivery cfg lib s) {d : DrainId}
    {picked : List Row} (hk : Known (s.begin d picked)) :
    Delivery cfg lib (s.begin d picked) := by
  have hother : ∀ d' ph, ((s.begin d picked).drains d').phase = ph →
      (∀ rows, ph ≠ .selecting rows) → (s.drains d').phase = ph := by
    intro d' ph hph hne
    rw [begin_phase] at hph
    split at hph
    · exact absurd hph.symm (hne _)
    · exact hph
  constructor
  case known => exact hk
  case committed => exact h.committed
  case marking =>
    intro d' row rest hd
    exact h.marking d' row rest (hother d' _ hd (by simp))
  case published => exact h.published
  case excepted =>
    intro d' row n exc rest hd
    exact h.excepted d' row n exc rest (hother d' _ hd (by simp))
  case dead => exact h.dead
  case backoff =>
    intro d' row n nextAt exc rest hd
    exact h.backoff d' row n nextAt exc rest (hother d' _ hd (by simp))

theorem Delivery.drain {s : World} (h : Delivery cfg lib s) {d : DrainId} {e : Event} {m : Move}
    (hm : Moves (cfg d) lib s.now (s.drains d).phase e m) (hk : Known (s.apply d m)) :
    Delivery cfg lib (s.apply d m) := by
  constructor
  case known => exact hk
  case committed => exact h.known.committed_drain h.committed hm
  case marking =>
    intro d' row rest hd
    rw [apply_phase] at hd
    split at hd
    · obtain ⟨ev, ha, _⟩ := hm.next_marking hd
      exact ⟨_, mem_apply_stream.2 (.inr ha), rfl⟩
    · obtain ⟨a, ha, hrow⟩ := h.marking d' row rest hd
      exact ⟨a, mem_apply_stream.2 (.inl ha), hrow⟩
  case published =>
    intro id r' hr' hpub
    have key : ∃ a ∈ s.stream, a.row = id := by
      rcases apply_find_some hr' with ⟨hr, _⟩ | ⟨r, w, hr, hw, rfl⟩
      · exact h.published id r' hr hpub
      · obtain ⟨row, rest, rfl, _, _, ⟨hph, _⟩ | ⟨n, exc, _, rfl, _⟩ | ⟨n, nextAt, exc, _, rfl, _⟩⟩
          := hm.writes hw
        · exact h.marking d row rest hph
        · exact h.published row.id r hr hpub
        · exact h.published row.id r hr hpub
    obtain ⟨a, ha, hrow⟩ := key
    exact ⟨a, mem_apply_stream.2 (.inl ha), hrow⟩
  case excepted =>
    intro d' row n exc rest hd
    rw [apply_phase] at hd
    split at hd
    · exact mem_apply_raised.2 (.inr (hm.next_deadLettering hd).1)
    · exact mem_apply_raised.2 (.inl (h.excepted d' row n exc rest hd))
  case dead =>
    intro id r' hr' hdead
    apply mem_apply_raised.2
    left
    rcases apply_find_some hr' with ⟨hr, _⟩ | ⟨r, w, hr, hw, rfl⟩
    · exact h.dead id r' hr hdead
    · obtain ⟨row, rest, rfl, _, _, ⟨_, rfl⟩ | ⟨n, exc, hph, _, _⟩ | ⟨n, nextAt, exc, _, rfl, _⟩⟩
        := hm.writes hw
      · exact h.dead row.id r hr hdead
      · exact h.excepted d row n exc rest hph
      · exact h.dead row.id r hr hdead
  case backoff =>
    intro d' row n nextAt exc rest hd
    rw [apply_phase] at hd
    split at hd
    · rename_i he
      subst he
      exact RetryPolicy.later_le (hm.next_retrying hd).2
    · exact h.backoff d' row n nextAt exc rest hd

theorem Delivery.step {s s' : World} {a : Act} (h : Delivery cfg lib s)
    (hs : Outbox.step cfg lib s a = some s') : Delivery cfg lib s' := by
  have hk := h.known.step hs
  cases step_cases hs with
  | tick dt => exact h.tick dt
  | insert hrow hnew =>
    simp only [DurableArgs.row] at hrow
    split at hrow
    · cases hrow; exact h.insert hnew rfl rfl hk
    · cases hrow
  | select _ _ => exact h.begin hk
  | drain hm _ => exact h.drain hm hk

theorem Delivery.run {ok : World → Act → Prop} {table : Table Row.id} {now : Int}
    (hp : Pending table) {as : List Act} {s : World}
    (h : Run (Outbox.step cfg lib) ok (Outbox.start table now) as s) : Delivery cfg lib s :=
  h.invariant (fun _ _ _ hi _ hs => hi.step hs) (Delivery.start hp now)

/-! ## The locking `SELECT` -/

theorem candidates_nodup (s : World) : (s.candidates.map Row.id).Nodup :=
  (List.filter_sublist.map Row.id).nodup s.table.nodup

/-- The candidates in order, cut at the limit, are a possible result. -/
theorem selects_sorted (s : World) (limit : Nat) :
    Selects s limit
      ((s.candidates.mergeSort (fun a b => decide (a.nextRetryAt ≤ b.nextRetryAt))).take
        limit) := by
  have hsorted : (s.candidates.mergeSort
      (fun a b => decide (a.nextRetryAt ≤ b.nextRetryAt))).Pairwise
      (fun a b => decide (a.nextRetryAt ≤ b.nextRetryAt) = true) := by
    apply List.pairwise_mergeSort
    · intro a b c hab hbc
      simp only [decide_eq_true_eq] at *
      omega
    · intro a b
      simp only [Bool.or_eq_true, decide_eq_true_eq]
      omega
  generalize hl : s.candidates.mergeSort (fun a b => decide (a.nextRetryAt ≤ b.nextRetryAt)) = l
    at hsorted ⊢
  have hperm : l.Perm s.candidates := hl ▸ List.mergeSort_perm _ _
  simp only [decide_eq_true_eq] at hsorted
  refine ⟨?_, ?_, hsorted.sublist (List.take_sublist _ _), ?_, ?_⟩
  · have hn : (l.map Row.id).Nodup := (hperm.map Row.id).nodup_iff.2 (candidates_nodup s)
    exact ((List.take_sublist limit l).map Row.id).nodup hn
  · intro r hr
    exact hperm.subset ((List.take_sublist limit l).subset hr)
  · rw [List.length_take, hperm.length_eq]
  · intro r hr hout p hp
    have hdrop : r ∈ l.drop limit := by
      have hin : r ∈ l.take limit ++ l.drop limit := by
        rw [List.take_append_drop]; exact hperm.mem_iff.2 hr
      exact (List.mem_append.1 hin).resolve_left hout
    rw [← List.take_append_drop limit l, List.pairwise_append] at hsorted
    exact hsorted.2.2 p hp r hdrop

/-- The candidates due no later than `r`. When they fit the batch, `r` fits it in any order. -/
def World.ahead (s : World) (r : Row) : List Row :=
  s.candidates.filter (fun q => decide (q.nextRetryAt ≤ r.nextRetryAt))

theorem Selects.mem_of_fits {s : World} {limit : Nat} {picked : List Row} {r : Row}
    (h : Selects s limit picked) (hr : r ∈ s.candidates) (hfit : (s.ahead r).length ≤ limit) :
    r ∈ picked := by
  obtain ⟨hn, hsub, _, hlen, hbest⟩ := h
  by_contra hout
  have hn' : (r :: picked).Nodup := List.nodup_cons.2 ⟨hout, List.Nodup.of_map Row.id hn⟩
  have hahead : (r :: picked) ⊆ s.ahead r := by
    intro p hp
    simp only [World.ahead, List.mem_filter, decide_eq_true_eq]
    rcases List.mem_cons.1 hp with rfl | hp
    · exact ⟨hr, Int.le_refl _⟩
    · exact ⟨hsub p hp, hbest r hr hout p hp⟩
  have hall : (r :: picked) ⊆ s.candidates := List.cons_subset.2 ⟨hr, hsub⟩
  have h1 := (List.subperm_of_subset hn' hahead).length_le
  have h2 := (List.subperm_of_subset hn' hall).length_le
  simp only [List.length_cons] at h1 h2
  omega

/-! ## No loss, no phantom -/

def DictValued (r : Row) : Prop := ∃ data metadata, r.data = .obj data ∧ r.metadata = .obj metadata

/-- The event carries the row's type, tenant, actor, data and metadata. -/
def SameEvent (lib : Stdlib) (e : WireEvent) (r : Row) : Prop :=
  e.eventType = r.eventType ∧ e.tenantId = r.tenantId ∧ e.actorId = r.actorId.getD "" ∧
    e.data = lib.dumps r.data ∧ e.metadata = lib.dumps r.metadata

/-- The only statement that moves `next_retry_at` is the retry `UPDATE`, and what it writes was
computed at most `max_backoff` seconds ahead of an earlier moment. -/
theorem Delivery.retry_bound {s s' : World} (h : Delivery cfg lib s) {d : DrainId} {e : Event}
    (hs : Outbox.step cfg lib s (.drain d e) = some s') {id : RowId} {r r' : Row}
    (hr : s.table.find id = some r) (hr' : s'.table.find id = some r') :
    r'.nextRetryAt = r.nextRetryAt ∨
      r'.nextRetryAt ≤ s.now + seconds (cfg d).policy.maxBackoff := by
  cases step_cases hs with
  | drain hm _ =>
    rcases apply_find_some hr' with ⟨hr1, _⟩ | ⟨r1, w, hr1, hw, rfl⟩
    · rw [hr] at hr1; cases hr1; exact .inl rfl
    · rw [hr] at hr1
      cases hr1
      obtain ⟨row, rest, rfl, _, _, ⟨_, rfl⟩ | ⟨n, exc, _, rfl, _⟩ | ⟨n, nextAt, exc, hph, rfl, _⟩⟩
        := hm.writes hw
      · exact .inl rfl
      · exact .inl rfl
      · exact .inr (h.backoff d row n nextAt exc rest hph)

theorem drain_outbox_no_loss_no_phantom (cfg : DrainId → DrainConfig) (lib : Stdlib)
    (table : Table Row.id) (now : Int) (hp : Pending table) (as : List Act) (s : World)
    (h : Run (step cfg lib) (fun _ _ => True) (start table now) as s) :
    (∀ r ∈ s.table.rows, DictValued r →
      (r.publishedAt ≠ none → ∃ a ∈ s.stream, a.row = r.id ∧ SameEvent lib a.event r) ∧
      (r.deadLetter = true → r.id ∈ s.raised) ∧
      (r.publishedAt = none → r.deadLetter = false → r.nextRetryAt ≤ s.now →
        s.locked r.id = false → ∀ limit, (s.ahead r).length ≤ limit →
          (∃ picked, Selects s limit picked) ∧
            ∀ picked, Selects s limit picked → r ∈ picked)) ∧
    (∀ bs s', Run (step cfg lib) (fun _ _ => True) s bs s' → ∀ r ∈ s.table.rows,
      ∃ r' ∈ s'.table.rows, r'.id = r.id ∧ r'.snapshot.event = r.snapshot.event) ∧
    (∀ d e s', step cfg lib s (.drain d e) = some s' → ∀ r ∈ s.table.rows,
      ∀ r' ∈ s'.table.rows, r'.id = r.id → r'.nextRetryAt = r.nextRetryAt ∨
        r'.nextRetryAt ≤ s.now + seconds (cfg d).policy.maxBackoff) ∧
    (∀ a ∈ s.stream, ∃ r ∈ s.table.rows, a.row = r.id ∧
      (DictValued r → SameEvent lib a.event r)) := by
  have hi : Delivery cfg lib s := .run hp h
  have hentry : ∀ a ∈ s.stream, ∃ r ∈ s.table.rows, a.row = r.id ∧
      (DictValued r → SameEvent lib a.event r) := by
    intro a ha
    obtain ⟨r, hr, hc⟩ := hi.committed a ha
    obtain ⟨hmem, hid⟩ := Table.find_some hr
    refine ⟨r, hmem, hid.symm, ?_⟩
    rintro ⟨data, metadata, hd, hm⟩
    exact hc.dict hd hm
  refine ⟨?_, ?_, ?_, hentry⟩
  · intro r hr hdict
    have hfind := Table.find_of_mem hr
    refine ⟨?_, hi.dead r.id r hfind, ?_⟩
    · intro hpub
      obtain ⟨a, ha, hrow⟩ := hi.published r.id r hfind hpub
      obtain ⟨r1, hr1, hid1, hsame⟩ := hentry a ha
      have : r1 = r := by
        have hf1 := Table.find_of_mem hr1
        rw [← hid1, hrow, hfind] at hf1
        exact (Option.some.inj hf1).symm
      subst this
      exact ⟨a, ha, hrow, hsame hdict⟩
    · intro hpub hdead hdue hfree limit hfit
      have hc : r ∈ s.candidates := by
        simp [World.candidates, Row.due, hr, hpub, hdead, hdue, hfree]
      exact ⟨⟨_, selects_sorted s limit⟩, fun picked hsel => hsel.mem_of_fits hc hfit⟩
  · intro bs s' h' r hr
    obtain ⟨r', hr', he⟩ := run_keeps_row h' (Table.find_of_mem hr)
    exact ⟨r', (Table.find_some hr').1, (Table.find_some hr').2, he⟩
  · intro d e s' hs r hr r' hr' hid
    exact hi.retry_bound hs (Table.find_of_mem hr) (hid ▸ Table.find_of_mem hr')

/-! A table of one row. -/

def demoRow : Row :=
  { id := "row", eventType := "user.created", tenantId := "tenant", actorId := none
    data := .obj [], metadata := .obj [], nextRetryAt := 0 }

def demoTable : Table Row.id := ⟨[demoRow], by decide⟩

theorem demoTable_pending : Pending demoTable := by
  intro r hr
  simp only [demoTable, List.mem_singleton] at hr
  subst hr
  exact ⟨rfl, rfl⟩

def demoConfig (maxRetries : Int) (_ : DrainId) : DrainConfig :=
  { retryPolicy := some { maxRetries := maxRetries }, producer := { sourceService := "crm" } }

/-- A drain from its `SELECT` to the `publish` of the row. -/
def demoPublish (d : DrainId) (row : Row) (eventId : String) (reply : Reply) : List Act :=
  [.select d [row], .drain d .committed, .drain d (.publish eventId reply "timeout")]

theorem drained_row_is_on_the_stream :
    ∃ s, exec (step (demoConfig 10) demoLib) (start demoTable 0)
        (demoPublish 0 demoRow "e1" .ok ++ [.drain 0 (.update .ok "")]) = some s ∧
      s.stream.length = 1 ∧
      ∀ r ∈ s.table.rows, DictValued r → r.publishedAt ≠ none →
        ∃ a ∈ s.stream, a.row = r.id ∧ SameEvent demoLib a.event r := by
  obtain ⟨s, hs, hp⟩ := exec_any (s := start demoTable 0)
    (p := fun s => s.stream.length == 1)
    (show (exec (step (demoConfig 10) demoLib) (start demoTable 0)
      (demoPublish 0 demoRow "e1" .ok ++ [.drain 0 (.update .ok "")])).any _ = true by decide)
  refine ⟨s, hs, by simpa using hp, ?_⟩
  intro r hr hdict
  exact ((drain_outbox_no_loss_no_phantom _ _ _ _ demoTable_pending _ _
    (.of_exec_all (fun _ _ _ => trivial) hs)).1 r hr hdict).1

end Outbox
end Events
end TrShared
