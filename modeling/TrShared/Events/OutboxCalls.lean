import TrShared.Events.OutboxExclusive

/-!
# TrShared.Events.OutboxCalls

One call of `drain_outbox` as a whole: which rows of its batch it attempts, which `UPDATE`s it
executes, and what the counts it returns are the counts of.

`Journal` is a `World` with a record of the `publish` calls and of the executed `UPDATE`s. It
observes the run and decides nothing (`journal_step_world`). When the statements of a call succeed
and all its rows decode, the rows it has updated and the rows it still holds are its batch
(`Settling.split`), and its counters count its `UPDATE`s (`Settling.counted`).
-/

namespace TrShared
namespace Events
namespace Outbox

open Python Machine

variable {cfg : DrainId → DrainConfig} {lib : Stdlib}

/-- A call of `producer.publish`. -/
structure Attempt where
  row : RowId
  time : Int
  failed : Bool

structure Update where
  drain : DrainId
  row : RowId
  write : Write

structure Journal where
  world : World
  attempts : List Attempt := []
  updates : List Update := []

/-- The `publish` call that ends with this move, if one does. A row that does not decode raises
before it. -/
def Move.attempt (m : Move) (now : Int) : Event → Option Attempt
  | .publish _ _ _ =>
    match m.failed, m.accepts with
    | some id, _ => some { row := id, time := now, failed := true }
    | none, some a => some { row := a.row, time := now, failed := false }
    | none, none => none
  | _ => none

def Move.update (m : Move) (d : DrainId) : Option Update :=
  m.writes.map (fun w => { drain := d, row := w.1, write := w.2 })

def Journal.apply (j : Journal) (d : DrainId) (e : Event) (m : Move) : Journal :=
  { world := j.world.apply d m
    attempts := j.attempts ++ (m.attempt j.world.now e).toList
    updates := j.updates ++ (m.update d).toList }

def Journal.step (cfg : DrainId → DrainConfig) (lib : Stdlib) (j : Journal) : Act → Option Journal
  | .drain d e =>
    match move (cfg d) lib j.world.now (j.world.drains d).phase e with
    | none => none
    | some m => if m.writes.any (fun w => j.world.locked w.1) then none else some (j.apply d e m)
  | a => (Outbox.step cfg lib j.world a).map (fun w => { j with world := w })

/-- The record takes no part in the run. -/
theorem journal_step_world (j : Journal) (a : Act) :
    (j.step cfg lib a).map Journal.world = Outbox.step cfg lib j.world a := by
  cases a with
  | drain d e =>
    simp only [Journal.step, Outbox.step]
    cases move (cfg d) lib j.world.now (j.world.drains d).phase e with
    | none => rfl
    | some m =>
      simp only
      split <;> rfl
  | _ => simp [Journal.step, Function.comp_def]

/-- What one step does to the world and to the record. -/
inductive Journaled (cfg : DrainId → DrainConfig) (lib : Stdlib) (j : Journal) :
    Act → Journal → Prop where
  | tick (dt : Nat) :
      Journaled cfg lib j (.tick dt) { j with world := { j.world with now := j.world.now + dt } }
  | insert {args : DurableArgs} {asText inTransaction : Bool} {id : RowId} {row : Row}
      (hrow : args.row lib asText inTransaction id j.world.now = some row)
      (hnew : row.id ∉ j.world.table.rows.map Row.id) :
      Journaled cfg lib j (.insert args asText inTransaction id)
        { j with world := { j.world with table := j.world.table.insert row hnew } }
  | select {d : DrainId} {picked : List Row} (hready : (j.world.drains d).phase = .ready)
      (hsel : Selects j.world (cfg d).batchSize picked) :
      Journaled cfg lib j (.select d picked) { j with world := j.world.begin d picked }
  | drain {d : DrainId} {e : Event} {m : Move}
      (hmove : Moves (cfg d) lib j.world.now (j.world.drains d).phase e m) :
      Journaled cfg lib j (.drain d e) (j.apply d e m)

theorem journal_cases {j j' : Journal} {a : Act} (h : j.step cfg lib a = some j') :
    Journaled cfg lib j a j' := by
  cases a with
  | drain d e =>
    simp only [Journal.step] at h
    split at h
    · cases h
    · rename_i m hm
      split at h
      · cases h
      · cases h; exact .drain (move_cases hm)
  | tick dt =>
    obtain ⟨w, hw, rfl⟩ := Option.map_eq_some_iff.mp (by simpa only [Journal.step] using h)
    cases step_cases hw with
    | tick dt => exact .tick dt
  | insert args asText inTransaction id =>
    obtain ⟨w, hw, rfl⟩ := Option.map_eq_some_iff.mp (by simpa only [Journal.step] using h)
    cases step_cases hw with
    | insert hrow hnew => exact .insert hrow hnew
  | select d picked =>
    obtain ⟨w, hw, rfl⟩ := Option.map_eq_some_iff.mp (by simpa only [Journal.step] using h)
    cases step_cases hw with
    | select hready hsel => exact .select hready hsel

/-! ## The columns of a row -/

/-- The columns `drain_outbox` can decode: `data` is a dict or a text that is JSON, `metadata` is a
dict, a falsy value, or the text of a JSON object. -/
def Decodable (lib : Stdlib) (x : Snapshot) : Prop :=
  ((∃ d, x.data = .obj d) ∨ ∃ t, x.data = .str t ∧ lib.loads t ≠ none) ∧
    ((∃ d, x.metadata = .obj d) ∨ x.metadata.truthy = false ∨
      ∃ t d, x.metadata = .str t ∧ lib.loads t = some (.obj d))

theorem decodeData_ne_none {v : Json} :
    decodeData lib v ≠ none ↔ (∃ d, v = .obj d) ∨ ∃ t, v = .str t ∧ lib.loads t ≠ none := by
  cases v <;> simp [decodeData]

theorem decodeMetadata_ne_none (hobj : lib.loads "{}" = some (.obj [])) {v : Json} :
    decodeMetadata lib v ≠ none ↔ (∃ d, v = .obj d) ∨ v.truthy = false ∨
      ∃ t d, v = .str t ∧ lib.loads t = some (.obj d) := by
  cases v with
  | obj d => simp [decodeMetadata]
  | str t =>
    by_cases ht : t = ""
    · simp [decodeMetadata, Json.truthy, ht, hobj]
    · simp only [decodeMetadata, Json.truthy, bne_iff_ne, ne_eq, ht, not_false_eq_true, if_true]
      cases hl : lib.loads t with
      | none => simp [hl, ht]
      | some v => cases v <;> simp [hl, ht]
  | lone t => simp [decodeMetadata, Json.truthy]
  | null => simp [decodeMetadata, Json.truthy, hobj]
  | bool b => cases b <;> simp [decodeMetadata, Json.truthy, hobj]
  | num a x => by_cases ha : a = 0 <;> simp [decodeMetadata, Json.truthy, hobj, ha]
  | arr items => cases items <;> simp [decodeMetadata, Json.truthy, hobj]

theorem publishArgs_ne_none (hobj : lib.loads "{}" = some (.obj [])) {x : Snapshot} :
    publishArgs lib x ≠ none ↔ Decodable lib x := by
  rw [Decodable, ← decodeData_ne_none, ← decodeMetadata_ne_none hobj]
  simp only [publishArgs]
  cases decodeData lib x.data with
  | none => simp
  | some data => cases decodeMetadata lib x.metadata <;> simp

/-! ## One call -/

/-- The database statements of a drain succeed, and it does not crash. -/
def Event.smooth : Event → Prop
  | .update reply _ => reply = .ok
  | .crash => False
  | _ => True

/-- The row whose attempt fails with this event. -/
def Phase.failing (c : DrainConfig) (lib : Stdlib) (now : Int) : Phase → Event → Option Snapshot
  | .looping (row :: _), .publish eventId reply _ =>
    match publishArgs lib row with
    | none => none
    | some args =>
      match c.producer.wireEvent lib args eventId now with
      | .error _ => some row
      | .ok _ => if reply.returned then none else some row
  | .marking row _, .update reply _ => if reply.returned then none else some row
  | _, _ => none

/-- After a failed attempt on the row there is an `UPDATE` to execute: it is the last attempt, or the
time of the next one is a `datetime`. -/
def Reschedulable (c : DrainConfig) (now : Int) (row : Snapshot) : Prop :=
  c.policy.maxRetries ≤ (row.retryCount + 1 : Nat) ∨
    later now (c.policy.delayFor (row.retryCount + 1)) ≠ none

instance (c : DrainConfig) (now : Int) (row : Snapshot) : Decidable (Reschedulable c now row) :=
  inferInstanceAs (Decidable (_ ∨ _))

/-- No attempt fails on a row that cannot be rescheduled. -/
def Reschedules (cfg : DrainId → DrainConfig) (lib : Stdlib) (j : Journal) : Act → Prop
  | .drain d e => ∀ row, (j.world.drains d).phase.failing (cfg d) lib j.world.now e = some row →
      Reschedulable (cfg d) j.world.now row
  | _ => True

theorem onException_live {c : DrainConfig} {now : Int} {row : Snapshot} (h : Reschedulable c now row)
    (exc : String) (rest : List Snapshot) :
    (∃ n, onException c now row exc rest = .deadLettering row n exc rest) ∨
      ∃ n nextAt, onException c now row exc rest = .retrying row n nextAt exc rest := by
  rcases onException_cases c now row exc rest with ⟨_, ho⟩ | ⟨_, _, _, ho⟩ | ⟨hn, hnone, _⟩
  · exact .inl ⟨_, ho⟩
  · exact .inr ⟨_, _, ho⟩
  · rcases h with h | h
    · exact absurd h hn
    · exact absurd hnone h

theorem Reschedulable.hold {c : DrainConfig} {now : Int} {row : Snapshot}
    (h : Reschedulable c now row) (exc : String) (rest : List Snapshot) :
    (onException c now row exc rest).hold = row :: rest := by
  rcases onException_live h exc rest with ⟨_, ho⟩ | ⟨_, _, ho⟩
  · rw [ho]; rfl
  · rw [ho]; rfl

deriving instance DecidableEq for Tally

def Write.tally : Write → Tally
  | .published => .published
  | .deadLetter _ _ => .deadLettered
  | .retry _ _ _ => .retried

/-- One of the counts `drain_outbox` returns. -/
def Drain.count (x : Drain) : Tally → Nat
  | .published => x.published
  | .retried => x.retried
  | .deadLettered => x.deadLettered

/-- An `UPDATE` that is executed and not counted yet: a dead letter is counted after its
callback. -/
def Phase.uncounted : Phase → Tally → Nat
  | .notifying _ _ _ _, .deadLettered => 1
  | _, _ => 0

theorem advance_count (x : Drain) (m : Move) (t : Tally) :
    (x.advance m).count t = x.count t + if m.tally = some t then 1 else 0 := by
  simp only [Drain.advance]
  cases m.tally with
  | none => cases t <;> simp [Drain.count]
  | some t' => cases t' <;> cases t <;> simp [Drain.count]

@[simp] theorem onException_uncounted (c : DrainConfig) (now : Int) (row : Snapshot) (exc : String)
    (rest : List Snapshot) (t : Tally) : (onException c now row exc rest).uncounted t = 0 := by
  rcases onException_cases c now row exc rest with ⟨_, ho⟩ | ⟨_, _, _, ho⟩ | ⟨_, _, ho⟩
  · rw [ho]; cases t <;> rfl
  · rw [ho]; cases t <;> rfl
  · rw [ho]; cases t <;> rfl

section Call

variable {c : DrainConfig} {now : Int} {ph : Phase} {e : Event} {m : Move}

/-- A row leaves the batch with its `UPDATE`. -/
theorem Moves.hold_split (h : Moves c lib now ph e m) (he : e.smooth)
    (hdec : ∀ x ∈ ph.hold, publishArgs lib x ≠ none)
    (hre : ∀ row, ph.failing c lib now e = some row → Reschedulable c now row) :
    (m.writes.map Prod.fst).toList ++ m.next.hold.map Snapshot.id = ph.hold.map Snapshot.id := by
  cases h with
  | undecodable hnone => exact absurd hnone (hdec _ (by simp [Phase.hold]))
  | @rejected row _ _ _ _ _ _ hargs hev | @publishLost row _ _ _ _ _ hargs hev
  | @publishRefused row _ _ _ _ _ hargs hev =>
    have hr := hre row (by simp [Phase.failing, hargs, hev, Reply.returned])
    simp only [failure, hr.hold]
    simp [Phase.hold]
  | markFailed hne => exact absurd he hne
  | deadLettered | retried =>
    cases he
    simp [wrote, Reply.took, Reply.returned, Phase.hold]
  | committed | finish | publishOk | marked | notified => simp [Phase.hold]
  | crash => exact he.elim

theorem Moves.next_live (h : Moves c lib now ph e m) (he : e.smooth)
    (hdec : ∀ x ∈ ph.hold, publishArgs lib x ≠ none)
    (hre : ∀ row, ph.failing c lib now e = some row → Reschedulable c now row) :
    m.next ≠ .raised ∧ m.next ≠ .ready := by
  cases h with
  | undecodable hnone => exact absurd hnone (hdec _ (by simp [Phase.hold]))
  | @rejected row rest _ _ _ _ _ hargs hev | @publishLost row rest _ _ _ _ hargs hev
  | @publishRefused row rest _ _ _ _ hargs hev =>
    have hr := hre row (by simp [Phase.failing, hargs, hev, Reply.returned])
    simp only [failure]
    rcases onException_live hr _ rest with ⟨_, ho⟩ | ⟨_, _, ho⟩ <;> rw [ho] <;> simp
  | markFailed hne => exact absurd he hne
  | deadLettered | retried =>
    cases he
    simp [Reply.returned]
  | committed | finish | publishOk | marked | notified => simp
  | crash => exact he.elim

/-- Every `UPDATE` is counted, at once or after the callback. -/
theorem Moves.counted (h : Moves c lib now ph e m) (he : e.smooth) (t : Tally) :
    (if m.tally = some t then 1 else 0) + m.next.uncounted t =
      ph.uncounted t + if m.writes.map (fun w => w.2.tally) = some t then 1 else 0 := by
  cases h with
  | undecodable | committed | finish | publishOk => simp [Phase.uncounted]
  | rejected | publishLost | publishRefused =>
    simp only [failure, onException_uncounted]
    simp [Phase.uncounted]
  | marked => cases t <;> simp [Phase.uncounted, Write.tally]
  | markFailed hne => exact absurd he hne
  | deadLettered | retried =>
    cases he
    cases t <;> simp [wrote, Reply.took, Reply.returned, Phase.uncounted, Write.tally]
  | notified => cases t <;> simp [Phase.uncounted]
  | crash => exact he.elim

end Call

/-- The `UPDATE`s executed by one drain. -/
def Journal.updatesOf (j : Journal) (d : DrainId) : List Update :=
  j.updates.filter (fun u => decide (u.drain = d))

theorem updatesOf_self (j : Journal) (d : DrainId) (e : Event) (m : Move) :
    (j.apply d e m).updatesOf d = j.updatesOf d ++ (m.update d).toList := by
  simp only [Journal.updatesOf, Journal.apply, List.filter_append]
  congr 1
  cases h : m.writes <;> simp [Move.update, h]

theorem updatesOf_other (j : Journal) {d d' : DrainId} (hd : d' ≠ d) (e : Event) (m : Move) :
    (j.apply d' e m).updatesOf d = j.updatesOf d := by
  simp only [Journal.updatesOf, Journal.apply, List.filter_append]
  cases h : m.writes <;> simp [Move.update, h, hd]

/-- A call whose rows all decode, with the ids of its batch. -/
structure Settling (lib : Stdlib) (d : DrainId) (batch : List RowId) (j : Journal) : Prop where
  live : (j.world.drains d).phase ≠ .raised ∧ (j.world.drains d).phase ≠ .ready
  decodable : ∀ x ∈ (j.world.drains d).phase.hold, publishArgs lib x ≠ none
  split : (j.updatesOf d).map Update.row ++ j.world.holds d = batch
  counted : ∀ t, (j.world.drains d).count t + (j.world.drains d).phase.uncounted t =
    (j.updatesOf d).countP (fun u => decide (u.write.tally = t))

/-- It depends on the drain and its own `UPDATE`s alone. -/
theorem Settling.congr {d : DrainId} {batch : List RowId} {j j' : Journal}
    (h : Settling lib d batch j) (hd : j'.world.drains d = j.world.drains d)
    (hu : j'.updatesOf d = j.updatesOf d) : Settling lib d batch j' where
  live := by rw [hd]; exact h.live
  decodable := by rw [hd]; exact h.decodable
  split := by
    have hh : j'.world.holds d = j.world.holds d := by simp only [World.holds, hd]
    rw [hu, hh]
    exact h.split
  counted := by rw [hd, hu]; exact h.counted

theorem Settling.drain {d : DrainId} {batch : List RowId} {j : Journal} {e : Event} {m : Move}
    (h : Settling lib d batch j)
    (hm : Moves (cfg d) lib j.world.now (j.world.drains d).phase e m) (he : e.smooth)
    (hre : Reschedules cfg lib j (.drain d e)) : Settling lib d batch (j.apply d e m) := by
  have hphase : ((j.apply d e m).world.drains d).phase = m.next := by
    simp only [Journal.apply]
    rw [apply_phase, if_pos rfl]
  constructor
  case live => rw [hphase]; exact hm.next_live he h.decodable hre
  case decodable =>
    intro x hx
    rw [hphase] at hx
    exact h.decodable x (hm.hold_sublist.subset hx)
  case split =>
    have hsplit := hm.hold_split he h.decodable hre
    have hrow : ((m.update d).toList).map Update.row = (m.writes.map Prod.fst).toList := by
      cases hw : m.writes <;> simp [Move.update, hw]
    rw [updatesOf_self, World.holds, hphase, List.map_append, hrow, List.append_assoc, hsplit]
    exact h.split
  case counted =>
    intro t
    have hc := hm.counted he t
    have hcount : ((j.apply d e m).world.drains d).count t =
        (j.world.drains d).count t + if m.tally = some t then 1 else 0 := by
      rw [← advance_count]
      simp [Journal.apply, World.apply]
    have hupd : ((m.update d).toList).countP (fun u => decide (u.write.tally = t)) =
        if m.writes.map (fun w => w.2.tally) = some t then 1 else 0 := by
      cases hw : m.writes <;> simp [Move.update, hw, List.countP_cons]
    have hold := h.counted t
    rw [updatesOf_self, List.countP_append, hupd, hcount, hphase]
    omega

end Outbox
end Events
end TrShared
