import TrShared.Events.OutboxCalls

/-!
# TrShared.Events.OutboxPoison

Whether one row of a batch can keep `drain_outbox` from the others.

The per-row `try` begins after the row is decoded, and its `except` block computes the time of the
next attempt outside any `try`. A column that does not decode, or a backoff that leads past the last
`datetime`, therefore ends the whole call, with the rows behind it untouched, and since the `SELECT`
goes by `next_retry_at` the same row comes first again. `drain_settles_iff`: a call whose database
statements succeed settles its batch, whatever the publishes do, exactly if every row of the batch
decodes and can be rescheduled at any moment of the call.
-/

namespace TrShared
namespace Events
namespace Outbox

open Python Machine

variable {cfg : DrainId → DrainConfig} {lib : Stdlib} {d : DrainId}

/-- The statements of drain `d` succeed and it is over by `T`; everything else is free. -/
def Smooth (d : DrainId) (T : Int) (j : Journal) : Act → Prop
  | .tick dt => j.world.now + dt ≤ T
  | .drain d' e => d' = d → e.smooth
  | _ => True

/-- Drain `d` runs alone, and the `publish` of a row ends as `answers` says. -/
def Driven (d : DrainId) (answers : RowId → String × Reply × String) (j : Journal) : Act → Prop
  | .drain d' e => d' = d ∧ e.smooth ∧
      ∀ row rest, (j.world.drains d).phase = .looping (row :: rest) →
        e = .publish (answers row.id).1 (answers row.id).2.1 (answers row.id).2.2
  | _ => False

theorem Driven.smooth {answers : RowId → String × Reply × String} {T : Int} {j : Journal} {a : Act}
    (h : Driven d answers j a) : Smooth d T j a := by
  cases a with
  | drain d' e => intro _; exact h.2.1
  | _ => exact h.elim

/-! ## A call that settles its batch -/

theorem Settling.step {batch : List RowId} {T : Int} {j j' : Journal} {a : Act}
    (h : Settling lib d batch j) (ha : Smooth d T j a)
    (hre : ∀ e, a = .drain d e → Reschedules cfg lib j a) (hs : j.step cfg lib a = some j') :
    Settling lib d batch j' := by
  cases journal_cases hs with
  | tick dt => exact h.congr rfl rfl
  | insert hrow hnew => exact h.congr rfl rfl
  | @select d' picked hready hsel =>
    have hne : d ≠ d' := by
      rintro rfl
      exact h.live.2 hready
    exact h.congr (by simp [World.begin, hne]) rfl
  | @drain d' e m hm =>
    by_cases hd : d' = d
    · subst hd
      exact h.drain hm (ha rfl) (hre e rfl)
    · exact h.congr (apply_drain_of_ne _ (Ne.symm hd) m) (updatesOf_other j hd e m)

/-- A call begins with its `SELECT`. -/
theorem Settling.begin {j : Journal} {picked : List Row} (hd : j.world.drains d = {})
    (hu : j.updatesOf d = []) (hdec : ∀ r ∈ picked, publishArgs lib r.snapshot ≠ none) :
    Settling lib d (picked.map Row.id) { j with world := j.world.begin d picked } where
  live := by simp [begin_phase]
  decodable := by
    intro x hx
    rw [begin_phase, if_pos rfl] at hx
    obtain ⟨r, hr, rfl⟩ := List.mem_map.mp hx
    exact hdec r hr
  split := by
    have hu' : ({ j with world := j.world.begin d picked } : Journal).updatesOf d = [] := hu
    rw [hu', begin_holds]
    simp
  counted := by
    intro t
    have hu' : ({ j with world := j.world.begin d picked } : Journal).updatesOf d = [] := hu
    rw [hu']
    cases t <;> simp [World.begin, hd, Drain.count, Phase.uncounted]

theorem tally_sum (us : List Update) :
    us.countP (fun u => decide (u.write.tally = .published)) +
      us.countP (fun u => decide (u.write.tally = .retried)) +
      us.countP (fun u => decide (u.write.tally = .deadLettered)) = us.length := by
  induction us with
  | nil => rfl
  | cons u us ih =>
    simp only [List.countP_cons, List.length_cons]
    cases u.write.tally <;> simp <;> omega

theorem Settling.returned {batch : List RowId} {j : Journal} (h : Settling lib d batch j)
    (hph : (j.world.drains d).phase = .returned) :
    (j.updatesOf d).map Update.row = batch ∧
      (j.world.drains d).published + (j.world.drains d).retried +
        (j.world.drains d).deadLettered = batch.length := by
  have hrows : (j.updatesOf d).map Update.row = batch := by
    have := h.split
    simpa [World.holds, hph, Phase.hold] using this
  have hcount : ∀ t, (j.world.drains d).count t =
      (j.updatesOf d).countP (fun u => decide (u.write.tally = t)) := by
    intro t
    have := h.counted t
    simpa [hph, Phase.uncounted] using this
  refine ⟨hrows, ?_⟩
  have h1 := hcount .published
  have h2 := hcount .retried
  have h3 := hcount .deadLettered
  have hsum := tally_sum (j.updatesOf d)
  simp only [Drain.count] at h1 h2 h3
  rw [h1, h2, h3, hsum, ← hrows, List.length_map]

/-! ## Driving a call -/

section Drive

variable {answers : RowId → String × Reply × String} {j : Journal}

theorem journal_step_drain {e : Event} {m : Move}
    (hm : move (cfg d) lib j.world.now (j.world.drains d).phase e = some m)
    (hfree : ∀ w, m.writes = some w → j.world.locked w.1 = false) :
    j.step cfg lib (.drain d e) = some (j.apply d e m) := by
  simp only [Journal.step, hm]
  cases hw : m.writes with
  | none => simp
  | some w => simp [hfree w hw]

theorem apply_locked {s : World} {m : Move} {id : RowId} (h : s.locked id = false) :
    (s.apply d m).locked id = false := by
  simp only [World.locked, World.apply, List.any_eq_false, List.mem_filter] at h ⊢
  intro l hl
  exact h l hl.1

@[simp] theorem journal_apply_phase {e : Event} {m : Move} :
    ((j.apply d e m).world.drains d).phase = m.next := by
  simp only [Journal.apply]
  rw [apply_phase, if_pos rfl]

theorem journal_apply_phase_of_ne {e : Event} {m : Move} {d' : DrainId} (hd : d' ≠ d) :
    ((j.apply d e m).world.drains d').phase = (j.world.drains d').phase := by
  simp only [Journal.apply]
  rw [apply_phase, if_neg hd]

/-- The call has settled the rows before `rest`, and no row of `rest` is locked. -/
structure Before (d : DrainId) (t : Int) (rest : List Snapshot) (j : Journal) : Prop where
  phase : (j.world.drains d).phase = .looping rest
  free : ∀ x ∈ rest, j.world.locked x.id = false
  time : j.world.now = t

/-- One event of the drain outside the head of its loop. -/
theorem drive_event (answers : RowId → String × Reply × String) (e : Event) {m : Move}
    (he : e.smooth) (hph : ∀ row rest, (j.world.drains d).phase ≠ .looping (row :: rest))
    (hm : move (cfg d) lib j.world.now (j.world.drains d).phase e = some m)
    (hfree : ∀ w, m.writes = some w → j.world.locked w.1 = false) :
    ∃ j', Run (Journal.step cfg lib) (Driven d answers) j [.drain d e] j' ∧
      (j'.world.drains d).phase = m.next ∧ j'.world.now = j.world.now ∧
      ∀ id, j.world.locked id = false → j'.world.locked id = false := by
  have hok : Driven d answers j (.drain d e) := by
    refine ⟨rfl, he, ?_⟩
    intro row rest h
    exact absurd h (hph row rest)
  refine ⟨_, .single hok (journal_step_drain hm hfree), journal_apply_phase, rfl, ?_⟩
  intro id hid
  exact apply_locked hid

/-- The dead-letter callback; what it raises is logged. -/
theorem drive_notify (answers : RowId → String × Reply × String) {row : Snapshot} {n : Nat}
    {exc : String} {rest : List Snapshot}
    (hph : (j.world.drains d).phase = .notifying row n exc rest)
    (hfree : ∀ x ∈ rest, j.world.locked x.id = false) :
    ∃ bs j', Run (Journal.step cfg lib) (Driven d answers) j bs j' ∧
      Before d j.world.now rest j' := by
  have hm : move (cfg d) lib j.world.now (j.world.drains d).phase .notified =
      some { next := .looping rest, tally := some .deadLettered
             callback := some (row.id, n, exc) } := by
    rw [hph]; rfl
  obtain ⟨j', hrun, hnext, hnow, hkeep⟩ := drive_event answers .notified trivial (by simp [hph]) hm
    (by rintro w ⟨⟩)
  exact ⟨_, j', hrun, hnext, fun x hx => hkeep _ (hfree x hx), hnow⟩

/-- From a `publish` that ended to the next row. -/
theorem drive_settle (answers : RowId → String × Reply × String) {row : Snapshot}
    {rest : List Snapshot}
    (hph : (j.world.drains d).phase = .marking row rest ∨
      (∃ n exc, (j.world.drains d).phase = .deadLettering row n exc rest) ∨
      ∃ n nextAt exc, (j.world.drains d).phase = .retrying row n nextAt exc rest)
    (hfree : ∀ x ∈ row :: rest, j.world.locked x.id = false) :
    ∃ bs j', Run (Journal.step cfg lib) (Driven d answers) j bs j' ∧
      Before d j.world.now rest j' := by
  have hrow : j.world.locked row.id = false := hfree row List.mem_cons_self
  have hrest : ∀ x ∈ rest, j.world.locked x.id = false :=
    fun x hx => hfree x (List.mem_cons_of_mem _ hx)
  rcases hph with hph | ⟨n, exc, hph⟩ | ⟨n, nextAt, exc, hph⟩
  · have hm : move (cfg d) lib j.world.now (j.world.drains d).phase (.update .ok "") =
        some { next := .looping rest, writes := some (row.id, .published)
               tally := some .published } := by
      rw [hph]; rfl
    obtain ⟨j', hrun, hnext, hnow, hkeep⟩ := drive_event answers (.update .ok "") rfl
      (by simp [hph]) hm (by rintro w ⟨⟩; exact hrow)
    exact ⟨_, j', hrun, hnext, fun x hx => hkeep _ (hrest x hx), hnow⟩
  · have hm : move (cfg d) lib j.world.now (j.world.drains d).phase (.update .ok "") =
        some { next := .notifying row n exc rest
               writes := some (row.id, .deadLetter n (prefixOf 500 exc)) } := by
      rw [hph]; rfl
    obtain ⟨j', hrun, hnext, hnow, hkeep⟩ := drive_event answers (.update .ok "") rfl
      (by simp [hph]) hm (by rintro w ⟨⟩; exact hrow)
    obtain ⟨bs, j'', hrun', hbefore⟩ := drive_notify answers hnext
      (fun x hx => hkeep _ (hrest x hx))
    exact ⟨_, j'', hrun.append hrun', hnow ▸ hbefore⟩
  · have hm : move (cfg d) lib j.world.now (j.world.drains d).phase (.update .ok "") =
        some { next := .looping rest
               writes := some (row.id, .retry n nextAt (prefixOf 500 exc))
               tally := some .retried } := by
      rw [hph]; rfl
    obtain ⟨j', hrun, hnext, hnow, hkeep⟩ := drive_event answers (.update .ok "") rfl
      (by simp [hph]) hm (by rintro w ⟨⟩; exact hrow)
    exact ⟨_, j', hrun, hnext, fun x hx => hkeep _ (hrest x hx), hnow⟩

/-- The `publish` of a row that decodes goes on to mark the row or to the `except` block. -/
theorem publishMove_next (c : DrainConfig) (now : Int) {row : Snapshot} (rest : List Snapshot)
    (hdec : publishArgs lib row ≠ none) (eventId : String) (reply : Reply) (exc : String) :
    (publishMove c lib now row rest eventId reply exc).writes = none ∧
      ((publishMove c lib now row rest eventId reply exc).next = .marking row rest ∨
        ∃ exc', (publishMove c lib now row rest eventId reply exc).next =
          onException c now row exc' rest) := by
  simp only [publishMove]
  split
  · exact absurd ‹_› hdec
  · split
    · exact ⟨rfl, .inr ⟨_, rfl⟩⟩
    · cases reply with
      | ok => exact ⟨rfl, .inl rfl⟩
      | lost => exact ⟨rfl, .inr ⟨_, rfl⟩⟩
      | refused => exact ⟨rfl, .inr ⟨_, rfl⟩⟩

theorem drive_publish (answers : RowId → String × Reply × String) {row : Snapshot} {rest : List Snapshot}
    (hph : (j.world.drains d).phase = .looping (row :: rest))
    (hw : (publishMove (cfg d) lib j.world.now row rest (answers row.id).1 (answers row.id).2.1
      (answers row.id).2.2).writes = none) :
    ∃ a j', Run (Journal.step cfg lib) (Driven d answers) j [a] j' ∧
      j'.world = j.world.apply d (publishMove (cfg d) lib j.world.now row rest (answers row.id).1
        (answers row.id).2.1 (answers row.id).2.2) := by
  have hm : move (cfg d) lib j.world.now (j.world.drains d).phase
      (.publish (answers row.id).1 (answers row.id).2.1 (answers row.id).2.2) =
      some (publishMove (cfg d) lib j.world.now row rest (answers row.id).1 (answers row.id).2.1
        (answers row.id).2.2) := by
    rw [hph]; rfl
  have hok : Driven d answers j (.drain d (.publish (answers row.id).1 (answers row.id).2.1
      (answers row.id).2.2)) := by
    refine ⟨rfl, trivial, ?_⟩
    intro row' rest' hph'
    rw [hph] at hph'
    cases hph'
    rfl
  refine ⟨_, _, .single hok (journal_step_drain hm ?_), rfl⟩
  intro w hw'
  rw [hw] at hw'
  cases hw'

theorem drive_row {t : Int} {row : Snapshot} {rest : List Snapshot}
    (h : Before d t (row :: rest) j) (hdec : publishArgs lib row ≠ none)
    (hre : Reschedulable (cfg d) t row) :
    ∃ bs j', Run (Journal.step cfg lib) (Driven d answers) j bs j' ∧ Before d t rest j' := by
  obtain rfl := h.time
  obtain ⟨hw, hnext⟩ := publishMove_next (cfg d) j.world.now rest hdec
    (answers row.id).1 (answers row.id).2.1 (answers row.id).2.2
  obtain ⟨a, j₁, hrun, hj₁⟩ := drive_publish answers h.phase hw
  have hfree : ∀ x ∈ row :: rest, j₁.world.locked x.id = false := by
    intro x hx
    rw [hj₁]
    exact apply_locked (h.free x hx)
  have hph : (j₁.world.drains d).phase = .marking row rest ∨
      (∃ n exc, (j₁.world.drains d).phase = .deadLettering row n exc rest) ∨
      ∃ n nextAt exc, (j₁.world.drains d).phase = .retrying row n nextAt exc rest := by
    rw [hj₁, apply_phase, if_pos rfl]
    rcases hnext with hnext | ⟨exc, hnext⟩
    · exact .inl hnext
    · rw [hnext]
      rcases onException_live hre exc rest with ⟨_, ho⟩ | ⟨_, _, ho⟩
      · exact .inr (.inl ⟨_, _, ho⟩)
      · exact .inr (.inr ⟨_, _, _, ho⟩)
  obtain ⟨bs, j₂, hrun', hbefore⟩ := drive_settle answers hph hfree
  have hnow : j₁.world.now = j.world.now := by rw [hj₁]; rfl
  exact ⟨_, _, hrun.append hrun', hnow ▸ hbefore⟩

/-- The call gets past every row that decodes and can be rescheduled, whatever the publishes do. -/
theorem drive_rows {t : Int} {pre post : List Snapshot} (h : Before d t (pre ++ post) j)
    (hpre : ∀ x ∈ pre, publishArgs lib x ≠ none ∧ Reschedulable (cfg d) t x) :
    ∃ bs j', Run (Journal.step cfg lib) (Driven d answers) j bs j' ∧ Before d t post j' := by
  induction pre generalizing j with
  | nil => exact ⟨[], j, .nil, h⟩
  | cons row pre ih =>
    obtain ⟨hdec, hre⟩ := hpre row List.mem_cons_self
    obtain ⟨bs, j₁, hrun, h₁⟩ := drive_row h hdec hre
    obtain ⟨bs', j₂, hrun', h₂⟩ := ih h₁ (fun x hx => hpre x (List.mem_cons_of_mem _ hx))
    exact ⟨_, _, hrun.append hrun', h₂⟩

/-- A publish of a row that does not decode, or that is refused for a row that cannot be
rescheduled, ends the call. -/
theorem publishMove_raises {c : DrainConfig} {now : Int} {row : Snapshot} (rest : List Snapshot)
    (h : publishArgs lib row = none ∨ ¬ Reschedulable c now row) (eventId exc : String) :
    (publishMove c lib now row rest eventId .refused exc).next = .raised ∧
      (publishMove c lib now row rest eventId .refused exc).writes = none := by
  have hfail : ¬ Reschedulable c now row → ∀ exc', onException c now row exc' rest = .raised := by
    intro hno exc'
    simp only [Reschedulable, not_or, not_not] at hno
    rcases onException_cases c now row exc' rest with ⟨hle, _⟩ | ⟨_, nextAt, hat, _⟩ | ⟨_, _, ho⟩
    · exact absurd hle hno.1
    · rw [hno.2] at hat; cases hat
    · exact ho
  simp only [publishMove]
  split
  · exact ⟨rfl, rfl⟩
  · rename_i args hargs
    have hno := h.resolve_left (by simp [hargs])
    split
    · exact ⟨hfail hno _, rfl⟩
    · exact ⟨hfail hno _, rfl⟩

/-- A call in front of such a row raises when its publish is refused. -/
theorem drive_raise {t : Int} {row : Snapshot} {rest : List Snapshot}
    (h : Before d t (row :: rest) j)
    (hbad : publishArgs lib row = none ∨ ¬ Reschedulable (cfg d) t row) :
    ∃ bs j', Run (Journal.step cfg lib) (Driven d (fun _ => ("", .refused, ""))) j bs j' ∧
      (j'.world.drains d).phase = .raised := by
  obtain rfl := h.time
  obtain ⟨hnext, hw⟩ := publishMove_raises (c := cfg d) rest hbad "" ""
  have hpublish := drive_publish (fun _ => ("", .refused, "")) h.phase hw
  obtain ⟨a, j₁, hrun, hj₁⟩ := hpublish
  refine ⟨_, _, hrun, ?_⟩
  rw [hj₁, apply_phase, if_pos rfl, hnext]

/-- The end of the `SELECT` transaction frees the rows of the batch. -/
theorem drive_commit (cfg : DrainId → DrainConfig) (lib : Stdlib) (d : DrainId)
    (answers : RowId → String × Reply × String) {w : World} {limit : Nat} {picked : List Row}
    (hsel : Selects w limit picked) :
    ∃ bs j', Run (Journal.step cfg lib) (Driven d answers) { world := w.begin d picked } bs j' ∧
      Before d w.now (picked.map Row.snapshot) j' := by
  have hph : ((w.begin d picked).drains d).phase = .selecting (picked.map Row.snapshot) := by
    rw [begin_phase, if_pos rfl]
  have hm : move (cfg d) lib (w.begin d picked).now ((w.begin d picked).drains d).phase .committed =
      some { next := .looping (picked.map Row.snapshot) } := by
    rw [hph]; rfl
  have hok : Driven d answers { world := w.begin d picked } (.drain d .committed) := by
    refine ⟨rfl, trivial, ?_⟩
    intro row rest h
    rw [hph] at h
    cases h
  refine ⟨_, _, .single hok (journal_step_drain hm (by rintro w ⟨⟩)), journal_apply_phase, ?_, rfl⟩
  intro x hx
  obtain ⟨r, hr, rfl⟩ := List.mem_map.mp hx
  have hc := hsel.2.1 r hr
  simp only [World.candidates, List.mem_filter, Bool.and_eq_true, Bool.not_eq_true', World.locked,
    List.any_eq_false, beq_iff_eq] at hc
  simp only [Journal.apply, World.apply, World.begin, World.locked, List.any_eq_false,
    List.mem_filter, List.mem_append, List.mem_map, bne_iff_ne, beq_iff_eq]
  rintro l ⟨hl | ⟨r', _, rfl⟩, hne⟩
  · exact hc.2.2 l hl
  · exact absurd rfl hne

end Drive

/-- A call whose statements succeed and that is over by `T` does not raise, executes one `UPDATE` for
each row of its batch and returns their number; and it does return, however the publishes end. -/
def SettlesBatch (cfg : DrainId → DrainConfig) (lib : Stdlib) (w : World) (d : DrainId)
    (picked : List Row) (T : Int) : Prop :=
  (∀ bs j, Run (Journal.step cfg lib) (Smooth d T) { world := w.begin d picked } bs j →
    (j.world.drains d).phase ≠ .raised ∧
      ((j.world.drains d).phase = .returned →
        (j.updatesOf d).map Update.row = picked.map Row.id ∧
          (j.world.drains d).published + (j.world.drains d).retried +
            (j.world.drains d).deadLettered = picked.length)) ∧
  ∀ answers : RowId → String × Reply × String, ∃ bs j,
    Run (Journal.step cfg lib) (Driven d answers) { world := w.begin d picked } bs j ∧
      (j.world.drains d).phase = .returned

/-- The row decodes, and at any moment of a call from `t` to `T` it can be rescheduled. -/
def Harmless (c : DrainConfig) (lib : Stdlib) (t T : Int) (x : Snapshot) : Prop :=
  Decodable lib x ∧ ∀ now, t ≤ now → now ≤ T → Reschedulable c now x

/-- A call within its time whose rows are all harmless. -/
structure Punctual (cfg : DrainId → DrainConfig) (d : DrainId) (t T : Int) (j : Journal) : Prop where
  started : t ≤ j.world.now
  timely : j.world.now ≤ T
  rows : ∀ x ∈ (j.world.drains d).phase.hold, ∀ now, t ≤ now → now ≤ T →
    Reschedulable (cfg d) now x

theorem failing_hold {c : DrainConfig} {now : Int} {ph : Phase} {e : Event} {row : Snapshot}
    (h : ph.failing c lib now e = some row) : row ∈ ph.hold := by
  unfold Phase.failing at h
  split at h
  · split at h
    · cases h
    · split at h
      · cases h; simp [Phase.hold]
      · split at h
        · cases h
        · cases h; simp [Phase.hold]
  · split at h
    · cases h
    · cases h; simp [Phase.hold]
  · cases h

theorem Punctual.reschedules {t T : Int} {j : Journal} (h : Punctual cfg d t T j) (e : Event) :
    Reschedules cfg lib j (.drain d e) := by
  intro row hrow
  exact h.rows row (failing_hold hrow) _ h.started h.timely

theorem Punctual.step {t T : Int} {j j' : Journal} {a : Act} (h : Punctual cfg d t T j)
    (hready : (j.world.drains d).phase ≠ .ready) (ha : Smooth d T j a)
    (hs : j.step cfg lib a = some j') : Punctual cfg d t T j' := by
  cases journal_cases hs with
  | tick dt => exact ⟨by have := h.started; simp only; omega, ha, h.rows⟩
  | insert hrow hnew => exact ⟨h.started, h.timely, h.rows⟩
  | @select d' picked hready' hsel =>
    refine ⟨h.started, h.timely, ?_⟩
    have hne : d ≠ d' := by
      rintro rfl
      exact hready hready'
    rw [begin_phase, if_neg hne]
    exact h.rows
  | @drain d' e m hm =>
    refine ⟨h.started, h.timely, ?_⟩
    intro x hx
    by_cases hd : d = d'
    · subst hd
      rw [journal_apply_phase] at hx
      exact h.rows x (hm.hold_sublist.subset hx)
    · rw [journal_apply_phase_of_ne hd] at hx
      exact h.rows x hx

theorem settlesBatch_of_harmless {w : World} {limit : Nat} {picked : List Row} {T : Int}
    (hd : w.drains d = {}) (hsel : Selects w limit picked) (hT : w.now ≤ T)
    (hrows : ∀ r ∈ picked, publishArgs lib r.snapshot ≠ none ∧
      ∀ now, w.now ≤ now → now ≤ T → Reschedulable (cfg d) now r.snapshot) :
    SettlesBatch cfg lib w d picked T := by
  refine ⟨?_, ?_⟩
  · intro bs j hrun
    have hstart : Punctual cfg d w.now T { world := w.begin d picked } := by
      refine ⟨Int.le_refl _, hT, ?_⟩
      intro x hx
      rw [begin_phase, if_pos rfl] at hx
      obtain ⟨r, hr, rfl⟩ := List.mem_map.mp hx
      exact (hrows r hr).2
    have hj : Settling lib d (picked.map Row.id) j ∧ Punctual cfg d w.now T j := by
      refine hrun.invariant
        (I := fun j => Settling lib d (picked.map Row.id) j ∧ Punctual cfg d w.now T j) ?_
        ⟨Settling.begin (j := { world := w }) hd rfl (fun r hr => (hrows r hr).1), hstart⟩
      rintro j a j' ⟨hset, hpun⟩ ha hs
      exact ⟨hset.step ha (fun e he => he ▸ hpun.reschedules e) hs,
        hpun.step hset.live.2 ha hs⟩
    refine ⟨hj.1.live.1, ?_⟩
    intro hph
    have := hj.1.returned hph
    simpa using this
  · intro answers
    obtain ⟨bs, j₁, hrun, h₁⟩ := drive_commit cfg lib d answers hsel
    have hall : ∀ x ∈ picked.map Row.snapshot,
        publishArgs lib x ≠ none ∧ Reschedulable (cfg d) w.now x := by
      intro x hx
      obtain ⟨r, hr, rfl⟩ := List.mem_map.mp hx
      exact ⟨(hrows r hr).1, (hrows r hr).2 _ (Int.le_refl _) hT⟩
    rw [← List.append_nil (picked.map Row.snapshot)] at h₁
    obtain ⟨bs', j₂, hrun', h₂⟩ := drive_rows h₁ hall
    have hm : move (cfg d) lib j₂.world.now (j₂.world.drains d).phase .finish =
        some { next := .returned } := by
      rw [h₂.phase]; rfl
    obtain ⟨j₃, hfin, hret, -⟩ := drive_event answers .finish trivial (by simp [h₂.phase]) hm
      (by rintro w ⟨⟩)
    exact ⟨_, j₃, (hrun.append hrun').append hfin, hret⟩

/-- The first row that is not harmless ends the call: at once if it does not decode, and otherwise
when its publish fails at the moment it cannot be rescheduled at. -/
theorem raises_of_harmful {w : World} {limit : Nat} {picked : List Row} {T : Int}
    (hsel : Selects w limit picked) (hT : w.now ≤ T) {r : Row} (hr : r ∈ picked)
    (hbad : publishArgs lib r.snapshot = none ∨
      ∃ now, w.now ≤ now ∧ now ≤ T ∧ ¬ Reschedulable (cfg d) now r.snapshot) :
    ∃ bs j, Run (Journal.step cfg lib) (Smooth d T) { world := w.begin d picked } bs j ∧
      (j.world.drains d).phase = .raised := by
  classical
  let bad : Snapshot → Prop := fun x => publishArgs lib x = none ∨
    ∃ now, w.now ≤ now ∧ now ≤ T ∧ ¬ Reschedulable (cfg d) now x
  have hex : ((picked.map Row.snapshot).find? (fun x => decide (bad x))).isSome := by
    rw [List.find?_isSome]
    exact ⟨r.snapshot, List.mem_map_of_mem hr, decide_eq_true hbad⟩
  obtain ⟨x, hx⟩ := Option.isSome_iff_exists.mp hex
  obtain ⟨hx, pre, post, hsplit, hpre⟩ := List.find?_eq_some_iff_append.mp hx
  have hfine : ∀ y ∈ pre, publishArgs lib y ≠ none ∧ Reschedulable (cfg d) w.now y := by
    intro y hy
    have hno : ¬ bad y := by simpa using hpre y hy
    refine ⟨fun hnone => hno (.inl hnone), ?_⟩
    by_contra hre
    exact hno (.inr ⟨w.now, Int.le_refl _, hT, hre⟩)
  obtain ⟨bs, j₁, hrun, h₁⟩ := drive_commit cfg lib d (fun _ => ("", .refused, "")) hsel
  rw [hsplit] at h₁
  obtain ⟨bs', j₂, hrun', h₂⟩ := drive_rows h₁ hfine
  have hlead := (hrun.append hrun').mono (fun _ _ h => Driven.smooth (T := T) h)
  rcases of_decide_eq_true hx with hnone | ⟨now, hle, hnow, hre⟩
  · obtain ⟨bs'', j₃, hrun'', h₃⟩ := drive_raise h₂ (.inl hnone)
    exact ⟨_, _, hlead.append (hrun''.mono (fun _ _ h => h.smooth)), h₃⟩
  · -- the clock goes on to that moment in front of the publish
    obtain ⟨dt, rfl⟩ : ∃ dt : Nat, now = w.now + dt := ⟨(now - w.now).toNat, by omega⟩
    have hok : Smooth d T j₂ (.tick dt) := by
      simp only [Smooth, h₂.time]
      exact hnow
    have hwait : Run (Journal.step cfg lib) (Smooth d T) j₂ [.tick dt]
        { j₂ with world := { j₂.world with now := j₂.world.now + dt } } := .single hok rfl
    have h₂' : Before d (w.now + dt) (x :: post)
        { j₂ with world := { j₂.world with now := j₂.world.now + dt } } :=
      ⟨h₂.phase, h₂.free, by simp only [h₂.time]⟩
    obtain ⟨bs'', j₃, hrun'', h₃⟩ := drive_raise h₂' (.inr hre)
    exact ⟨_, _, (hlead.append hwait).append (hrun''.mono (fun _ _ h => h.smooth)), h₃⟩

theorem drain_settles_iff (cfg : DrainId → DrainConfig) (lib : Stdlib)
    (hobj : lib.loads "{}" = some (.obj [])) (w : World) (d : DrainId) (picked : List Row) (T : Int)
    (hd : w.drains d = {}) (hsel : Selects w (cfg d).batchSize picked) (hT : w.now ≤ T) :
    SettlesBatch cfg lib w d picked T ↔ ∀ r ∈ picked, Harmless (cfg d) lib w.now T r.snapshot := by
  constructor
  · rintro ⟨hlive, -⟩ r hr
    by_contra hharm
    simp only [Harmless, ← publishArgs_ne_none hobj, not_and_or, not_not, not_forall] at hharm
    have hbad : publishArgs lib r.snapshot = none ∨
        ∃ now, w.now ≤ now ∧ now ≤ T ∧ ¬ Reschedulable (cfg d) now r.snapshot := by
      rcases hharm with hnone | ⟨now, hle, hnow, hre⟩
      · exact .inl hnone
      · exact .inr ⟨now, hle, hnow, hre⟩
    obtain ⟨bs, j, hrun, hraised⟩ := raises_of_harmful hsel hT hr hbad
    exact (hlive bs j hrun).1 hraised
  · intro hrows
    refine settlesBatch_of_harmless hd hsel hT ?_
    intro r hr
    rw [publishArgs_ne_none hobj]
    exact hrows r hr

theorem demo_batch_settles :
    SettlesBatch (demoConfig 10) demoLib (start demoTable 0) 0 [demoRow] (seconds 60) := by
  refine (drain_settles_iff (demoConfig 10) demoLib (by decide) (start demoTable 0) 0 [demoRow] _ rfl
    (by decide) (by decide)).mpr ?_
  intro r hr
  obtain rfl : r = demoRow := by simpa using hr
  refine ⟨⟨.inl ⟨[], rfl⟩, .inl ⟨[], rfl⟩⟩, ?_⟩
  intro now hle hnow
  have hdelay : (demoConfig 10 0).policy.delayFor 1 = 2 := by decide
  refine .inr (later_ne_none.mpr ?_)
  have hcount : demoRow.snapshot.retryCount + 1 = 1 := rfl
  have hstart : (start demoTable 0).now = 0 := rfl
  rw [hstart] at hle
  rw [hcount, hdelay]
  simp only [datetimeMin, datetimeMax, seconds] at hnow ⊢
  omega

/-! A row whose metadata column holds the JSON array `[]`, in front of a good one. -/

def poisonLib : Stdlib :=
  { demoLib with loads := fun s => if s = "[]" then some (.arr []) else demoLib.loads s }

def poisonRow : Row := { demoRow with id := "poison", metadata := .str "[]" }

def poisonTable : Table Row.id := ⟨[poisonRow, demoRow], by decide⟩

theorem poison_row_blocks_batch :
    ¬ SettlesBatch (demoConfig 10) poisonLib (start poisonTable 0) 0 [poisonRow, demoRow]
      (seconds 60) := by
  rintro ⟨hlive, -⟩
  have hsel : Selects (start poisonTable 0) 100 [poisonRow, demoRow] := by decide
  have hnone : publishArgs poisonLib poisonRow.snapshot = none := by rfl
  obtain ⟨bs, j, hrun, hraised⟩ := raises_of_harmful (T := seconds 60) hsel (by decide)
    List.mem_cons_self (.inl hnone)
  exact (hlive bs j hrun).1 hraised

end Outbox
end Events
end TrShared
