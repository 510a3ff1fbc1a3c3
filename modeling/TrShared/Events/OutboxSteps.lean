import TrShared.Events.Outbox

/-!
# TrShared.Events.OutboxSteps

What one step of the outbox system can do, said once.

* `Moves` lists everything a drain can do between two awaits; `move_cases` inverts `move`.
* `Stepped` lists the four kinds of step; `step_cases` inverts `step`.
* `Phase.hold` are the rows a drain may still publish or write. A drain only ever drops rows from
  it (`Moves.hold_sublist`), publishes its first row (`Moves.accepts`) and writes its first row
  (`Moves.writes`).

The invariants of the other outbox modules are derived from these and never unfold `move`.
-/

namespace TrShared
namespace Events
namespace Outbox

open Python Machine

variable {cfg : DrainId → DrainConfig} {lib : Stdlib}

/-! ## One drain -/

inductive Moves (c : DrainConfig) (lib : Stdlib) (now : Int) : Phase → Event → Move → Prop where
  | committed (rows : List Snapshot) :
      Moves c lib now (.selecting rows) .committed { next := .looping rows }
  | finish : Moves c lib now (.looping []) .finish { next := .returned }
  | undecodable {row : Snapshot} {rest : List Snapshot} {eventId exc : String} {reply : Reply} :
      publishArgs lib row = none →
      Moves c lib now (.looping (row :: rest)) (.publish eventId reply exc) { next := .raised }
  | rejected {row : Snapshot} {rest : List Snapshot} {args : PublishArgs}
      {eventId exc msg : String} {reply : Reply} :
      publishArgs lib row = some args → c.producer.wireEvent lib args eventId now = .error msg →
      Moves c lib now (.looping (row :: rest)) (.publish eventId reply exc)
        (failure c now row msg rest)
  | publishOk {row : Snapshot} {rest : List Snapshot} {args : PublishArgs} {eventId exc : String}
      {e : WireEvent} :
      publishArgs lib row = some args → c.producer.wireEvent lib args eventId now = .ok e →
      Moves c lib now (.looping (row :: rest)) (.publish eventId .ok exc)
        { next := .marking row rest, accepts := some ⟨row.id, e⟩ }
  | publishLost {row : Snapshot} {rest : List Snapshot} {args : PublishArgs}
      {eventId exc : String} {e : WireEvent} :
      publishArgs lib row = some args → c.producer.wireEvent lib args eventId now = .ok e →
      Moves c lib now (.looping (row :: rest)) (.publish eventId .lost exc)
        { failure c now row exc rest with accepts := some ⟨row.id, e⟩ }
  | publishRefused {row : Snapshot} {rest : List Snapshot} {args : PublishArgs}
      {eventId exc : String} {e : WireEvent} :
      publishArgs lib row = some args → c.producer.wireEvent lib args eventId now = .ok e →
      Moves c lib now (.looping (row :: rest)) (.publish eventId .refused exc)
        (failure c now row exc rest)
  | marked {row : Snapshot} {rest : List Snapshot} {exc : String} :
      Moves c lib now (.marking row rest) (.update .ok exc)
        { next := .looping rest, writes := some (row.id, .published), tally := some .published }
  | markFailed {row : Snapshot} {rest : List Snapshot} {exc : String} {reply : Reply} :
      reply ≠ .ok →
      Moves c lib now (.marking row rest) (.update reply exc)
        { failure c now row exc rest with writes := wrote reply row.id .published }
  | deadLettered {row : Snapshot} {rest : List Snapshot} {n : Nat} {exc exc' : String}
      {reply : Reply} :
      Moves c lib now (.deadLettering row n exc rest) (.update reply exc')
        { next := if reply.returned then .notifying row n exc rest else .raised
          writes := wrote reply row.id (.deadLetter n (prefixOf 500 exc)) }
  | notified {row : Snapshot} {rest : List Snapshot} {n : Nat} {exc : String} :
      Moves c lib now (.notifying row n exc rest) .notified
        { next := .looping rest, tally := some .deadLettered
          callback := some (row.id, n, exc) }
  | retried {row : Snapshot} {rest : List Snapshot} {n : Nat} {nextAt : Int} {exc exc' : String}
      {reply : Reply} :
      Moves c lib now (.retrying row n nextAt exc rest) (.update reply exc')
        { next := if reply.returned then .looping rest else .raised
          writes := wrote reply row.id (.retry n nextAt (prefixOf 500 exc))
          tally := if reply.returned then some .retried else none }
  | crash {ph : Phase} : Moves c lib now ph .crash { next := .raised }

theorem publishMove_cases {c : DrainConfig} {now : Int} {row : Snapshot} {rest : List Snapshot}
    {eventId exc : String} {reply : Reply} :
    Moves c lib now (.looping (row :: rest)) (.publish eventId reply exc)
      (publishMove c lib now row rest eventId reply exc) := by
  simp only [publishMove]
  split
  · exact .undecodable ‹_›
  · split
    · exact .rejected ‹_› ‹_›
    · cases reply with
      | ok => exact .publishOk ‹_› ‹_›
      | lost => exact .publishLost ‹_› ‹_›
      | refused => exact .publishRefused ‹_› ‹_›

theorem move_cases {c : DrainConfig} {now : Int} {ph : Phase} {e : Event} {m : Move}
    (h : move c lib now ph e = some m) : Moves c lib now ph e m := by
  unfold move at h
  split at h
  · cases h; exact .committed _
  · cases h; exact .finish
  · cases h; exact publishMove_cases
  · rename_i reply _
    cases reply with
    | ok => cases h; exact .marked
    | lost => cases h; exact .markFailed (by simp)
    | refused => cases h; exact .markFailed (by simp)
  · cases h; exact .deadLettered
  · cases h; exact .notified
  · cases h; exact .retried
  · cases h
  · cases h
  · cases h; exact .crash
  · cases h

/-- The rows a drain may still publish or write. -/
def Phase.hold : Phase → List Snapshot
  | .selecting rows | .looping rows => rows
  | .marking row rest | .deadLettering row _ _ rest | .retrying row _ _ _ rest => row :: rest
  | .notifying _ _ _ rest => rest
  | .ready | .returned | .raised => []

theorem onException_cases (c : DrainConfig) (now : Int) (row : Snapshot) (exc : String)
    (rest : List Snapshot) :
    (c.policy.maxRetries ≤ (row.retryCount + 1 : Nat) ∧
      onException c now row exc rest = .deadLettering row (row.retryCount + 1) exc rest) ∨
    (¬ c.policy.maxRetries ≤ (row.retryCount + 1 : Nat) ∧
      ∃ nextAt, later now (c.policy.delayFor (row.retryCount + 1)) = some nextAt ∧
        onException c now row exc rest = .retrying row (row.retryCount + 1) nextAt exc rest) ∨
    (¬ c.policy.maxRetries ≤ (row.retryCount + 1 : Nat) ∧
      later now (c.policy.delayFor (row.retryCount + 1)) = none ∧
        onException c now row exc rest = .raised) := by
  simp only [onException]
  split
  · rename_i h; exact .inl ⟨h, rfl⟩
  · rename_i h
    split
    · rename_i nextAt hat; exact .inr (.inl ⟨h, nextAt, hat, rfl⟩)
    · rename_i hat; exact .inr (.inr ⟨h, hat, rfl⟩)

theorem onException_hold (c : DrainConfig) (now : Int) (row : Snapshot) (exc : String)
    (rest : List Snapshot) :
    (onException c now row exc rest).hold = row :: rest ∨ onException c now row exc rest = .raised := by
  rcases onException_cases c now row exc rest with ⟨_, ho⟩ | ⟨_, _, _, ho⟩ | ⟨_, _, ho⟩
  · rw [ho]; exact .inl rfl
  · rw [ho]; exact .inl rfl
  · exact .inr ho

theorem Moves.hold_sublist {c : DrainConfig} {now : Int} {ph : Phase} {e : Event} {m : Move}
    (h : Moves c lib now ph e m) : m.next.hold.Sublist ph.hold := by
  cases h with
  | @rejected row rest | @publishLost row rest | @publishRefused row rest | @markFailed row rest =>
    simp only [failure]
    rcases onException_hold c now row _ rest with ho | ho
    · rw [ho]; exact List.Sublist.refl _
    · rw [ho]; simp [Phase.hold]
  | committed | finish | undecodable | publishOk | marked | notified | crash => simp [Phase.hold]
  | deadLettered => split <;> simp [Phase.hold]
  | retried => split <;> simp [Phase.hold]

/-- A drain only publishes the row at the head of its loop, and goes on to mark it or to the
`except` block. -/
theorem Moves.accepts {c : DrainConfig} {now : Int} {ph : Phase} {e : Event} {m : Move}
    {a : Accepted} (h : Moves c lib now ph e m) (ha : m.accepts = some a) :
    ∃ row rest args eventId, ph = .looping (row :: rest) ∧ a.row = row.id ∧
      publishArgs lib row = some args ∧ c.producer.wireEvent lib args eventId now = .ok a.event ∧
      m.writes = none ∧
      ((∃ exc, e = .publish eventId .ok exc ∧ m.next = .marking row rest) ∨
        ∃ exc, e = .publish eventId .lost exc ∧ m.next = onException c now row exc rest) := by
  cases h with
  | publishOk hargs hev =>
    cases ha
    exact ⟨_, _, _, _, rfl, rfl, hargs, hev, rfl, .inl ⟨_, rfl, rfl⟩⟩
  | publishLost hargs hev =>
    cases ha
    exact ⟨_, _, _, _, rfl, rfl, hargs, hev, rfl, .inr ⟨_, rfl, rfl⟩⟩
  | _ => cases ha

theorem wrote_some {reply : Reply} {id id' : RowId} {w w' : Write}
    (h : wrote reply id w = some (id', w')) : id' = id ∧ w' = w ∧ reply ≠ .refused := by
  simp only [wrote] at h
  split at h
  · rename_i ht
    cases h
    refine ⟨rfl, rfl, ?_⟩
    rintro rfl
    cases ht
  · cases h

/-- A drain only writes its first row, and which statement it is follows from the phase. -/
theorem Moves.writes {c : DrainConfig} {now : Int} {ph : Phase} {e : Event} {m : Move}
    {id : RowId} {w : Write} (h : Moves c lib now ph e m) (hw : m.writes = some (id, w)) :
    ∃ row rest, id = row.id ∧ ph.hold = row :: rest ∧ m.accepts = none ∧
      ((ph = .marking row rest ∧ w = .published) ∨
        (∃ n exc, ph = .deadLettering row n exc rest ∧
          w = .deadLetter n (prefixOf 500 exc) ∧ m.next.hold.Sublist rest) ∨
        ∃ n nextAt exc, ph = .retrying row n nextAt exc rest ∧
          w = .retry n nextAt (prefixOf 500 exc) ∧ m.next.hold.Sublist rest) := by
  cases h with
  | marked => cases hw; exact ⟨_, _, rfl, rfl, rfl, .inl ⟨rfl, rfl⟩⟩
  | markFailed =>
    obtain ⟨rfl, rfl, _⟩ := wrote_some hw
    exact ⟨_, _, rfl, rfl, rfl, .inl ⟨rfl, rfl⟩⟩
  | deadLettered =>
    obtain ⟨rfl, rfl, _⟩ := wrote_some hw
    refine ⟨_, _, rfl, rfl, rfl, .inr (.inl ⟨_, _, rfl, rfl, ?_⟩)⟩
    split <;> simp [Phase.hold]
  | retried =>
    obtain ⟨rfl, rfl, _⟩ := wrote_some hw
    refine ⟨_, _, rfl, rfl, rfl, .inr (.inr ⟨_, _, _, rfl, rfl, ?_⟩)⟩
    split <;> simp [Phase.hold]
  | _ => cases hw

theorem onException_deadLettering {c : DrainConfig} {now : Int} {row row' : Snapshot} {n : Nat}
    {exc exc' : String} {rest rest' : List Snapshot}
    (h : onException c now row exc rest = .deadLettering row' n exc' rest') :
    row' = row ∧ rest' = rest ∧ n = row.retryCount + 1 ∧ c.policy.maxRetries ≤ (n : Int) := by
  rcases onException_cases c now row exc rest with ⟨hle, ho⟩ | ⟨_, _, _, ho⟩ | ⟨_, _, ho⟩
  · rw [ho] at h; cases h; exact ⟨rfl, rfl, rfl, hle⟩
  · rw [ho] at h; cases h
  · rw [ho] at h; cases h

/-- A drain comes to mark a row only from a `publish` of it that returned. -/
theorem Moves.next_marking {c : DrainConfig} {now : Int} {ph : Phase} {e : Event} {m : Move}
    {row : Snapshot} {rest : List Snapshot} (h : Moves c lib now ph e m)
    (hn : m.next = .marking row rest) :
    ∃ ev, m.accepts = some ⟨row.id, ev⟩ ∧ ph = .looping (row :: rest) := by
  cases h with
  | publishOk hargs hev => cases hn; exact ⟨_, rfl, rfl⟩
  | @rejected row' rest' | @publishLost row' rest' | @publishRefused row' rest'
  | @markFailed row' rest' =>
    simp only [failure] at hn
    rcases onException_cases c now row' _ rest' with ⟨_, ho⟩ | ⟨_, _, _, ho⟩ | ⟨_, _, ho⟩
    all_goals rw [ho] at hn; cases hn
  | deadLettered | retried => simp only at hn; split at hn <;> cases hn
  | _ => cases hn

/-- Before an `UPDATE` of the `except` block. -/
def Phase.excepting : Phase → Bool
  | .deadLettering .. | .retrying .. => true
  | _ => false

/-- A drain enters the `except` block only from an attempt on a row that raised. -/
theorem Moves.next_except {c : DrainConfig} {now : Int} {ph : Phase} {e : Event} {m : Move}
    (h : Moves c lib now ph e m) (hn : m.next.excepting = true) :
    ∃ row exc rest, m.next = onException c now row exc rest ∧ m.failed = some row.id ∧
      (ph = .looping (row :: rest) ∨ ph = .marking row rest) := by
  cases h with
  | rejected | publishLost | publishRefused => exact ⟨_, _, _, rfl, rfl, .inl rfl⟩
  | markFailed => exact ⟨_, _, _, rfl, rfl, .inr rfl⟩
  | deadLettered | retried => simp only at hn; split at hn <;> cases hn
  | _ => cases hn

theorem Moves.next_deadLettering {c : DrainConfig} {now : Int} {ph : Phase} {e : Event}
    {m : Move} {row : Snapshot} {n : Nat} {exc : String} {rest : List Snapshot}
    (h : Moves c lib now ph e m) (hn : m.next = .deadLettering row n exc rest) :
    m.failed = some row.id ∧ n = row.retryCount + 1 ∧ c.policy.maxRetries ≤ (n : Int) ∧
      (ph = .looping (row :: rest) ∨ ph = .marking row rest) := by
  obtain ⟨row', exc', rest', hnext, hf, hph⟩ := h.next_except (by rw [hn]; rfl)
  obtain ⟨rfl, rfl, rfl, hle⟩ := onException_deadLettering (hnext.symm.trans hn)
  exact ⟨hf, rfl, hle, hph⟩

theorem Moves.next_retrying {c : DrainConfig} {now : Int} {ph : Phase} {e : Event} {m : Move}
    {row : Snapshot} {n : Nat} {nextAt : Int} {exc : String} {rest : List Snapshot}
    (h : Moves c lib now ph e m) (hn : m.next = .retrying row n nextAt exc rest) :
    n = row.retryCount + 1 ∧ later now (c.policy.delayFor n) = some nextAt := by
  obtain ⟨row', exc', rest', hnext, _, _⟩ := h.next_except (by rw [hn]; rfl)
  rw [hn] at hnext
  rcases onException_cases c now row' exc' rest' with ⟨_, ho⟩ | ⟨_, _, hat, ho⟩ | ⟨_, _, ho⟩
  · rw [ho] at hnext; cases hnext
  · rw [ho] at hnext; cases hnext; exact ⟨rfl, hat⟩
  · rw [ho] at hnext; cases hnext

/-! ## The system -/

/-- The state after drain `d`'s locking `SELECT` returned `picked`. -/
def World.begin (s : World) (d : DrainId) (picked : List Row) : World :=
  { s with
    locks := s.locks ++ picked.map (fun r => (d, r.id))
    drains := Function.update s.drains d
      { s.drains d with phase := .selecting (picked.map Row.snapshot) } }

inductive Stepped (cfg : DrainId → DrainConfig) (lib : Stdlib) (s : World) :
    Act → World → Prop where
  | tick (dt : Nat) : Stepped cfg lib s (.tick dt) { s with now := s.now + dt }
  | insert {args : DurableArgs} {asText inTransaction : Bool} {id : RowId} {row : Row}
      (hrow : args.row lib asText inTransaction id s.now = some row)
      (hnew : row.id ∉ s.table.rows.map Row.id) :
      Stepped cfg lib s (.insert args asText inTransaction id)
        { s with table := s.table.insert row hnew }
  | select {d : DrainId} {picked : List Row} (hready : (s.drains d).phase = .ready)
      (hsel : Selects s (cfg d).batchSize picked) :
      Stepped cfg lib s (.select d picked) (s.begin d picked)
  | drain {d : DrainId} {e : Event} {m : Move}
      (hmove : Moves (cfg d) lib s.now (s.drains d).phase e m)
      (hfree : ∀ w, m.writes = some w → s.locked w.1 = false) :
      Stepped cfg lib s (.drain d e) (s.apply d m)

theorem step_cases {s s' : World} {a : Act} (h : step cfg lib s a = some s') :
    Stepped cfg lib s a s' := by
  cases a with
  | tick dt => cases h; exact .tick dt
  | insert args asText inTransaction id =>
    simp only [step] at h
    split at h
    · cases h
    · split at h
      · cases h; exact .insert ‹_› ‹_›
      · cases h
  | select d picked =>
    simp only [step] at h
    split at h
    · split at h
      · cases h; exact .select ‹_› ‹_›
      · cases h
    · cases h
  | drain d e =>
    simp only [step] at h
    split at h
    · cases h
    · rename_i m hm
      split at h
      · cases h
      · rename_i hfree
        cases h
        refine .drain (move_cases hm) ?_
        intro w hw
        simpa [hw] using hfree

@[simp] theorem advance_phase (d : Drain) (m : Move) : (d.advance m).phase = m.next := by
  simp only [Drain.advance]
  split <;> rfl

theorem apply_phase (s : World) (d d' : DrainId) (m : Move) :
    ((s.apply d m).drains d').phase = if d' = d then m.next else (s.drains d').phase := by
  by_cases h : d' = d
  · subst h; simp [World.apply]
  · simp [World.apply, h]

theorem apply_drain_of_ne (s : World) {d d' : DrainId} (hd : d ≠ d') (m : Move) :
    (s.apply d' m).drains d = s.drains d := by
  simp [World.apply, hd]

theorem begin_phase (s : World) (d d' : DrainId) (picked : List Row) :
    ((s.begin d picked).drains d').phase =
      if d' = d then .selecting (picked.map Row.snapshot) else (s.drains d').phase := by
  by_cases h : d' = d
  · subst h; simp [World.begin]
  · simp [World.begin, h]

/-- What a reader of the table sees after a move of a drain. -/
theorem apply_find (s : World) (d : DrainId) (m : Move) (id : RowId) :
    (s.apply d m).table.find id =
      match m.writes with
      | none => s.table.find id
      | some (id', w) =>
        if id = id' then (s.table.find id).map (w.apply s.now) else s.table.find id := by
  simp only [World.apply]
  cases m.writes with
  | none => rfl
  | some w => exact Table.find_modify _ _ _ _ _

/-- A row after a move of a drain is a row before it, rewritten if the move writes it. -/
theorem apply_find_some {s : World} {d : DrainId} {m : Move} {id : RowId} {r' : Row}
    (h : (s.apply d m).table.find id = some r') :
    (s.table.find id = some r' ∧ ∀ w, m.writes ≠ some (id, w)) ∨
      ∃ r w, s.table.find id = some r ∧ m.writes = some (id, w) ∧ r' = w.apply s.now r := by
  rw [apply_find] at h
  cases hw : m.writes with
  | none => rw [hw] at h; exact .inl ⟨h, by simp⟩
  | some p =>
    obtain ⟨id', w⟩ := p
    rw [hw] at h
    simp only at h
    split at h
    · rename_i he
      subst he
      obtain ⟨r, hr, rfl⟩ := Option.map_eq_some_iff.1 h
      exact .inr ⟨r, w, hr, rfl, rfl⟩
    · rename_i he
      refine .inl ⟨h, ?_⟩
      intro w' hw'
      cases hw'
      exact he rfl

@[simp] theorem mem_apply_stream {s : World} {d : DrainId} {m : Move} {a : Accepted} :
    a ∈ (s.apply d m).stream ↔ a ∈ s.stream ∨ m.accepts = some a := by
  simp [World.apply]

@[simp] theorem mem_apply_raised {s : World} {d : DrainId} {m : Move} {id : RowId} :
    id ∈ (s.apply d m).raised ↔ id ∈ s.raised ∨ m.failed = some id := by
  simp [World.apply]

end Outbox
end Events
end TrShared
