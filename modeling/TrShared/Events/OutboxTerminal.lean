import TrShared.Events.OutboxExclusive

/-!
# TrShared.Events.OutboxTerminal

The two terminal states of a row, and its retry count.

One `except` block covers both the `publish` and the `UPDATE` of `published_at`, and it writes the
retry count of the snapshot plus one. So a row whose event is on the stream can be dead-lettered,
and a slow drain can write an older count over a newer one (`terminal_states_collide`).

`terminal_states_exclusive`: neither happens in a run in which batches stay disjoint (`Undisputed`)
and no last try on a row raises once the stream has an entry for it (`LastTry`). The invariant
`Terminal` says that a snapshot in a batch has the stored retry count and that its row is alive.
-/

namespace TrShared
namespace Events
namespace Outbox

open Python Machine

variable {cfg : DrainId → DrainConfig} {lib : Stdlib}

/-- The next failure of this snapshot dead-letters the row. -/
def lastTry (c : DrainConfig) (row : Snapshot) : Prop :=
  c.policy.maxRetries ≤ (row.retryCount + 1 : Nat)

/-- On the last try neither the `publish` nor the `UPDATE` of `published_at` raises once the stream
has an entry for the row. -/
def LastTry (cfg : DrainId → DrainConfig) (lib : Stdlib) (s : World) : Act → Prop
  | .drain d (.publish eventId reply _) => ∀ row rest, (s.drains d).phase = .looping (row :: rest) →
      lastTry (cfg d) row → reply ≠ .lost ∧
        (0 < s.xadds row.id → reply = .ok ∧ ∀ args msg, publishArgs lib row = some args →
          (cfg d).producer.wireEvent lib args eventId s.now ≠ .error msg)
  | .drain d (.update reply _) => ∀ row rest, (s.drains d).phase = .marking row rest →
      lastTry (cfg d) row → reply = .ok
  | _ => True

structure Terminal (s : World) : Prop where
  exclusive : Exclusive s.holds
  insync : ∀ d, ∀ x ∈ (s.drains d).phase.hold,
    ∃ r, s.table.find x.id = some r ∧ r.retryCount = x.retryCount ∧ r.deadLetter = false
  alive : ∀ id r, s.table.find id = some r → 0 < s.xadds id → r.deadLetter = false
  dying : ∀ d row n exc rest, (s.drains d).phase = .deadLettering row n exc rest →
    s.xadds row.id = 0 ∧ n = row.retryCount + 1
  counting : ∀ d row n nextAt exc rest, (s.drains d).phase = .retrying row n nextAt exc rest →
    n = row.retryCount + 1

theorem Terminal.start (table : Table Row.id) (now : Int) : Terminal (start table now) where
  exclusive := exclusive_start table now
  insync := by intro d x hx; cases hx
  alive := by intro id r _ hx; simp [World.xadds, Outbox.start] at hx
  dying := by intro d row n exc rest hd; cases hd
  counting := by intro d row n nextAt exc rest hd; cases hd

theorem xadds_pos {s : World} {id : RowId} : 0 < s.xadds id ↔ ∃ a ∈ s.stream, a.row = id := by
  simp only [World.xadds, List.count_pos_iff, List.mem_map]

/-- A move that puts no entry of `id` on the stream. -/
theorem apply_xadds_eq {s : World} {d : DrainId} {m : Move} {id : RowId}
    (h : ∀ a, m.accepts = some a → a.row ≠ id) : (s.apply d m).xadds id = s.xadds id := by
  rw [apply_xadds]
  cases hacc : m.accepts with
  | none => simp
  | some a => simp [h a hacc]

/-- A row in a batch after a move was in the batch before, and no write of the move has touched
its retry count or dead-lettered it: the drain that wrote it has dropped it, and no other drain
holds it. -/
theorem Terminal.insync_apply {s : World} (h : Terminal s) {d d' : DrainId} {e : Event} {m : Move}
    (hm : Moves (cfg d) lib s.now (s.drains d).phase e m) {x : Snapshot}
    (hx : x ∈ ((s.apply d m).drains d').phase.hold) :
    ∃ r, (s.apply d m).table.find x.id = some r ∧ r.retryCount = x.retryCount ∧
      r.deadLetter = false := by
  have hbefore : x ∈ (s.drains d').phase.hold := by
    rw [apply_phase] at hx
    split at hx
    · rename_i he; subst he; exact hm.hold_sublist.subset hx
    · exact hx
  obtain ⟨r, hr, hcount, halive⟩ := h.insync d' x hbefore
  rw [apply_find, hr]
  cases hw : m.writes with
  | none => exact ⟨r, rfl, hcount, halive⟩
  | some p =>
    obtain ⟨id', w⟩ := p
    simp only
    split
    · rename_i hid
      obtain ⟨row, rest, rfl, hhold, _, hcase⟩ := hm.writes hw
      -- the writer holds `x.id` too, so it is `d'` itself and `x` is its first row
      have hd : x.id ∈ s.holds d := by simp [World.holds, hhold, hid]
      have hd' : d' = d := h.exclusive.owner_unique (List.mem_map_of_mem hbefore) hd
      subst hd'
      have hn := h.exclusive.nodup d'
      simp only [World.holds, hhold, List.map_cons, List.nodup_cons] at hn
      have hout : m.next.hold.Sublist rest → False := by
        intro hsub
        rw [apply_phase, if_pos rfl] at hx
        exact hn.1 (hid ▸ List.mem_map_of_mem (hsub.subset hx))
      rcases hcase with ⟨_, rfl⟩ | ⟨n, exc, _, _, hsub⟩ | ⟨n, nextAt, exc, _, _, hsub⟩
      · exact ⟨_, rfl, hcount, halive⟩
      · exact (hout hsub).elim
      · exact (hout hsub).elim
    · exact ⟨r, rfl, hcount, halive⟩

theorem Terminal.alive_apply {s : World} (h : Terminal s) {d : DrainId} {e : Event} {m : Move}
    (hm : Moves (cfg d) lib s.now (s.drains d).phase e m) {id : RowId} {r' : Row}
    (hr' : (s.apply d m).table.find id = some r') (hpos : 0 < (s.apply d m).xadds id) :
    r'.deadLetter = false := by
  rcases apply_find_some hr' with ⟨hr, _⟩ | ⟨r, w, hr, hw, rfl⟩
  · by_cases hx : 0 < s.xadds id
    · exact h.alive id r' hr hx
    · -- the entry is new, so the row was in the batch of the drain
      obtain ⟨a, ha, hrow⟩ := xadds_pos.1 hpos
      rcases mem_apply_stream.1 ha with ha | ha
      · exact absurd (xadds_pos.2 ⟨a, ha, hrow⟩) hx
      · obtain ⟨row, rest, _, _, hph, harow, _, _, _, _⟩ := hm.accepts ha
        obtain ⟨r1, hr1, _, hal⟩ := h.insync d row (by rw [hph]; simp [Phase.hold])
        have hid : row.id = id := harow.symm.trans hrow
        rw [hid, hr] at hr1
        cases hr1
        exact hal
  · obtain ⟨row, rest, rfl, hhold, hacc, hcase⟩ := hm.writes hw
    obtain ⟨r1, hr1, _, hal⟩ := h.insync d row (by rw [hhold]; simp)
    rw [hr] at hr1
    cases hr1
    rcases hcase with ⟨_, rfl⟩ | ⟨n, exc, hph, rfl, _⟩ | ⟨n, nextAt, exc, _, rfl, _⟩
    · exact hal
    · rw [apply_xadds_eq (by simp [hacc]), (h.dying d row n exc rest hph).1] at hpos
      exact absurd hpos (by simp)
    · exact hal

/-- A drain comes to dead-letter a row only if no entry of it is on the stream. -/
theorem dying_next {s : World} {d : DrainId} {e : Event} {m : Move}
    (hm : Moves (cfg d) lib s.now (s.drains d).phase e m)
    (hl : LastTry cfg lib s (.drain d e)) {row : Snapshot} {n : Nat} {exc : String}
    {rest : List Snapshot} (hn : m.next = .deadLettering row n exc rest) :
    (s.apply d m).xadds row.id = 0 := by
  have hlast : lastTry (cfg d) row := by
    obtain ⟨_, rfl, hle, _⟩ := hm.next_deadLettering hn
    exact hle
  generalize hph : (s.drains d).phase = ph at hm
  cases hm with
  | @rejected row' rest' args eventId exc' msg reply hargs herr =>
    obtain ⟨rfl, _, _, _⟩ := onException_deadLettering hn
    rw [apply_xadds_eq (by simp [failure])]
    by_contra hx
    exact ((hl row rest' hph hlast).2 (Nat.pos_of_ne_zero hx)).2 args msg hargs herr
  | @publishLost row' rest' args eventId exc' ev hargs hev =>
    obtain ⟨rfl, _, _, _⟩ := onException_deadLettering hn
    exact absurd rfl (hl row rest' hph hlast).1
  | @publishRefused row' rest' args eventId exc' ev hargs hev =>
    obtain ⟨rfl, _, _, _⟩ := onException_deadLettering hn
    rw [apply_xadds_eq (by simp [failure])]
    by_contra hx
    cases ((hl row rest' hph hlast).2 (Nat.pos_of_ne_zero hx)).1
  | @markFailed row' rest' exc' reply hne =>
    obtain ⟨rfl, _, _, _⟩ := onException_deadLettering hn
    exact absurd (hl row rest' hph hlast) hne
  | deadLettered | retried => simp only at hn; split at hn <;> cases hn
  | _ => cases hn

theorem Terminal.drain {s : World} (h : Terminal s) {d : DrainId} {e : Event} {m : Move}
    (hm : Moves (cfg d) lib s.now (s.drains d).phase e m)
    (hl : LastTry cfg lib s (.drain d e)) (hexcl : Exclusive (s.apply d m).holds) :
    Terminal (s.apply d m) where
  exclusive := hexcl
  insync _ _ hx := h.insync_apply hm hx
  alive _ _ hr hpos := h.alive_apply hm hr hpos
  dying := by
    intro d' row n exc rest hd
    rw [apply_phase] at hd
    split at hd
    · exact ⟨dying_next hm hl hd, (hm.next_deadLettering hd).2.1⟩
    · rename_i hne
      obtain ⟨hx, hn⟩ := h.dying d' row n exc rest hd
      refine ⟨?_, hn⟩
      rw [apply_xadds_eq, hx]
      -- another drain holds the row, so `d` does not publish it
      intro a ha hrow
      obtain ⟨row', rest', _, _, hph, harow, _⟩ := hm.accepts ha
      have h1 : row.id ∈ s.holds d' := by simp [World.holds, hd, Phase.hold]
      have h2 : row.id ∈ s.holds d := by
        simp [World.holds, hph, Phase.hold, ← hrow, harow]
      exact hne (h.exclusive.owner_unique h1 h2)
  counting := by
    intro d' row n nextAt exc rest hd
    rw [apply_phase] at hd
    split at hd
    · exact (hm.next_retrying hd).1
    · exact h.counting d' row n nextAt exc rest hd

theorem Terminal.insert {s : World} (h : Terminal s) {row : Row}
    (hnew : row.id ∉ s.table.rows.map Row.id) (hd : row.deadLetter = false) :
    Terminal { s with table := s.table.insert row hnew } where
  exclusive := h.exclusive
  insync := by
    intro d x hx
    obtain ⟨r, hr, hrest⟩ := h.insync d x hx
    exact ⟨r, Table.find_insert_of_find hnew hr, hrest⟩
  alive := by
    intro id r hr hx
    rcases Table.find_of_find_insert hnew hr with rfl | hr
    · exact hd
    · exact h.alive id r hr hx
  dying := h.dying
  counting := h.counting

theorem Terminal.begin {s : World} (h : Terminal s) {d : DrainId} {limit : Nat}
    {picked : List Row} (hsel : Selects s limit picked)
    (hexcl : Exclusive (s.begin d picked).holds) : Terminal (s.begin d picked) where
  exclusive := hexcl
  insync := by
    intro d' x hx
    rw [begin_phase] at hx
    split at hx
    · obtain ⟨r, hr, rfl⟩ := List.mem_map.1 hx
      obtain ⟨hfind, hdue⟩ := hsel.find hr
      simp only [Row.due, Bool.and_eq_true, Bool.not_eq_true'] at hdue
      exact ⟨r, hfind, rfl, hdue.1.2⟩
    · exact h.insync d' x hx
  alive := h.alive
  dying := by
    intro d' row n exc rest hd
    rw [begin_phase] at hd
    split at hd
    · cases hd
    · exact h.dying d' row n exc rest hd
  counting := by
    intro d' row n nextAt exc rest hd
    rw [begin_phase] at hd
    split at hd
    · cases hd
    · exact h.counting d' row n nextAt exc rest hd

theorem Terminal.step {s s' : World} {a : Act} (h : Terminal s) (hu : Undisputed s a)
    (hl : LastTry cfg lib s a) (hs : Outbox.step cfg lib s a = some s') : Terminal s' := by
  have hexcl := exclusive_step h.exclusive hu hs
  cases step_cases hs with
  | tick dt => exact ⟨hexcl, h.insync, h.alive, h.dying, h.counting⟩
  | insert hrow hnew =>
    simp only [DurableArgs.row] at hrow
    split at hrow
    · cases hrow; exact h.insert hnew rfl
    · cases hrow
  | select _ hsel => exact h.begin hsel hexcl
  | drain hm _ => exact h.drain hm hl hexcl

/-- The drain that writes a retry count holds the row with the count that is stored. -/
theorem Terminal.retryCount_step {s s' : World} {a : Act} (h : Terminal s)
    (hs : Outbox.step cfg lib s a = some s') {id : RowId} {r r' : Row}
    (hr : s.table.find id = some r) (hr' : s'.table.find id = some r') :
    r.retryCount ≤ r'.retryCount := by
  cases step_cases hs with
  | tick dt => rw [hr] at hr'; cases hr'; exact Nat.le_refl _
  | insert _ hnew =>
    have he := Table.find_insert_of_find hnew hr
    rw [hr'] at he
    cases he
    exact Nat.le_refl _
  | select _ _ =>
    have he : s.table.find id = some r' := hr'
    rw [hr] at he; cases he; exact Nat.le_refl _
  | @drain d e m hm _ =>
    rcases apply_find_some hr' with ⟨he, _⟩ | ⟨r1, w, he, hw, rfl⟩
    · rw [hr] at he; cases he; exact Nat.le_refl _
    · rw [hr] at he
      cases he
      obtain ⟨row, rest, rfl, hhold, _, hcase⟩ := hm.writes hw
      obtain ⟨r1, hr1, hcount, _⟩ := h.insync d row (by rw [hhold]; simp)
      rw [hr] at hr1
      cases hr1
      rcases hcase with ⟨_, rfl⟩ | ⟨n, exc, hph, rfl, _⟩ | ⟨n, nextAt, exc, hph, rfl, _⟩
      · exact Nat.le_refl _
      · have := (h.dying d row n exc rest hph).2
        simp only [Write.apply]
        omega
      · have := h.counting d row n nextAt exc rest hph
        simp only [Write.apply]
        omega

theorem Terminal.retryCount_run {s s' : World} {as : List Act} (h : Terminal s)
    (hrun : Run (Outbox.step cfg lib) (fun s a => Undisputed s a ∧ LastTry cfg lib s a) s as s')
    {id : RowId} {r r' : Row} (hr : s.table.find id = some r) (hr' : s'.table.find id = some r') :
    r.retryCount ≤ r'.retryCount := by
  have hkeep : ∀ id r, s.table.find id = some r →
      ∃ r', s'.table.find id = some r' ∧ r.retryCount ≤ r'.retryCount := by
    refine hrun.relation (I := Terminal)
      (R := fun s s' => ∀ id r, s.table.find id = some r →
        ∃ r', s'.table.find id = some r' ∧ r.retryCount ≤ r'.retryCount)
      ?_ ?_ (fun _ _ _ hi ho hs => hi.step ho.1 ho.2 hs) ?_ h
    · intro s id r hr
      exact ⟨r, hr, Nat.le_refl _⟩
    · intro s s' s'' h₁ h₂ id r hr
      obtain ⟨r1, hr1, hle1⟩ := h₁ id r hr
      obtain ⟨r2, hr2, hle2⟩ := h₂ id r1 hr1
      exact ⟨r2, hr2, Nat.le_trans hle1 hle2⟩
    · intro s a s' hi _ hs id r hr
      obtain ⟨r1, hr1, _⟩ := step_keeps_row hs hr
      exact ⟨r1, hr1, hi.retryCount_step hs hr hr1⟩
  obtain ⟨r1, hr1, hle⟩ := hkeep id r hr
  rw [hr'] at hr1
  cases hr1
  exact hle

theorem terminal_states_exclusive (cfg : DrainId → DrainConfig) (lib : Stdlib)
    (table : Table Row.id) (now : Int) (hp : Pending table) (as : List Act) (s : World)
    (h : Run (step cfg lib) (fun s a => Undisputed s a ∧ LastTry cfg lib s a)
      (start table now) as s) :
    (∀ r ∈ s.table.rows, ¬ (r.publishedAt ≠ none ∧ r.deadLetter = true)) ∧
    (∀ a ∈ s.stream, ∀ r ∈ s.table.rows, r.id = a.row → r.deadLetter = false) ∧
    (∀ bs s', Run (step cfg lib) (fun s a => Undisputed s a ∧ LastTry cfg lib s a) s bs s' →
      ∀ r ∈ s.table.rows, ∀ r' ∈ s'.table.rows, r'.id = r.id →
        r.retryCount ≤ r'.retryCount) := by
  have hi : Terminal s := h.invariant (fun _ _ _ hi ho hs => hi.step ho.1 ho.2 hs)
    (Terminal.start table now)
  have hd : Delivery cfg lib s := .run hp h
  refine ⟨?_, ?_, ?_⟩
  · rintro r hr ⟨hpub, hdead⟩
    have hfind := Table.find_of_mem hr
    have hpos := xadds_pos.2 (hd.published r.id r hfind hpub)
    rw [hi.alive r.id r hfind hpos] at hdead
    cases hdead
  · intro a ha r hr hid
    exact hi.alive r.id r (Table.find_of_mem hr) (xadds_pos.2 ⟨a, ha, hid.symm⟩)
  · intro bs s' hrun r hr r' hr' hid
    exact hi.retryCount_run hrun (Table.find_of_mem hr) (hid ▸ Table.find_of_mem hr')

theorem publishArgs_strictMode {x : Snapshot} {args : PublishArgs}
    (h : publishArgs lib x = some args) : args.strictMode = false := by
  simp only [publishArgs] at h
  split at h <;> cases h
  rfl

theorem demo_wireEvent {n : Int} {d : DrainId} {x : Snapshot} {args : PublishArgs}
    {eventId msg : String} {now : Int} (h : publishArgs demoLib x = some args) :
    (demoConfig n d).producer.wireEvent demoLib args eventId now ≠ .error msg := by
  have hstrict : missingField args = none := by simp [missingField, publishArgs_strictMode h]
  have hsize : oversized (demoConfig n d).producer demoLib args = false := by
    have hdumps : ∀ j, (demoLib.dumps j).utf8ByteSize ≤ 4 := by
      intro j
      simp only [demoLib]
      split <;> decide
    have := hdumps args.data
    simp only [oversized, demoConfig, Bool.and_eq_false_iff]
    right
    apply decide_eq_false
    omega
  simp [EventProducer.wireEvent, hstrict, hsize]

/-- Decides `LastTry` for producers whose `publish` fails only at the stream. -/
def lastTryCheck (s : World) : Act → Bool
  | .drain d (.publish _ reply _) => decide (reply ≠ .lost) &&
      match (s.drains d).phase with
      | .looping (row :: _) => decide (reply = .ok ∨ s.xadds row.id = 0)
      | _ => true
  | .drain _ (.update reply _) => decide (reply = .ok)
  | _ => true

theorem lastTry_of_check {n : Int} {s : World} {a : Act} (hc : lastTryCheck s a = true) :
    LastTry (oneRowConfig n) demoLib s a := by
  cases a with
  | tick dt => trivial
  | insert args asText inTransaction id => trivial
  | select d picked => trivial
  | drain d e =>
    cases e with
    | update reply exc => exact fun _ _ _ _ => of_decide_eq_true hc
    | publish eventId reply exc =>
      intro row rest hphase _
      rw [lastTryCheck, hphase, Bool.and_eq_true, decide_eq_true_eq, decide_eq_true_eq] at hc
      refine ⟨hc.1, fun hpos => ⟨?_, fun _ _ => demo_wireEvent (n := n) (d := d)⟩⟩
      rcases hc.2 with hok | hzero
      · exact hok
      · omega
    | _ => trivial

def refusedBeside : List Act :=
  [.select 0 [demoRow], .select 1 [demoNext], .drain 0 .committed, .drain 1 .committed,
    .drain 0 (.publish "e1" .ok ""), .drain 1 (.publish "e2" .refused "timeout"),
    .drain 1 (.update .ok ""), .drain 0 (.update .ok ""), .drain 1 .notified]

/-- Two drains on the last tries of their rows: one publishes and marks its row, in between the other is
refused and dead-letters its own. -/
theorem last_tries_apart :
    ∃ s, Run (step (oneRowConfig 1) demoLib)
        (fun s a => Undisputed s a ∧ LastTry (oneRowConfig 1) demoLib s a) (start demoRows 0)
        refusedBeside s ∧
      s.table.rows.map (fun r => (r.publishedAt.isSome, r.deadLetter)) = [(true, false), (false, true)] ∧
      ∀ r ∈ s.table.rows, ¬ (r.publishedAt ≠ none ∧ r.deadLetter = true) := by
  obtain ⟨s, hs, hp⟩ := exec_any (p := fun s =>
      s.table.rows.map (fun r => (r.publishedAt.isSome, r.deadLetter)) == [(true, false), (false, true)])
    (show (exec (Run.guarded (step (oneRowConfig 1) demoLib)
      (fun s a => undisputedCheck 2 s a && lastTryCheck s a)) (start demoRows 0) refusedBeside).any _ = true by
      decide +kernel)
  have hrun : Run (step (oneRowConfig 1) demoLib)
      (fun s a => Undisputed s a ∧ LastTry (oneRowConfig 1) demoLib s a) (start demoRows 0)
      refusedBeside s :=
    .of_guarded (I := Unused 2) (fun _ _ _ hi hc hs => hi.step (Bool.and_eq_true_iff.1 hc).1 hs)
      (fun _ _ hi hc => ⟨undisputed_of_check hi (Bool.and_eq_true_iff.1 hc).1,
        lastTry_of_check (Bool.and_eq_true_iff.1 hc).2⟩)
      (fun _ _ => rfl) hs
  exact ⟨s, hrun, by simpa using hp,
    (terminal_states_exclusive _ _ _ _ demoRows_pending _ _ hrun).1⟩

/-- The row after one failed attempt of a drain that started at time 0. -/
def demoRetried : Row :=
  { demoRow with retryCount := 1, nextRetryAt := 2000000, lastError := some "timeout" }

/-- Two drains with the same row: the first publishes and marks it, the second fails its last try
and dead-letters it. And with more tries left: two drains fail after each other, then the one that
selected first fails with its old snapshot and takes the stored count from 2 back to 1. -/
theorem terminal_states_collide :
    (∃ s, Run (step (demoConfig 1) demoLib) (fun _ _ => True) (start demoTable 0)
        [.select 0 [demoRow], .drain 0 .committed, .select 1 [demoRow], .drain 1 .committed,
          .drain 0 (.publish "e1" .ok ""), .drain 0 (.update .ok ""),
          .drain 1 (.publish "e2" .refused "timeout"), .drain 1 (.update .ok "")] s ∧
      ∃ r ∈ s.table.rows, r.publishedAt ≠ none ∧ r.deadLetter = true ∧ 0 < s.xadds r.id) ∧
    (∃ s s', Run (step (demoConfig 10) demoLib) (fun _ _ => True) (start demoTable 0)
        ([.select 0 [demoRow], .drain 0 .committed] ++ demoPublish 1 demoRow "e1" .refused ++
          [.drain 1 (.update .ok ""), .tick 2000000] ++
          demoPublish 2 demoRetried "e2" .refused ++ [.drain 2 (.update .ok "")]) s ∧
      Run (step (demoConfig 10) demoLib) (fun _ _ => True) s
        [.drain 0 (.publish "e3" .refused "timeout"), .drain 0 (.update .ok "")] s' ∧
      s.table.rows.map Row.retryCount = [2] ∧ s'.table.rows.map Row.retryCount = [1]) := by
  constructor
  · obtain ⟨s, hs, hp⟩ := exec_any
      (p := fun s => s.table.rows.any
        (fun r => r.publishedAt.isSome && r.deadLetter && decide (0 < s.xadds r.id)))
      (show (exec (step (demoConfig 1) demoLib) (start demoTable 0)
        [.select 0 [demoRow], .drain 0 .committed, .select 1 [demoRow], .drain 1 .committed,
          .drain 0 (.publish "e1" .ok ""), .drain 0 (.update .ok ""),
          .drain 1 (.publish "e2" .refused "timeout"), .drain 1 (.update .ok "")]).any _ = true
        by decide)
    refine ⟨s, .of_exec_all (fun _ _ _ => trivial) hs, ?_⟩
    obtain ⟨r, hr, h⟩ := List.any_eq_true.1 hp
    simp only [Bool.and_eq_true, decide_eq_true_eq] at h
    exact ⟨r, hr, Option.isSome_iff_ne_none.1 h.1.1, h.1.2, h.2⟩
  · obtain ⟨s, hs, hp⟩ := exec_any (p := fun s => s.table.rows.map Row.retryCount == [2] &&
        (exec (step (demoConfig 10) demoLib) s [.drain 0 (.publish "e3" .refused "timeout"),
          .drain 0 (.update .ok "")]).any (fun s' => s'.table.rows.map Row.retryCount == [1]))
      (show (exec (step (demoConfig 10) demoLib) (start demoTable 0)
        ([.select 0 [demoRow], .drain 0 .committed] ++ demoPublish 1 demoRow "e1" .refused ++
          [.drain 1 (.update .ok ""), .tick 2000000] ++
          demoPublish 2 demoRetried "e2" .refused ++ [.drain 2 (.update .ok "")])).any _ = true
        by decide)
    simp only [Bool.and_eq_true, beq_iff_eq] at hp
    obtain ⟨s', hs', hp'⟩ := exec_any hp.2
    exact ⟨s, s', .of_exec_all (fun _ _ _ => trivial) hs,
      .of_exec_all (fun _ _ _ => trivial) hs', hp.1, by simpa using hp'⟩

end Outbox
end Events
end TrShared
