import TrShared.Events.OutboxPoison
import TrShared.Events.OutboxTerminal
import TrShared.Machine.History

/-!
# TrShared.Events.OutboxAccounting

The retry bookkeeping of the outbox when the calls of `drain_outbox` do not overlap.

Each row is a small counter machine. `Account` lists its states: resting between two attempts, in
the hands of the one running call at one of the four awaits after a `publish`, and the two terminal
states. Each state says what the ledger of the row (failed attempts, successful attempts, stream
entries, dead-letter callbacks) has to be. A move of a call concerns the row at the head of its loop
and no other (`Moves.elsewhere`), so it takes that one row from one state to the next.
-/

namespace TrShared
namespace Events
namespace Outbox

open Python Machine

variable {cfg : DrainId → DrainConfig} {lib : Stdlib} {p : RetryPolicy} {old : RowId → Prop}
  {j : Journal} {d : DrainId} {id : RowId} {r : Row}

/-! ## Runs -/

/-- No call is at work. -/
def Phase.idle : Phase → Bool
  | .ready | .returned | .raised => true
  | _ => false

/-- A publish that raises has not reached the stream. -/
def Event.unlost : Event → Prop
  | .publish _ reply _ => reply ≠ .lost
  | _ => True

/-- Calls follow each other, database statements succeed, columns are dicts. -/
def Sequential (j : Journal) : Act → Prop
  | .tick _ => True
  | .insert _ asText _ _ => asText = false
  | .select _ _ => ∀ d, (j.world.drains d).phase.idle = true
  | .drain _ e => e.smooth ∧ e.unlost

/-- `max(1, max_retries)`. -/
def attemptLimit (p : RetryPolicy) : Int := max 1 p.maxRetries

def Row.pending (r : Row) : Prop := r.publishedAt = none ∧ r.deadLetter = false

/-! ## Ledgers -/

/-- What happened to a row so far. -/
structure Ledger where
  failures : Nat
  successes : Nat
  entries : Nat
  callbacks : Nat

def failuresIn (l : List Attempt) (id : RowId) : Nat :=
  l.countP (fun a => decide (a.row = id) && a.failed)

def successesIn (l : List Attempt) (id : RowId) : Nat :=
  l.countP (fun a => decide (a.row = id) && !a.failed)

def Journal.ledger (j : Journal) (id : RowId) : Ledger where
  failures := failuresIn j.attempts id
  successes := successesIn j.attempts id
  entries := j.world.xadds id
  callbacks := j.world.callbacks.countP (fun c => decide (c.1 = id))

/-- The row a call is busy with after its `publish`. -/
def Phase.working : Phase → Option RowId
  | .marking row _ | .deadLettering row _ _ _ | .retrying row _ _ _ _ | .notifying row _ _ _ =>
    some row.id
  | _ => none

/-- The row the next move of a call is about. -/
def Phase.head : Phase → Option RowId
  | .looping (row :: _) => some row.id
  | ph => ph.working

/-- A row no call is busy with; `old` if it was settled before the run. -/
inductive AtRest (p : RetryPolicy) (old : Prop) (l : Ledger) (r : Row) : Prop where
  | pending (hp : r.pending) (hl : l = ⟨r.retryCount, 0, 0, 0⟩)
      (hn : (r.retryCount : Int) < attemptLimit p)
  | published (hpub : r.publishedAt ≠ none) (hdead : r.deadLetter = false)
      (hl : l = ⟨r.retryCount, 1, 1, 0⟩) (hn : (r.retryCount : Int) < attemptLimit p)
  | dead (hpub : r.publishedAt = none) (hdead : r.deadLetter = true)
      (hl : l = ⟨r.retryCount, 0, 0, 1⟩) (hn : (r.retryCount : Int) = attemptLimit p)
  | settled (ho : old) (hp : ¬ r.pending) (hl : l = ⟨0, 0, 0, 0⟩)

/-- A row a call is busy with, at the await it stands at. -/
def AtWork (p : RetryPolicy) (l : Ledger) (r : Row) : Phase → Prop
  | .marking _ _ =>
    r.pending ∧ l = ⟨r.retryCount, 1, 1, 0⟩ ∧ (r.retryCount : Int) < attemptLimit p
  | .deadLettering _ n _ _ =>
    r.pending ∧ l = ⟨r.retryCount + 1, 0, 0, 0⟩ ∧ n = r.retryCount + 1 ∧ (n : Int) = attemptLimit p
  | .retrying _ n _ _ _ =>
    r.pending ∧ l = ⟨r.retryCount + 1, 0, 0, 0⟩ ∧ n = r.retryCount + 1 ∧ (n : Int) < attemptLimit p
  | .notifying _ _ _ _ =>
    r.publishedAt = none ∧ r.deadLetter = true ∧ l = ⟨r.retryCount, 0, 0, 0⟩ ∧
      (r.retryCount : Int) = attemptLimit p
  | _ => False

structure Account (p : RetryPolicy) (old : RowId → Prop) (j : Journal) (id : RowId) (r : Row) :
    Prop where
  work : ∀ d, (j.world.drains d).phase.working = some id →
    AtWork p (j.ledger id) r (j.world.drains d).phase
  rest : (∀ d, (j.world.drains d).phase.working ≠ some id) → AtRest p (old id) (j.ledger id) r

theorem Account.atWork {ph : Phase} (h : Account p old j id r)
    (hph : (j.world.drains d).phase = ph) (hw : ph.working = some id) :
    AtWork p (j.ledger id) r ph := by
  subst hph
  exact h.work d hw

/-! ## What a move is about -/

section Elsewhere

variable {c : DrainConfig} {now : Int} {ph : Phase} {e : Event} {m : Move}

theorem onException_working (c : DrainConfig) (now : Int) (row : Snapshot) (exc : String)
    (rest : List Snapshot) {id : RowId} (h : (onException c now row exc rest).working = some id) :
    row.id = id := by
  rcases onException_cases c now row exc rest with ⟨_, ho⟩ | ⟨_, _, _, ho⟩ | ⟨_, _, ho⟩
  · rw [ho] at h; exact Option.some.inj h
  · rw [ho] at h; exact Option.some.inj h
  · rw [ho] at h; cases h

theorem Reschedulable.working {c : DrainConfig} {now : Int} {row : Snapshot}
    (h : Reschedulable c now row) (exc : String) (rest : List Snapshot) :
    (onException c now row exc rest).working = some row.id := by
  rcases onException_live h exc rest with ⟨_, ho⟩ | ⟨_, _, ho⟩
  · rw [ho]; rfl
  · rw [ho]; rfl

/-- A move leaves every row alone that is not at the head of its loop. -/
structure Untouched (m : Move) (now : Int) (e : Event) (id : RowId) : Prop where
  writes : ∀ w, m.writes ≠ some (id, w)
  attempt : ∀ a, m.attempt now e = some a → a.row ≠ id
  accepts : ∀ a, m.accepts = some a → a.row ≠ id
  callback : ∀ c, m.callback = some c → c.1 ≠ id
  working : m.next.working ≠ some id

theorem Moves.elsewhere (h : Moves c lib now ph e m) (he : e.smooth) (hid : ph.head ≠ some id) :
    Untouched m now e id := by
  cases h with
  | committed | finish | undecodable =>
    constructor <;> simp [Move.attempt, Phase.working]
  | rejected | publishLost | publishRefused =>
    simp only [Phase.head, ne_eq, Option.some.injEq] at hid
    constructor
    case working => exact fun hw => hid (onException_working _ _ _ _ _ hw)
    all_goals simp [Move.attempt, failure, hid]
  | publishOk =>
    simp only [Phase.head, ne_eq, Option.some.injEq] at hid
    constructor <;> simp [Move.attempt, Phase.working, hid]
  | marked =>
    simp only [Phase.head, Phase.working, ne_eq, Option.some.injEq] at hid
    constructor <;> simp [Move.attempt, Phase.working, hid]
  | markFailed hne => exact absurd he hne
  | deadLettered | retried =>
    cases he
    simp only [Phase.head, Phase.working, ne_eq, Option.some.injEq] at hid
    constructor <;> simp [Move.attempt, wrote, Reply.took, Reply.returned, Phase.working, hid]
  | notified =>
    simp only [Phase.head, Phase.working, ne_eq, Option.some.injEq] at hid
    constructor <;> simp [Move.attempt, Phase.working, hid]
  | crash => exact he.elim

theorem ledger_apply (j : Journal) (d : DrainId) (e : Event) (m : Move) (id : RowId) :
    (j.apply d e m).ledger id =
      ⟨(j.ledger id).failures + failuresIn (m.attempt j.world.now e).toList id,
       (j.ledger id).successes + successesIn (m.attempt j.world.now e).toList id,
       (j.ledger id).entries + (m.accepts.map Accepted.row).toList.count id,
       (j.ledger id).callbacks + m.callback.toList.countP (fun c => decide (c.1 = id))⟩ := by
  simp only [Journal.ledger, Journal.apply, failuresIn, successesIn, List.countP_append, apply_xadds]
  simp only [World.apply, List.countP_append]

theorem ledger_untouched (h : Untouched m j.world.now e id) :
    (j.apply d e m).ledger id = j.ledger id := by
  have h1 : failuresIn (m.attempt j.world.now e).toList id = 0 ∧
      successesIn (m.attempt j.world.now e).toList id = 0 := by
    cases ha : m.attempt j.world.now e with
    | none => exact ⟨rfl, rfl⟩
    | some a => simp [failuresIn, successesIn, h.attempt a ha]
  have h2 : (m.accepts.map Accepted.row).toList.count id = 0 := by
    cases ha : m.accepts with
    | none => rfl
    | some a => simp [h.accepts a ha]
  have h3 : m.callback.toList.countP (fun c => decide (c.1 = id)) = 0 := by
    cases hc : m.callback with
    | none => rfl
    | some c => simp [h.callback c hc]
  rw [ledger_apply, h1.1, h1.2, h2, h3]
  simp only [Nat.add_zero]

theorem find_untouched (h : Untouched m now e id) (s : World) :
    (s.apply d m).table.find id = s.table.find id := by
  rw [apply_find]
  cases hw : m.writes with
  | none => rfl
  | some w =>
    obtain ⟨id', w⟩ := w
    simp only
    rw [if_neg]
    rintro rfl
    exact h.writes w hw

end Elsewhere

/-! ## The invariant -/

/-- At most one call is at work. -/
def Solo (w : World) : Prop :=
  ∀ d d', (w.drains d).phase.idle = false → (w.drains d').phase.idle = false → d = d'

theorem idle_of_working {ph : Phase} (h : ph.working = some id) : ph.idle = false := by
  cases ph <;> first | rfl | cases h

theorem head_of_working {ph : Phase} (h : ph.working = some id) : ph.head = some id := by
  cases ph <;> first | exact h | cases h

theorem Account.untouched {e : Event} {m : Move} (h : Account p old j id r)
    (hhead : (j.world.drains d).phase.head ≠ some id) (hu : Untouched m j.world.now e id) :
    Account p old (j.apply d e m) id r := by
  have hl := ledger_untouched (d := d) hu
  constructor
  · intro d' hw
    by_cases hd : d' = d
    · subst hd
      rw [journal_apply_phase] at hw
      exact absurd hw hu.working
    · rw [journal_apply_phase_of_ne hd] at hw ⊢
      rw [hl]
      exact h.work d' hw
  · intro hfree
    rw [hl]
    refine h.rest ?_
    intro d'
    by_cases hd : d' = d
    · subst hd
      intro hw
      exact hhead (head_of_working hw)
    · rw [← journal_apply_phase_of_ne hd]
      exact hfree d'

/-- The account of the row at the head, from the phase the running call goes to. -/
theorem Account.of_next {e : Event} {m : Move} (hsolo : Solo j.world)
    (hact : (j.world.drains d).phase.idle = false)
    (hwork : m.next.working = some id → AtWork p ((j.apply d e m).ledger id) r m.next)
    (hrest : m.next.working ≠ some id → AtRest p (old id) ((j.apply d e m).ledger id) r) :
    Account p old (j.apply d e m) id r := by
  constructor
  · intro d' hw
    by_cases hd : d' = d
    · subst hd
      rw [journal_apply_phase] at hw ⊢
      exact hwork hw
    · -- no other call is at work
      rw [journal_apply_phase_of_ne hd] at hw
      exact absurd (hsolo d' d (idle_of_working hw) hact) hd
  · intro hfree
    refine hrest ?_
    have := hfree d
    rwa [journal_apply_phase] at this

/-- The row at the head of the loop is at rest. -/
theorem Account.at_head {row : Snapshot} {rest : List Snapshot} (h : Account p old j row.id r)
    (hsolo : Solo j.world) (hph : (j.world.drains d).phase = .looping (row :: rest))
    (hp : r.pending) :
    j.ledger row.id = ⟨r.retryCount, 0, 0, 0⟩ ∧ (r.retryCount : Int) < attemptLimit p := by
  have hfree : ∀ d', (j.world.drains d').phase.working ≠ some row.id := by
    intro d' hw
    obtain rfl := hsolo d d' (by rw [hph]; rfl) (idle_of_working hw)
    rw [hph] at hw
    cases hw
  cases h.rest hfree with
  | pending _ hl hn => exact ⟨hl, hn⟩
  | published hpub => exact absurd hp.1 hpub
  | dead _ hdead => rw [hp.2] at hdead; cases hdead
  | settled _ hnp => exact absurd hp hnp

/-- A failed attempt is entered, and leads to the `except` block. -/
theorem AtWork.failed {c : DrainConfig} {now : Int} {row : Snapshot} {exc : String}
    {rest : List Snapshot} {l : Ledger} (hc : c.policy = p) (hp : r.pending)
    (hrow : row.retryCount = r.retryCount) (hl : l = ⟨r.retryCount + 1, 0, 0, 0⟩)
    (hn : (r.retryCount : Int) < attemptLimit p) (hre : Reschedulable c now row) :
    AtWork p l r (onException c now row exc rest) := by
  simp only [attemptLimit] at hn
  rcases onException_cases c now row exc rest with ⟨hle, ho⟩ | ⟨hle, _, _, ho⟩ | ⟨hle, hnone, _⟩
  · rw [ho]
    rw [hc, hrow] at hle
    refine ⟨hp, hl, by rw [hrow], ?_⟩
    simp only [attemptLimit, hrow]
    omega
  · rw [ho]
    rw [hc, hrow] at hle
    refine ⟨hp, hl, by rw [hrow], ?_⟩
    simp only [attemptLimit, hrow]
    omega
  · rcases hre with hre | hre
    · exact absurd hre hle
    · exact absurd hnone hre

/-- A selected row that was not attempted yet is stored as it was read, and due. -/
def Waiting (w : World) : Prop :=
  ∀ d, ∀ x ∈ (w.drains d).phase.toPublish, ∃ r, w.table.find x.id = some r ∧ r.snapshot = x ∧
    r.pending ∧ r.nextRetryAt ≤ w.now

theorem find_written {s : World} {m : Move} {w : Write} (hw : m.writes = some (id, w)) {r' : Row}
    (hr' : (s.apply d m).table.find id = some r') :
    ∃ r, s.table.find id = some r ∧ r' = w.apply s.now r := by
  rcases apply_find_some hr' with ⟨_, hno⟩ | ⟨r, w', hr, hw', rfl⟩
  · exact absurd hw (hno w)
  · rw [hw] at hw'
    cases hw'
    exact ⟨r, hr, rfl⟩

theorem find_unwritten {s : World} {m : Move} (hw : m.writes = none) {r' : Row}
    (hr' : (s.apply d m).table.find id = some r') : s.table.find id = some r' := by
  rcases apply_find_some hr' with ⟨hr, _⟩ | ⟨_, _, _, hw', _⟩
  · exact hr
  · rw [hw] at hw'
    cases hw'

section Head

variable {row : Snapshot} {rest : List Snapshot}

/-- What is known of the row in front of its attempt. -/
theorem Waiting.head (h : Waiting j.world) (hrows : Account p old j row.id r) (hsolo : Solo j.world)
    (hph : (j.world.drains d).phase = .looping (row :: rest))
    (hr : j.world.table.find row.id = some r) :
    r.pending ∧ row.retryCount = r.retryCount ∧ j.ledger row.id = ⟨r.retryCount, 0, 0, 0⟩ ∧
      (r.retryCount : Int) < attemptLimit p ∧ r.nextRetryAt ≤ j.world.now := by
  obtain ⟨r1, hr1, hsnap, hp, hdue⟩ := h d row (by rw [hph]; simp [Phase.toPublish])
  rw [hr] at hr1
  cases hr1
  obtain ⟨hl, hn⟩ := hrows.at_head hsolo hph hp
  refine ⟨hp, ?_, hl, hn, hdue⟩
  rw [← hsnap]
  rfl

theorem ledger_failure (c : DrainConfig) (eventId exc exc' : String) (reply : Reply) :
    (j.apply d (.publish eventId reply exc) (failure c j.world.now row exc' rest)).ledger row.id =
      { j.ledger row.id with failures := (j.ledger row.id).failures + 1 } := by
  rw [ledger_apply]
  simp [Move.attempt, failure, failuresIn, successesIn]

theorem Account.fail (h : Waiting j.world) (hrows : ∀ r, j.world.table.find row.id = some r →
      Account p old j row.id r) (hsolo : Solo j.world)
    (hph : (j.world.drains d).phase = .looping (row :: rest)) (hpol : (cfg d).policy = p)
    (hre : Reschedulable (cfg d) j.world.now row) (eventId exc exc' : String) (reply : Reply)
    {r' : Row}
    (hr' : (j.world.apply d (failure (cfg d) j.world.now row exc' rest)).table.find row.id =
      some r') :
    Account p old (j.apply d (.publish eventId reply exc) (failure (cfg d) j.world.now row exc' rest))
      row.id r' := by
  have hr := find_unwritten rfl hr'
  obtain ⟨hp, hcount, hl, hn, _⟩ := h.head (hrows r' hr) hsolo hph hr
  refine .of_next hsolo (by rw [hph]; rfl) ?_ ?_
  · intro _
    refine .failed hpol hp hcount ?_ hn hre
    rw [ledger_failure, hl]
  · intro hne
    exact absurd (hre.working _ _) hne

theorem Account.head_move {e : Event} {m : Move} (h : Waiting j.world)
    (hrows : ∀ r, j.world.table.find id = some r → Account p old j id r) (hsolo : Solo j.world)
    (hdec : ∀ x ∈ (j.world.drains d).phase.hold, publishArgs lib x ≠ none)
    (hpol : (cfg d).policy = p)
    (hm : Moves (cfg d) lib j.world.now (j.world.drains d).phase e m) (he : e.smooth)
    (hu : e.unlost) (hre : Reschedules cfg lib j (.drain d e))
    (hhead : (j.world.drains d).phase.head = some id) {r' : Row}
    (hr' : (j.world.apply d m).table.find id = some r') :
    Account p old (j.apply d e m) id r' := by
  simp only [Reschedules] at hre
  generalize hph : (j.world.drains d).phase = ph at hm hhead hdec hre
  have hact : ∀ ph', (j.world.drains d).phase = ph' → ph'.idle = false →
      (j.world.drains d).phase.idle = false := by
    intro ph' h1 h2
    rw [h1]
    exact h2
  cases hm with
  | committed | finish => cases hhead
  | undecodable hnone => exact absurd hnone (hdec _ (by simp [Phase.hold]))
  | @rejected row _ _ _ _ _ _ hargs hev =>
    cases hhead
    have hrow := hre row (by simp [Phase.failing, hargs, hev])
    exact .fail h hrows hsolo hph hpol hrow _ _ _ _ hr'
  | @publishRefused row _ _ _ _ _ hargs hev =>
    cases hhead
    have hrow := hre row (by simp [Phase.failing, hargs, hev, Reply.returned])
    exact .fail h hrows hsolo hph hpol hrow _ _ _ _ hr'
  | publishLost _ _ => exact absurd rfl hu
  | publishOk _ _ =>
    cases hhead
    have hr := find_unwritten rfl hr'
    obtain ⟨hp, _, hl, hn, _⟩ := h.head (hrows r' hr) hsolo hph hr
    refine .of_next hsolo (hact _ hph rfl) ?_ (fun hne => absurd rfl hne)
    intro _
    refine ⟨hp, ?_, hn⟩
    rw [ledger_apply, hl]
    simp [Move.attempt, failuresIn, successesIn]
  | marked =>
    cases hhead
    obtain ⟨r, hr, rfl⟩ := find_written rfl hr'
    obtain ⟨hp, hl, hn⟩ := (hrows r hr).atWork hph rfl
    refine .of_next hsolo (hact _ hph rfl) (fun hw => by cases hw) ?_
    intro _
    refine .published (by simp [Write.apply]) hp.2 ?_ hn
    rw [ledger_apply, hl]
    simp [Move.attempt, failuresIn, successesIn, Write.apply]
  | markFailed hne => exact absurd he hne
  | deadLettered =>
    cases hhead
    cases he
    obtain ⟨r, hr, rfl⟩ := find_written rfl hr'
    obtain ⟨hp, hl, hn, hlim⟩ := (hrows r hr).atWork hph rfl
    refine .of_next hsolo (hact _ hph rfl) ?_ (fun hne => absurd rfl hne)
    intro _
    refine ⟨hp.1, rfl, ?_, hlim⟩
    rw [ledger_apply, hl]
    simp [Move.attempt, failuresIn, successesIn, Write.apply, hn]
  | notified =>
    cases hhead
    have hr := find_unwritten rfl hr'
    obtain ⟨hpub, hdead, hl, hlim⟩ := (hrows r' hr).atWork hph rfl
    refine .of_next hsolo (hact _ hph rfl) (fun hw => by cases hw) ?_
    intro _
    refine .dead hpub hdead ?_ hlim
    rw [ledger_apply, hl]
    simp [Move.attempt, failuresIn, successesIn]
  | retried =>
    cases hhead
    cases he
    obtain ⟨r, hr, rfl⟩ := find_written rfl hr'
    obtain ⟨hp, hl, hn, hlim⟩ := (hrows r hr).atWork hph rfl
    refine .of_next hsolo (hact _ hph rfl) (fun hw => by cases hw) ?_
    intro _
    refine .pending hp ?_ hlim
    rw [ledger_apply, hl]
    simp [Move.attempt, failuresIn, successesIn, Write.apply, hn]
  | crash => exact he.elim

end Head

/-! ## Every run -/

structure Accounts (lib : Stdlib) (p : RetryPolicy) (old : RowId → Prop) (j : Journal) : Prop where
  solo : Solo j.world
  calls : ∀ d, (j.world.drains d = {} ∧ j.updatesOf d = []) ∨
    ∃ batch, batch.Nodup ∧ Settling lib d batch j
  waiting : Waiting j.world
  dict : ∀ id r, j.world.table.find id = some r → DictValued r
  unseen : ∀ id, j.world.table.find id = none → j.ledger id = ⟨0, 0, 0, 0⟩ ∧
    ∀ d, (j.world.drains d).phase.working ≠ some id
  rows : ∀ id r, j.world.table.find id = some r → Account p old j id r

/-- The tables a run may start from: dict columns, and no attempt on a pending row so far. -/
def Fresh (table : Table Row.id) : Prop :=
  ∀ r ∈ table.rows, DictValued r ∧ (r.pending → r.retryCount = 0)

theorem DictValued.publishArgs (h : DictValued r) : publishArgs lib r.snapshot ≠ none := by
  obtain ⟨data, metadata, hd, hm⟩ := h
  simp [Outbox.publishArgs, Row.snapshot, hd, hm, decodeData, decodeMetadata]

theorem DictValued.write (h : DictValued r) (w : Write) (now : Int) :
    DictValued (w.apply now r) := by
  obtain ⟨data, metadata, hd, hm⟩ := h
  exact ⟨data, metadata, by cases w <;> exact hd, by cases w <;> exact hm⟩

/-- The rows that were settled before the run. -/
def SettledIn (table : Table Row.id) (id : RowId) : Prop :=
  ∃ r ∈ table.rows, r.id = id ∧ ¬ r.pending

/-- A pending row nothing has happened to. -/
theorem AtRest.first {o : Prop} (hp : r.pending) (h : r.retryCount = 0) :
    AtRest p o ⟨0, 0, 0, 0⟩ r := by
  refine .pending hp (by rw [h]) ?_
  rw [h]
  simp only [attemptLimit]
  omega

theorem Accounts.start {table : Table Row.id} (h : Fresh table) (now : Int) :
    Accounts lib p (SettledIn table) { world := start table now } where
  solo := by intro d d' hd; cases hd
  calls _ := .inl ⟨rfl, rfl⟩
  waiting := by intro d x hx; cases hx
  dict id r hr := (h r (Table.find_some hr).1).1
  unseen id _ := by
    refine ⟨rfl, ?_⟩
    intro d hd
    cases hd
  rows id r hr := by
    constructor
    · intro d hd
      cases hd
    · intro _
      obtain ⟨hmem, hid⟩ := Table.find_some hr
      by_cases hp : r.pending
      · exact .first hp ((h r hmem).2 hp)
      · exact .settled ⟨r, hmem, hid, hp⟩ hp rfl

/-- A call that the step is not about. -/
theorem Accounts.call_congr {j' : Journal} (h : Accounts lib p old j)
    (hdrain : j'.world.drains d = j.world.drains d) (hupd : j'.updatesOf d = j.updatesOf d) :
    (j'.world.drains d = {} ∧ j'.updatesOf d = []) ∨
      ∃ batch, batch.Nodup ∧ Settling lib d batch j' := by
  rcases h.calls d with ⟨hd, hu⟩ | ⟨batch, hn, hs⟩
  · exact .inl ⟨hdrain.trans hd, hupd.trans hu⟩
  · exact .inr ⟨batch, hn, hs.congr hdrain hupd⟩

theorem Accounts.tick (h : Accounts lib p old j) (dt : Nat) :
    Accounts lib p old { j with world := { j.world with now := j.world.now + dt } } where
  solo := h.solo
  calls d := h.call_congr rfl rfl
  waiting := by
    intro d x hx
    obtain ⟨r, hr, hsnap, hp, hdue⟩ := h.waiting d x hx
    refine ⟨r, hr, hsnap, hp, ?_⟩
    simp only
    omega
  dict := h.dict
  unseen := h.unseen
  rows id r hr := ⟨(h.rows id r hr).work, (h.rows id r hr).rest⟩

theorem Accounts.insert (h : Accounts lib p old j) {row : Row}
    (hnew : row.id ∉ j.world.table.rows.map Row.id) (hdict : DictValued row)
    (hp : row.pending) (hcount : row.retryCount = 0) :
    Accounts lib p old { j with world := { j.world with table := j.world.table.insert row hnew } } where
  solo := h.solo
  calls d := h.call_congr rfl rfl
  waiting := by
    intro d x hx
    obtain ⟨r, hr, hrest⟩ := h.waiting d x hx
    exact ⟨r, Table.find_insert_of_find hnew hr, hrest⟩
  dict id r hr := by
    rcases Table.find_of_find_insert hnew hr with rfl | hr
    · exact hdict
    · exact h.dict id r hr
  unseen id hid := by
    have hid' : j.world.table.find id = none := by
      cases hf : j.world.table.find id with
      | none => rfl
      | some r => rw [Table.find_insert_of_find hnew hf] at hid; cases hid
    exact h.unseen id hid'
  rows id r hr := by
    rcases Table.find_of_find_insert hnew hr with rfl | hr'
    · -- nothing can have happened under an id that was not in the table
      have hid : id = r.id := (Table.find_some hr).2.symm
      subst hid
      obtain ⟨hl, hfree⟩ := h.unseen r.id (Table.find_none.mpr hnew)
      constructor
      · intro d hw
        exact absurd hw (hfree d)
      · intro _
        have hl' : ({ j with world := { j.world with table := j.world.table.insert r hnew } } :
            Journal).ledger r.id = ⟨0, 0, 0, 0⟩ := hl
        rw [hl']
        exact .first hp hcount
    · exact ⟨(h.rows id r hr').work, (h.rows id r hr').rest⟩

theorem toPublish_of_idle {ph : Phase} (h : ph.idle = true) : ph.toPublish = [] := by
  cases ph <;> first | rfl | cases h

theorem begin_working {s : World} {picked : List Row} (hready : (s.drains d).phase = .ready)
    (d' : DrainId) :
    ((s.begin d picked).drains d').phase.working = (s.drains d').phase.working := by
  rw [begin_phase]
  split
  · rename_i hd
    rw [hd, hready]
    rfl
  · rfl

theorem Accounts.begin (h : Accounts lib p old j) {limit : Nat} {picked : List Row}
    (hready : (j.world.drains d).phase = .ready) (hsel : Selects j.world limit picked)
    (hidle : ∀ d, (j.world.drains d).phase.idle = true) :
    Accounts lib p old { j with world := j.world.begin d picked } where
  solo := by
    have honly : ∀ d', ((j.world.begin d picked).drains d').phase.idle = false → d' = d := by
      intro d' hd'
      by_contra hne
      rw [begin_phase, if_neg hne, hidle d'] at hd'
      cases hd'
    intro d₁ d₂ h₁ h₂
    rw [honly d₁ h₁, honly d₂ h₂]
  calls d' := by
    by_cases hd : d' = d
    · subst hd
      rcases h.calls d' with ⟨hd, hu⟩ | ⟨batch, hn, hs⟩
      · refine .inr ⟨picked.map Row.id, hsel.1, .begin hd hu ?_⟩
        intro r hr
        exact (h.dict r.id r (hsel.find hr).1).publishArgs
      · exact absurd hready hs.live.2
    · have hsame : (j.world.begin d picked).drains d' = j.world.drains d' := by
        simp [World.begin, hd]
      exact h.call_congr hsame rfl
  waiting := by
    intro d' x hx
    rw [begin_phase] at hx
    split at hx
    · obtain ⟨r, hr, rfl⟩ := List.mem_map.mp hx
      obtain ⟨hfind, hdue⟩ := hsel.find hr
      simp only [Row.due, Bool.and_eq_true, Option.isNone_iff_eq_none, Bool.not_eq_true',
        decide_eq_true_eq] at hdue
      exact ⟨r, hfind, rfl, ⟨hdue.1.1, hdue.1.2⟩, hdue.2⟩
    · rw [toPublish_of_idle (hidle d')] at hx
      cases hx
  dict := h.dict
  unseen id hid := by
    obtain ⟨hl, hfree⟩ := h.unseen id hid
    refine ⟨hl, ?_⟩
    intro d'
    rw [begin_working hready]
    exact hfree d'
  rows id r hr := by
    have hrow := h.rows id r hr
    have hfree : ∀ d', (j.world.drains d').phase.working ≠ some id := by
      intro d' hw
      have := hidle d'
      rw [idle_of_working hw] at this
      cases this
    constructor
    · intro d' hw
      rw [begin_working hready] at hw
      exact absurd hw (hfree d')
    · intro _
      exact hrow.rest hfree

theorem Moves.active {c : DrainConfig} {now : Int} {ph : Phase} {e : Event} {m : Move}
    (h : Moves c lib now ph e m) (he : e.smooth) : ph.idle = false := by
  cases h with
  | crash => exact he.elim
  | _ => rfl

/-- The running call, with the rows it holds. -/
theorem Accounts.settling (h : Accounts lib p old j) (hact : (j.world.drains d).phase.idle = false) :
    ∃ batch, batch.Nodup ∧ Settling lib d batch j := by
  rcases h.calls d with ⟨hd, _⟩ | hs
  · rw [hd] at hact
    cases hact
  · exact hs

theorem Accounts.holds_nodup (h : Accounts lib p old j)
    (hact : (j.world.drains d).phase.idle = false) : (j.world.holds d).Nodup := by
  obtain ⟨batch, hn, hs⟩ := h.settling hact
  rw [← hs.split] at hn
  exact (List.nodup_append.mp hn).2.1

/-- The row at the head of a call is stored. -/
theorem Accounts.head_stored (h : Accounts lib p old j)
    (hhead : (j.world.drains d).phase.head = some id) : j.world.table.find id ≠ none := by
  intro hnone
  obtain ⟨_, hfree⟩ := h.unseen id hnone
  cases hph : (j.world.drains d).phase with
  | looping rows =>
    cases rows with
    | nil => rw [hph] at hhead; cases hhead
    | cons row rest =>
      rw [hph] at hhead
      obtain ⟨r, hr, _⟩ := h.waiting d row (by rw [hph]; simp [Phase.toPublish])
      obtain rfl : row.id = id := by simpa [Phase.head] using hhead
      rw [hnone] at hr
      cases hr
  | _ => exact hfree d (by rw [hph] at hhead ⊢; exact hhead)

/-- A row that still waits behind a move is not the row of the move. -/
theorem Accounts.behind (h : Accounts lib p old j) {e : Event} {m : Move}
    (hm : Moves (cfg d) lib j.world.now (j.world.drains d).phase e m) (he : e.smooth)
    {x : Snapshot} (hx : x ∈ m.next.toPublish) :
    (j.world.drains d).phase.head ≠ some x.id := by
  have hn := h.holds_nodup (hm.active he)
  have hwait := h.waiting d x (hm.toPublish_sublist.subset hx)
  generalize hph : (j.world.drains d).phase = ph at hm hn
  simp only [World.holds, hph] at hn
  have hfront : ∀ {row : Snapshot} {rest : List Snapshot}, ph.hold = row :: rest → x ∈ rest →
      row.id ≠ x.id := by
    intro row rest hold hmem heq
    rw [hold, List.map_cons, List.nodup_cons] at hn
    exact hn.1 (heq ▸ List.mem_map_of_mem hmem)
  cases hm with
  | committed | finish | undecodable => simp [Phase.head, Phase.working, Phase.toPublish] at hx ⊢
  | rejected | publishLost | publishRefused =>
    simp only [failure] at hx
    rcases onException_toPublish _ _ _ _ _ with ho | ho
    · rw [ho] at hx
      simpa [Phase.head] using hfront rfl hx
    · rw [ho] at hx
      cases hx
  | publishOk | marked => simpa [Phase.head, Phase.working] using hfront rfl hx
  | markFailed hne => exact absurd he hne
  | deadLettered | retried =>
    cases he
    simpa [Phase.head, Phase.working] using hfront rfl hx
  | @notified row rest n exc =>
    -- this row is dead already, and the waiting one is not
    intro hhead
    obtain ⟨r, hr, _, hp, _⟩ := hwait
    have hid : row.id = x.id := by simpa [Phase.head, Phase.working] using hhead
    have hw := (h.rows x.id r hr).work d (by rw [hph, ← hid]; rfl)
    rw [hph] at hw
    have hdead : r.deadLetter = true := hw.2.1
    rw [hp.2] at hdead
    cases hdead
  | crash => exact he.elim

theorem Accounts.drain (h : Accounts lib p old j) {e : Event} {m : Move}
    (hpol : (cfg d).policy = p)
    (hm : Moves (cfg d) lib j.world.now (j.world.drains d).phase e m) (he : e.smooth)
    (hu : e.unlost) (hre : Reschedules cfg lib j (.drain d e)) :
    Accounts lib p old (j.apply d e m) := by
  have hact := hm.active he
  have hother : ∀ d', d' ≠ d → (j.world.drains d').phase.idle = true := by
    intro d' hne
    by_contra hid
    rw [Bool.not_eq_true] at hid
    exact hne (h.solo d' d hid hact)
  obtain ⟨batch, hbatch, hset⟩ := h.settling hact
  constructor
  case solo =>
    have honly : ∀ d', ((j.apply d e m).world.drains d').phase.idle = false → d' = d := by
      intro d' hd'
      by_contra hne
      rw [journal_apply_phase_of_ne hne, hother d' hne] at hd'
      cases hd'
    intro d₁ d₂ h₁ h₂
    rw [honly d₁ h₁, honly d₂ h₂]
  case calls =>
    intro d'
    by_cases hd : d' = d
    · subst hd
      exact .inr ⟨batch, hbatch, hset.drain hm he hre⟩
    · exact h.call_congr (apply_drain_of_ne j.world hd m) (updatesOf_other j (Ne.symm hd) e m)
  case waiting =>
    intro d' x hx
    by_cases hd : d' = d
    · subst hd
      have hx' : x ∈ m.next.toPublish := by rwa [journal_apply_phase] at hx
      obtain ⟨r, hr, hrest⟩ := h.waiting d' x (hm.toPublish_sublist.subset hx')
      have hun := hm.elsewhere he (h.behind hm he hx')
      refine ⟨r, ?_, hrest⟩
      rw [← hr]
      exact find_untouched hun j.world
    · rw [journal_apply_phase_of_ne hd, toPublish_of_idle (hother d' hd)] at hx
      cases hx
  case dict =>
    intro id r' hr'
    rcases apply_find_some hr' with ⟨hr, _⟩ | ⟨r, w, hr, _, rfl⟩
    · exact h.dict id r' hr
    · exact (h.dict id r hr).write w j.world.now
  case unseen =>
    intro id hid
    have hnone : j.world.table.find id = none := by
      cases hf : j.world.table.find id with
      | none => rfl
      | some r =>
        obtain ⟨r', hr', _⟩ := apply_keeps_event (d := d) (m := m) hf
        have : (j.world.apply d m).table.find id = none := hid
        rw [this] at hr'
        cases hr'
    have hhead : (j.world.drains d).phase.head ≠ some id :=
      fun hhead => h.head_stored hhead hnone
    have hun := hm.elsewhere he hhead
    obtain ⟨hl, hfree⟩ := h.unseen id hnone
    refine ⟨(ledger_untouched hun).trans hl, ?_⟩
    intro d'
    by_cases hd : d' = d
    · subst hd
      rw [journal_apply_phase]
      exact hun.working
    · rw [journal_apply_phase_of_ne hd]
      exact hfree d'
  case rows =>
    intro id r' hr'
    by_cases hhead : (j.world.drains d).phase.head = some id
    · exact .head_move h.waiting (h.rows id) h.solo hset.decodable hpol hm he hu hre hhead hr'
    · have hun := hm.elsewhere he hhead
      have hr : j.world.table.find id = some r' := by
        rw [← hr']
        exact (find_untouched hun j.world).symm
      exact (h.rows id r' hr).untouched hhead hun

theorem Accounts.step {j' : Journal} {a : Act} (h : Accounts lib p old j)
    (hpol : ∀ d, (cfg d).policy = p) (ha : Sequential j a) (hre : Reschedules cfg lib j a)
    (hs : j.step cfg lib a = some j') : Accounts lib p old j' := by
  cases journal_cases hs with
  | tick dt => exact h.tick dt
  | @insert args asText inTransaction id row hrow hnew =>
    obtain rfl : asText = false := ha
    simp only [DurableArgs.row] at hrow
    split at hrow
    · cases hrow
      exact h.insert hnew ⟨_, _, rfl, rfl⟩ ⟨rfl, rfl⟩ rfl
    · cases hrow
  | select hready hsel => exact h.begin hready hsel ha
  | drain hm => exact h.drain (hpol _) hm ha.1 ha.2 hre

end Outbox
end Events
end TrShared
