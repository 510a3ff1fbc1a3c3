import TrShared.Events.OutboxAccounting

/-!
# TrShared.Events.OutboxSpacing

The times between the attempts on a row, and the whole retry contract of the outbox for calls that
do not overlap (`outbox_retry_accounting`). It holds as long as no attempt fails whose retry time is
not a `datetime`: such a failure leaves the row as it was, to be attempted again without end
(`distant_retry_never_counted`).

A failed attempt is either long enough ago, or it still defers the next one (`Deferred`): through
the time the running call is about to write, or through `next_retry_at` of the row. A call attempts
a row only when it was due at the `SELECT`, so by then the first of the two holds.
-/

namespace TrShared
namespace Events
namespace Outbox

open Python Machine

variable {cfg : DrainId → DrainConfig} {lib : Stdlib} {p : RetryPolicy} {old : RowId → Prop}
  {j : Journal} {d : DrainId} {id : RowId} {r : Row} {T : Int}

/-- What the policy asks for after failed attempt `a`, with the attempts before it. -/
def backoffAfter (p : RetryPolicy) (before : List Attempt) (a : Attempt) : Int :=
  seconds (min (p.backoffBase ^ (failuresIn before a.row + 1)) p.maxBackoff)

/-- The call is in the `except` block for this row. -/
def Phase.excepts (id : RowId) : Phase → Prop
  | .deadLettering row _ _ _ | .retrying row _ _ _ _ => row.id = id
  | _ => False

/-- No attempt on the row before `T`. -/
structure Deferred (j : Journal) (id : RowId) (T : Int) : Prop where
  stored : j.world.table.find id ≠ none
  call : ∀ d row n nextAt exc rest, (j.world.drains d).phase = .retrying row n nextAt exc rest →
    row.id = id → T ≤ nextAt
  row : ∀ r, j.world.table.find id = some r → r.pending →
    (∀ d, ¬ (j.world.drains d).phase.excepts id) → T ≤ r.nextRetryAt

structure Spaced (p : RetryPolicy) (j : Journal) : Prop where
  spaced : ∀ l₁ a l₂ a' l₃, j.attempts = l₁ ++ a :: (l₂ ++ a' :: l₃) → a.failed = true →
    a'.row = a.row → a.time + backoffAfter p l₁ a ≤ a'.time
  ripe : ∀ l₁ a l₂, j.attempts = l₁ ++ a :: l₂ → a.failed = true →
    a.time + backoffAfter p l₁ a ≤ j.world.now ∨ Deferred j a.row (a.time + backoffAfter p l₁ a)

theorem working_of_excepts {ph : Phase} (h : ph.excepts id) : ph.working = some id := by
  cases ph <;> first | exact congrArg some h | exact h.elim

theorem Deferred.untouched {e : Event} {m : Move} (h : Deferred j id T)
    (hhead : (j.world.drains d).phase.head ≠ some id) (hu : Untouched m j.world.now e id) :
    Deferred (j.apply d e m) id T := by
  have hfind : (j.apply d e m).world.table.find id = j.world.table.find id :=
    find_untouched hu j.world
  constructor
  · rw [hfind]
    exact h.stored
  · intro d' row n nextAt exc rest hph hid
    by_cases hd : d' = d
    · subst hd
      rw [journal_apply_phase] at hph
      exact absurd (by rw [hph, ← hid]; rfl) hu.working
    · rw [journal_apply_phase_of_ne hd] at hph
      exact h.call d' row n nextAt exc rest hph hid
  · intro r hr hp hfree
    rw [hfind] at hr
    refine h.row r hr hp ?_
    intro d' hex
    by_cases hd : d' = d
    · subst hd
      exact hhead (head_of_working (working_of_excepts hex))
    · rw [← journal_apply_phase_of_ne hd] at hex
      exact hfree d' hex

/-- What a move of the one running call leaves of a deferral, read off its next phase. -/
theorem Deferred.of_next {e : Event} {m : Move} (h : Accounts lib p old j)
    (hact : (j.world.drains d).phase.idle = false) (hstored : j.world.table.find id ≠ none)
    (hcall : ∀ row n nextAt exc rest, m.next = .retrying row n nextAt exc rest → row.id = id →
      T ≤ nextAt)
    (hrow : ∀ r', (j.apply d e m).world.table.find id = some r' → r'.pending →
      ¬ m.next.excepts id → T ≤ r'.nextRetryAt) : Deferred (j.apply d e m) id T := by
  constructor
  · obtain ⟨r, hr⟩ := Option.ne_none_iff_exists'.mp hstored
    obtain ⟨r', hr', _⟩ := apply_keeps_event (d := d) (m := m) hr
    intro hnone
    have : (j.world.apply d m).table.find id = none := hnone
    rw [this] at hr'
    cases hr'
  · intro d' row n nextAt exc rest hph hid
    by_cases hd : d' = d
    · subst hd
      rw [journal_apply_phase] at hph
      exact hcall row n nextAt exc rest hph hid
    · simp only [Journal.apply] at hph
      rw [apply_phase, if_neg hd] at hph
      exact absurd (h.solo d' d (by rw [hph]; rfl) hact) hd
  · intro r' hr' hp hfree
    refine hrow r' hr' hp ?_
    have := hfree d
    rwa [journal_apply_phase] at this

/-- A move that attempts nothing keeps the deferral. -/
theorem Deferred.drain {e : Event} {m : Move} (hd : Deferred j id T) (h : Accounts lib p old j)
    (hm : Moves (cfg d) lib j.world.now (j.world.drains d).phase e m) (he : e.smooth)
    (hno : m.attempt j.world.now e = none) : Deferred (j.apply d e m) id T := by
  by_cases hhead : (j.world.drains d).phase.head = some id
  · have hact := hm.active he
    obtain ⟨_, _, hset⟩ := h.settling hact
    have hdec := hset.decodable
    generalize hph : (j.world.drains d).phase = ph at hm hhead hdec
    cases hm with
    | committed | finish => cases hhead
    | undecodable hnone => exact absurd hnone (hdec _ (by simp [Phase.hold]))
    | rejected | publishLost | publishRefused => simp [Move.attempt, failure] at hno
    | publishOk => simp [Move.attempt] at hno
    | marked =>
      cases hhead
      refine .of_next h hact hd.stored (by rintro _ _ _ _ _ ⟨⟩) ?_
      intro r' hr' hp _
      obtain ⟨r, hr, rfl⟩ := find_written rfl hr'
      exact absurd hp.1 (by simp [Write.apply])
    | markFailed hne => exact absurd he hne
    | deadLettered =>
      cases hhead
      cases he
      refine .of_next h hact hd.stored (by rintro _ _ _ _ _ ⟨⟩) ?_
      intro r' hr' hp _
      obtain ⟨r, hr, rfl⟩ := find_written rfl hr'
      exact absurd hp.2 (by simp [Write.apply])
    | notified =>
      cases hhead
      refine .of_next h hact hd.stored (by rintro _ _ _ _ _ ⟨⟩) ?_
      intro r' hr' hp _
      have hw := (h.rows _ r' (find_unwritten rfl hr')).work d (by rw [hph]; rfl)
      rw [hph] at hw
      have hdead : r'.deadLetter = true := hw.2.1
      rw [hp.2] at hdead
      cases hdead
    | retried =>
      cases hhead
      cases he
      refine .of_next h hact hd.stored (by rintro _ _ _ _ _ ⟨⟩) ?_
      intro r' hr' _ _
      obtain ⟨r, hr, rfl⟩ := find_written rfl hr'
      exact hd.call d _ _ _ _ _ hph rfl
    | crash => exact he.elim
  · exact hd.untouched hhead (hm.elsewhere he hhead)

/-- An attempt is one on the row at the head of the loop; a failed one leads to the `except`
block. -/
theorem Moves.attempt_head {c : DrainConfig} {now : Int} {ph : Phase} {e : Event} {m : Move}
    {a : Attempt} (h : Moves c lib now ph e m) (he : e.smooth) (ha : m.attempt now e = some a) :
    ∃ row rest, ph = .looping (row :: rest) ∧ a.row = row.id ∧ a.time = now ∧
      (a.failed = true → ph.failing c lib now e = some row ∧
        ∃ exc, m.next = onException c now row exc rest) := by
  cases h with
  | rejected hargs hev | publishLost hargs hev | publishRefused hargs hev =>
    simp only [Move.attempt, failure, Option.some.injEq] at ha
    subst ha
    exact ⟨_, _, rfl, rfl, rfl, fun _ =>
      ⟨by simp [Phase.failing, hargs, hev, Reply.returned], _, rfl⟩⟩
  | publishOk =>
    simp only [Move.attempt, Option.some.injEq] at ha
    subst ha
    exact ⟨_, _, rfl, rfl, rfl, fun hf => by cases hf⟩
  | undecodable => simp [Move.attempt] at ha
  | markFailed hne => exact absurd he hne
  | crash => exact he.elim
  | _ => cases ha

section Head

variable {row : Snapshot} {rest : List Snapshot}

/-- By the time of an attempt on a row its earlier failures are long enough ago. -/
theorem Spaced.ripe_now (hs : Spaced p j) (h : Accounts lib p old j)
    (hph : (j.world.drains d).phase = .looping (row :: rest)) {l₁ l₂ : List Attempt} {a : Attempt}
    (hl : j.attempts = l₁ ++ a :: l₂) (hf : a.failed = true) (hrow : a.row = row.id) :
    a.time + backoffAfter p l₁ a ≤ j.world.now := by
  rcases hs.ripe l₁ a l₂ hl hf with hripe | hdef
  · exact hripe
  · obtain ⟨r, hr, _, hp, hdue⟩ := h.waiting d row (by rw [hph]; simp [Phase.toPublish])
    rw [hrow] at hdef
    have hfree : ∀ d', ¬ (j.world.drains d').phase.excepts row.id := by
      intro d' hex
      obtain rfl := h.solo d d' (by rw [hph]; rfl) (idle_of_working (working_of_excepts hex))
      rw [hph] at hex
      exact hex.elim
    have := hdef.row r hr hp hfree
    omega

/-- A failed attempt defers the next one by the policy's delay. -/
theorem Accounts.defers {e : Event} {m : Move} {exc : String} {a : Attempt}
    (h : Accounts lib p old j) (hph : (j.world.drains d).phase = .looping (row :: rest))
    (hpol : (cfg d).policy = p) (hre : Reschedulable (cfg d) j.world.now row)
    (hrow : a.row = row.id) (htime : a.time = j.world.now)
    (hnext : m.next = onException (cfg d) j.world.now row exc rest) :
    Deferred (j.apply d e m) a.row (a.time + backoffAfter p j.attempts a) := by
  obtain ⟨r, hr, _⟩ := h.waiting d row (by rw [hph]; simp [Phase.toPublish])
  obtain ⟨_, hcount, hl, _, _⟩ := h.waiting.head (h.rows row.id r hr) h.solo hph hr
  have hfail : failuresIn j.attempts row.id = row.retryCount := by
    have : (j.ledger row.id).failures = r.retryCount := by rw [hl]
    rw [hcount]
    exact this
  rw [hrow]
  refine .of_next h (by rw [hph]; rfl) (by rw [hr]; simp) ?_ ?_
  · intro row' n nextAt exc' rest' hretry _
    rw [hnext] at hretry
    rcases onException_cases (cfg d) j.world.now row exc rest with
      ⟨_, ho⟩ | ⟨_, _, hat, ho⟩ | ⟨_, _, ho⟩
    · rw [ho] at hretry; cases hretry
    · rw [ho] at hretry
      cases hretry
      rw [later_some hat]
      simp only [backoffAfter, hrow, hfail, htime, RetryPolicy.delayFor, hpol]
      exact Int.le_refl _
    · rw [ho] at hretry; cases hretry
  · intro r' _ _ hno
    refine absurd ?_ hno
    rw [hnext]
    rcases onException_live hre exc rest with ⟨_, ho⟩ | ⟨_, _, ho⟩
    · rw [ho]; rfl
    · rw [ho]; rfl

end Head

theorem Spaced.drain (hs : Spaced p j) (h : Accounts lib p old j) {e : Event} {m : Move}
    (hpol : (cfg d).policy = p)
    (hm : Moves (cfg d) lib j.world.now (j.world.drains d).phase e m) (he : e.smooth)
    (hre : Reschedules cfg lib j (.drain d e)) : Spaced p (j.apply d e m) := by
  cases ha : m.attempt j.world.now e with
  | none =>
    have hsame : (j.apply d e m).attempts = j.attempts := by simp [Journal.apply, ha]
    constructor
    · rw [hsame]
      exact hs.spaced
    · intro l₁ a l₂ hl hf
      rw [hsame] at hl
      rcases hs.ripe l₁ a l₂ hl hf with hripe | hdef
      · exact .inl hripe
      · exact .inr (hdef.drain h hm he ha)
  | some a₀ =>
    obtain ⟨row, rest, hph, hrow, htime, hfailed⟩ := hm.attempt_head he ha
    have hgrow : (j.apply d e m).attempts = j.attempts ++ [a₀] := by simp [Journal.apply, ha]
    constructor
    · intro l₁ a l₂ a' l₃ hl hf heq
      rw [hgrow] at hl
      rcases split_snoc hl with ⟨hnil, _⟩ | ⟨m', hm', hl'⟩
      · simp at hnil
      · rcases split_snoc hm'.symm with ⟨_, rfl, rfl⟩ | ⟨l₃', _, rfl⟩
        · rw [htime]
          exact hs.ripe_now h hph hl' hf (heq.symm.trans hrow)
        · exact hs.spaced l₁ a l₂ a' l₃' hl' hf heq
    · intro l₁ a l₂ hl hf
      rw [hgrow] at hl
      rcases split_snoc hl with ⟨_, rfl, rfl⟩ | ⟨l₂', _, hl'⟩
      · obtain ⟨hfail, exc, hnext⟩ := hfailed hf
        exact .inr (h.defers hph hpol (hre row hfail) hrow htime hnext)
      · by_cases hsame : a.row = row.id
        · exact .inl (hs.ripe_now h hph hl' hf hsame)
        · rcases hs.ripe l₁ a l₂' hl' hf with hripe | hdef
          · exact .inl hripe
          · have hhead : (j.world.drains d).phase.head ≠ some a.row := by
              rw [hph]
              simpa [Phase.head] using Ne.symm hsame
            exact .inr (hdef.untouched hhead (hm.elsewhere he hhead))

theorem Spaced.step (hs : Spaced p j) (h : Accounts lib p old j) {j' : Journal} {a : Act}
    (hpol : ∀ d, (cfg d).policy = p) (ha : Sequential j a) (hre : Reschedules cfg lib j a)
    (hstep : j.step cfg lib a = some j') : Spaced p j' := by
  cases journal_cases hstep with
  | tick dt =>
    refine ⟨hs.spaced, ?_⟩
    intro l₁ a l₂ hl hf
    rcases hs.ripe l₁ a l₂ hl hf with hripe | hdef
    · left
      simp only
      omega
    · exact .inr ⟨hdef.stored, hdef.call, hdef.row⟩
  | insert hrow hnew =>
    refine ⟨hs.spaced, ?_⟩
    intro l₁ a l₂ hl hf
    rcases hs.ripe l₁ a l₂ hl hf with hripe | hdef
    · exact .inl hripe
    · obtain ⟨r, hr⟩ := Option.ne_none_iff_exists'.mp hdef.stored
      have hr' := Table.find_insert_of_find hnew hr
      refine .inr ⟨?_, hdef.call, ?_⟩
      · simp only [hr']
        simp
      · intro r1 hr1 hp hfree
        simp only [hr', Option.some.injEq] at hr1
        subst hr1
        exact hdef.row r hr hp hfree
  | @select d picked hready hsel =>
    refine ⟨hs.spaced, ?_⟩
    intro l₁ a l₂ hl hf
    rcases hs.ripe l₁ a l₂ hl hf with hripe | hdef
    · exact .inl hripe
    · have hnone : ∀ d', ∀ id, ¬ (j.world.drains d').phase.excepts id := by
        intro d' id hex
        have := ha d'
        rw [idle_of_working (working_of_excepts hex)] at this
        cases this
      refine .inr ⟨hdef.stored, ?_, ?_⟩
      · intro d' row n nextAt exc rest hph hid
        rw [begin_phase] at hph
        split at hph
        · cases hph
        · exact hdef.call d' row n nextAt exc rest hph hid
      · intro r hr hp _
        exact hdef.row r hr hp (fun d' => hnone d' _)
  | drain hm => exact hs.drain h (hpol _) hm ha.1 hre

/-! ## The retry contract -/

def Journal.attemptsOn (j : Journal) (id : RowId) : Nat :=
  j.attempts.countP (fun a => decide (a.row = id))

def Journal.notices (j : Journal) (id : RowId) : Nat :=
  j.world.callbacks.countP (fun c => decide (c.1 = id))

/-- The call is about to call `on_dead_letter` for this row. -/
def Phase.notifies (id : RowId) : Phase → Prop
  | .notifying row _ _ _ => row.id = id
  | _ => False

/-- The counter machine of one row. What terminal states say of the run is asked only of a row that
was not settled before it (`old`). -/
structure RowKept (p : RetryPolicy) (old : Prop) (j : Journal) (r : Row) : Prop where
  attempts_le : (j.attemptsOn r.id : Int) ≤ attemptLimit p
  counted : r.pending → (∀ d, ¬ (j.world.drains d).phase.excepts r.id) →
    r.retryCount = failuresIn j.attempts r.id
  dead_iff : ¬ old → (∀ d, ¬ (j.world.drains d).phase.excepts r.id) →
    (r.deadLetter = true ↔ (failuresIn j.attempts r.id : Int) = attemptLimit p)
  notified : ¬ old → r.deadLetter = true →
    (∀ d, ¬ (j.world.drains d).phase.notifies r.id) → j.notices r.id = 1
  silent : r.deadLetter = false → j.notices r.id = 0
  once : j.world.xadds r.id ≤ 1
  published : ¬ old → r.publishedAt ≠ none → j.world.xadds r.id = 1

theorem attemptsOn_eq (j : Journal) (id : RowId) :
    j.attemptsOn id = failuresIn j.attempts id + successesIn j.attempts id := by
  simp only [Journal.attemptsOn, failuresIn, successesIn]
  induction j.attempts with
  | nil => rfl
  | cons a l ih =>
    simp only [List.countP_cons, ih]
    cases a.failed <;> by_cases ha : a.row = id <;> simp [ha] <;> omega

/-- The fields follow from the ledger. -/
theorem RowKept.of_ledger {o : Prop} {f x n c : Nat} (hl : j.ledger r.id = ⟨f, x, n, c⟩)
    (hle : (f + x : Int) ≤ attemptLimit p)
    (hcount : r.pending → (∀ d, ¬ (j.world.drains d).phase.excepts r.id) → r.retryCount = f)
    (hdead : ¬ o → (∀ d, ¬ (j.world.drains d).phase.excepts r.id) →
      (r.deadLetter = true ↔ (f : Int) = attemptLimit p))
    (hnote : ¬ o → r.deadLetter = true → (∀ d, ¬ (j.world.drains d).phase.notifies r.id) → c = 1)
    (hsilent : r.deadLetter = false → c = 0) (honce : n ≤ 1)
    (hpub : ¬ o → r.publishedAt ≠ none → n = 1) : RowKept p o j r := by
  simp only [Journal.ledger, Ledger.mk.injEq] at hl
  obtain ⟨h1, h2, h3, h4⟩ := hl
  constructor
  · rw [attemptsOn_eq, h1, h2]
    push_cast
    exact hle
  · rw [h1]; exact hcount
  · rw [h1]; exact hdead
  · intro ho hd hno
    exact h4.trans (hnote ho hd hno)
  · intro hd
    exact h4.trans (hsilent hd)
  · rw [h3]; exact honce
  · rw [h3]; exact hpub

/-- A pending row in the `except` block of a call. -/
theorem RowKept.of_excepts {o : Prop} {f : Nat} (hl : j.ledger r.id = ⟨f, 0, 0, 0⟩) (hp : r.pending)
    (hle : (f : Int) ≤ attemptLimit p) (hex : (j.world.drains d).phase.excepts r.id) :
    RowKept p o j r := by
  refine .of_ledger hl (by push_cast; omega) (fun _ hno => absurd hex (hno d))
    (fun _ hno => absurd hex (hno d)) ?_ (fun _ => rfl) (by omega)
    (fun _ hpub => absurd hp.1 hpub)
  intro _ hd
  rw [hp.2] at hd
  cases hd

/-- A row on the stream that is not dead, marked or about to be. -/
theorem RowKept.of_sent {o : Prop} (hl : j.ledger r.id = ⟨r.retryCount, 1, 1, 0⟩)
    (hdead : r.deadLetter = false) (hn : (r.retryCount : Int) < attemptLimit p) :
    RowKept p o j r := by
  refine .of_ledger hl (by push_cast; omega) (fun _ _ => rfl) ?_ ?_ (fun _ => rfl)
    (Nat.le_refl _) (fun _ _ => rfl)
  · intro _ _
    exact iff_of_false (by simp [hdead]) (by omega)
  · intro _ hd
    rw [hdead] at hd
    cases hd

theorem AtWork.kept {l : Ledger} {o : Prop} (hl : j.ledger r.id = l)
    (hw : (j.world.drains d).phase.working = some r.id)
    (h : AtWork p l r (j.world.drains d).phase) : RowKept p o j r := by
  generalize hph : (j.world.drains d).phase = ph at h hw
  cases ph with
  | marking row rest =>
    obtain ⟨hp, rfl, hn⟩ := h
    exact .of_sent hl hp.2 hn
  | deadLettering row n exc rest =>
    obtain ⟨hp, rfl, hn, hlim⟩ := h
    refine .of_excepts (d := d) hl hp (by push_cast; omega) ?_
    rw [hph]
    exact Option.some.inj hw
  | retrying row n nextAt exc rest =>
    obtain ⟨hp, rfl, hn, hlim⟩ := h
    refine .of_excepts (d := d) hl hp (by push_cast; omega) ?_
    rw [hph]
    exact Option.some.inj hw
  | notifying row n exc rest =>
    obtain ⟨hpub, hdead, rfl, hlim⟩ := h
    have hno : (j.world.drains d).phase.notifies r.id := by
      rw [hph]
      exact Option.some.inj hw
    exact .of_ledger hl (by push_cast; omega) (fun _ _ => rfl)
      (fun _ _ => iff_of_true hdead hlim) (fun _ _ hn => absurd hno (hn d)) (fun _ => rfl)
      (by omega) (fun _ hp => absurd hpub hp)
  | _ => exact h.elim

theorem AtRest.kept {l : Ledger} {o : Prop} (hl : j.ledger r.id = l) (h : AtRest p o l r) :
    RowKept p o j r := by
  cases h with
  | pending hp hl' hn =>
    rw [hl'] at hl
    refine .of_ledger hl (by push_cast; omega) (fun _ _ => rfl) ?_ ?_ (fun _ => rfl) (by omega)
      (fun _ hpub => absurd hp.1 hpub)
    · intro _ _
      exact iff_of_false (by simp [hp.2]) (by omega)
    · intro _ hd
      rw [hp.2] at hd
      cases hd
  | published hpub hdead hl' hn =>
    rw [hl'] at hl
    exact .of_sent hl hdead hn
  | dead hpub hdead hl' hlim =>
    rw [hl'] at hl
    refine .of_ledger hl (by push_cast; omega) (fun _ _ => rfl)
      (fun _ _ => iff_of_true hdead hlim) (fun _ _ _ => rfl) ?_ (by omega)
      (fun _ hp => absurd hpub hp)
    intro hd
    rw [hdead] at hd
    cases hd
  | settled ho hnp hl' =>
    rw [hl'] at hl
    refine .of_ledger hl ?_ (fun hp _ => absurd hp hnp) (fun hno => absurd ho hno)
      (fun hno => absurd ho hno) (fun _ => rfl) (by omega) (fun hno => absurd ho hno)
    simp only [attemptLimit]
    omega

theorem Account.kept (h : Account p old j r.id r) : RowKept p (old r.id) j r := by
  by_cases hw : ∃ d, (j.world.drains d).phase.working = some r.id
  · obtain ⟨d, hw⟩ := hw
    exact (h.work d hw).kept rfl hw
  · refine (h.rest ?_).kept rfl
    intro d hd
    exact hw ⟨d, hd⟩

/-- A row that is on the stream is not selected when no call is at work. -/
theorem Accounts.selected_unsent (h : Accounts lib p old j) {limit : Nat} {picked : List Row}
    (hsel : Selects j.world limit picked) (hidle : ∀ d, (j.world.drains d).phase.idle = true)
    (hr : r ∈ picked) : j.world.xadds r.id = 0 := by
  obtain ⟨hfind, hdue⟩ := hsel.find hr
  simp only [Row.due, Bool.and_eq_true, Option.isNone_iff_eq_none, Bool.not_eq_true'] at hdue
  have hp : r.pending := ⟨hdue.1.1, hdue.1.2⟩
  have hrest := (h.rows r.id r hfind).rest (by
    intro d hw
    have := hidle d
    rw [idle_of_working hw] at this
    cases this)
  cases hrest with
  | pending _ hl _ => exact congrArg Ledger.entries hl
  | published hpub => exact absurd hp.1 hpub
  | dead _ hdead => rw [hp.2] at hdead; cases hdead
  | settled _ hnp => exact absurd hp hnp

/-- The counts a call returns are those of the rows it moved, each of them once. -/
theorem Accounts.returned (h : Accounts lib p old j)
    (hph : (j.world.drains d).phase = .returned) :
    ((j.updatesOf d).map Update.row).Nodup ∧
      ∀ t, (j.world.drains d).count t =
        (j.updatesOf d).countP (fun u => decide (u.write.tally = t)) := by
  rcases h.calls d with ⟨hd, _⟩ | ⟨batch, hn, hs⟩
  · rw [hd] at hph
    cases hph
  · refine ⟨?_, ?_⟩
    · rw [(hs.returned hph).1]
      exact hn
    · intro t
      have := hs.counted t
      simpa [hph, Phase.uncounted] using this

/-- Every row is a counter machine, a row on the stream is never selected again, failed attempts are
spaced by the policy, and a call returns the numbers of rows it moved. -/
theorem outbox_retry_accounting (cfg : DrainId → DrainConfig) (lib : Stdlib) (p : RetryPolicy)
    (hpol : ∀ d, (cfg d).policy = p) (table : Table Row.id) (now : Int) (hfresh : Fresh table)
    (as : List Act) (j : Journal)
    (h : Run (Journal.step cfg lib) (fun j a => Sequential j a ∧ Reschedules cfg lib j a)
      { world := start table now } as j) :
    (∀ r ∈ j.world.table.rows, RowKept p (SettledIn table r.id) j r) ∧
    (∀ d picked j', Sequential j (.select d picked) → j.step cfg lib (.select d picked) = some j' →
      ∀ r ∈ picked, j.world.xadds r.id = 0) ∧
    (∀ l₁ a l₂ a' l₃, j.attempts = l₁ ++ a :: (l₂ ++ a' :: l₃) → a.failed = true →
      a'.row = a.row →
      a.time + seconds (min (p.backoffBase ^ (failuresIn l₁ a.row + 1)) p.maxBackoff) ≤ a'.time) ∧
    (∀ d, (j.world.drains d).phase = .returned → ((j.updatesOf d).map Update.row).Nodup ∧
      ∀ t, (j.world.drains d).count t =
        (j.updatesOf d).countP (fun u => decide (u.write.tally = t))) := by
  have hboth : Accounts lib p (SettledIn table) j ∧ Spaced p j := by
    refine h.invariant (I := fun j => Accounts lib p (SettledIn table) j ∧ Spaced p j) ?_ ?_
    · rintro j a j' ⟨hacc, hsp⟩ ⟨ha, hre⟩ hs
      exact ⟨hacc.step hpol ha hre hs, hsp.step hacc hpol ha hre hs⟩
    · refine ⟨.start hfresh now, ?_, ?_⟩
      · intro l₁ a l₂ a' l₃ hl
        simp at hl
      · intro l₁ a l₂ hl
        simp at hl
  obtain ⟨hacc, hsp⟩ := hboth
  refine ⟨?_, ?_, hsp.spaced, fun d hd => hacc.returned hd⟩
  · intro r hr
    exact (hacc.rows r.id r (Table.find_of_mem hr)).kept
  · intro d picked j' hseq hs r hr
    cases journal_cases hs with
    | select _ hsel => exact hacc.selected_unsent hsel hseq hr

/-- With `max_retries = 0` the first failure dead-letters the row. -/
def demoDeadLetter : List Act :=
  demoPublish 0 demoRow "e1" .refused ++
    [.drain 0 (.update .ok ""), .drain 0 .notified, .drain 0 .finish]

theorem first_failure_dead_letters :
    ∃ j, Run (Journal.step (demoConfig 0) demoLib)
        (fun j a => Sequential j a ∧ Reschedules (demoConfig 0) demoLib j a)
        { world := start demoTable 0 } demoDeadLetter j ∧
      (∃ r ∈ j.world.table.rows, r.deadLetter = true ∧
        RowKept { maxRetries := 0 } (SettledIn demoTable r.id) j r) ∧
      (j.world.drains 0).count .deadLettered =
        (j.updatesOf 0).countP (fun u => decide (u.write.tally = .deadLettered)) := by
  obtain ⟨j, hj, hp⟩ := exec_any (s := ({ world := start demoTable 0 } : Journal))
    (p := fun j => j.world.table.rows.any (fun r => r.deadLetter) &&
      (match (j.world.drains 0).phase with | .returned => true | _ => false))
    (show (exec (Journal.step (demoConfig 0) demoLib) { world := start demoTable 0 }
      demoDeadLetter).any _ = true by decide +kernel)
  simp only [Bool.and_eq_true, List.any_eq_true] at hp
  obtain ⟨⟨r, hr, hdead⟩, hret⟩ := hp
  have hlast : ∀ j a, Reschedules (demoConfig 0) demoLib j a := by
    -- every failure is the last one
    intro j a
    cases a with
    | drain d e =>
      intro row _
      left
      show (0 : Int) ≤ (row.retryCount + 1 : Nat)
      omega
    | _ => trivial
  have hrun : Run (Journal.step (demoConfig 0) demoLib)
      (fun j a => Sequential j a ∧ Reschedules (demoConfig 0) demoLib j a)
      { world := start demoTable 0 } demoDeadLetter j := by
    refine .of_exec_cons ⟨fun _ => rfl, hlast _ _⟩ ?_ hj
    intro a ha s
    refine ⟨?_, hlast s a⟩
    simp only [List.append_eq, List.cons_append, List.nil_append, List.mem_cons, List.not_mem_nil,
      or_false] at ha
    rcases ha with rfl | rfl | rfl | rfl | rfl <;> simp [Sequential, Event.smooth, Event.unlost]
  have hfresh : Fresh demoTable := by
    intro r hr
    obtain rfl : r = demoRow := by simpa [demoTable] using hr
    exact ⟨⟨[], [], rfl, rfl⟩, fun _ => rfl⟩
  obtain ⟨hrows, _, _, hcounts⟩ := outbox_retry_accounting (demoConfig 0) demoLib
    { maxRetries := 0 } (fun _ => rfl) demoTable 0 hfresh demoDeadLetter j hrun
  have hph : (j.world.drains 0).phase = .returned := by
    cases hph : (j.world.drains 0).phase with
    | returned => rfl
    | _ => rw [hph] at hret; cases hret
  exact ⟨j, hrun, ⟨r, hr, hdead, hrows r hr⟩, (hcounts 0 hph).2 .deadLettered⟩

/-! A backoff that leads past the year 9999: four calls attempt the row, and each of them raises in
front of its `UPDATE`. -/

def distantPolicy : RetryPolicy :=
  { maxRetries := 3, backoffBase := 1000000000000, maxBackoff := 1000000000000 }

def distantConfig (_ : DrainId) : DrainConfig :=
  { retryPolicy := some distantPolicy, producer := { sourceService := "crm" } }

def distantCalls : List Act :=
  (List.range 4).flatMap (fun d => demoPublish d demoRow "e1" .refused)

instance (e : Event) : Decidable e.smooth :=
  match e with
  | .update reply _ => inferInstanceAs (Decidable (reply = .ok))
  | .crash => .isFalse (fun h => h)
  | .committed | .publish _ _ _ | .notified | .finish => .isTrue trivial

instance (e : Event) : Decidable e.unlost :=
  match e with
  | .publish _ reply _ => inferInstanceAs (Decidable (reply ≠ .lost))
  | .committed | .update _ _ | .notified | .finish | .crash => .isTrue trivial

/-- Decides `Sequential` when only the first `n` drains are used. -/
def sequentialCheck (n : Nat) (j : Journal) : Act → Bool
  | .tick _ => true
  | .insert _ asText _ _ => !asText
  | .select d _ => decide (d < n) && (List.range n).all (fun d => (j.world.drains d).phase.idle)
  | .drain d e => decide (d < n) && decide (e.smooth ∧ e.unlost)

theorem unused_step {n : Nat} {j j' : Journal} {a : Act} (h : ∀ d, n ≤ d → j.world.drains d = {})
    (hc : sequentialCheck n j a = true) (hs : j.step cfg lib a = some j') :
    ∀ d, n ≤ d → j'.world.drains d = {} := by
  intro d hd
  cases journal_cases hs with
  | tick dt => exact h d hd
  | insert hrow hnew => exact h d hd
  | @select d' picked hready hsel =>
    simp only [sequentialCheck, Bool.and_eq_true, decide_eq_true_eq] at hc
    have hne : d ≠ d' := Nat.ne_of_gt (Nat.lt_of_lt_of_le hc.1 hd)
    simpa [World.begin, hne] using h d hd
  | @drain d' e m hm =>
    simp only [sequentialCheck, Bool.and_eq_true, decide_eq_true_eq] at hc
    have hne : d ≠ d' := Nat.ne_of_gt (Nat.lt_of_lt_of_le hc.1 hd)
    exact (apply_drain_of_ne j.world hne m).trans (h d hd)

theorem sequential_of_check {n : Nat} {j : Journal} {a : Act} (h : ∀ d, n ≤ d → j.world.drains d = {})
    (hc : sequentialCheck n j a = true) : Sequential j a := by
  cases a with
  | tick dt => trivial
  | insert args asText inTransaction id => simpa [sequentialCheck, Sequential] using hc
  | select d picked =>
    simp only [sequentialCheck, Bool.and_eq_true, decide_eq_true_eq, List.all_eq_true,
      List.mem_range] at hc
    intro d'
    by_cases hd : d' < n
    · exact hc.2 d' hd
    · rw [h d' (Nat.le_of_not_lt hd)]
      rfl
  | drain d e =>
    simp only [sequentialCheck, Bool.and_eq_true, decide_eq_true_eq] at hc
    exact hc.2

theorem distant_retry_never_counted :
    ∃ j, Run (Journal.step distantConfig demoLib) Sequential { world := start demoTable 0 }
        distantCalls j ∧ Fresh demoTable ∧ 1 ≤ distantPolicy.backoffBase ∧
      attemptLimit distantPolicy < j.attemptsOn demoRow.id ∧ j.world.table.rows = [demoRow] ∧
      demoRow.retryCount ≠ failuresIn j.attempts demoRow.id := by
  obtain ⟨j, hj, hp⟩ := exec_any (s := ({ world := start demoTable 0 } : Journal))
    (p := fun j => decide (j.world.table.rows = [demoRow]) &&
      decide (attemptLimit distantPolicy < j.attemptsOn demoRow.id) &&
      decide (demoRow.retryCount ≠ failuresIn j.attempts demoRow.id))
    (show (exec (Run.guarded (Journal.step distantConfig demoLib) (sequentialCheck 4))
      { world := start demoTable 0 } distantCalls).any _ = true by decide +kernel)
  simp only [Bool.and_eq_true, decide_eq_true_eq] at hp
  obtain ⟨⟨htable, hlimit⟩, hcount⟩ := hp
  have hrun : Run (Journal.step distantConfig demoLib) Sequential { world := start demoTable 0 }
      distantCalls j :=
    .of_guarded (I := fun j => ∀ d, 4 ≤ d → j.world.drains d = {})
      (fun _ _ _ hi hc hs => unused_step hi hc hs) (fun _ _ hi hc => sequential_of_check hi hc)
      (fun _ _ => rfl) hj
  have hfresh : Fresh demoTable := by
    intro r hr
    obtain rfl : r = demoRow := by simpa [demoTable] using hr
    exact ⟨⟨[], [], rfl, rfl⟩, fun _ => rfl⟩
  exact ⟨j, hrun, hfresh, by decide, hlimit, htable, hcount⟩

end Outbox
end Events
end TrShared
