import Mathlib.Algebra.Order.Field.Rat
import Mathlib.Tactic.Linarith
import TrShared.Machine.Run
import TrShared.Machine.History

/-!
# TrShared.Http.CircuitBreaker

`CircuitBreaker` of `http/circuit_breaker.py`: closed, open, or half open with a probe under way.
Every call is atomic (none of the three coroutines awaits anything), so a run of the breaker is a
sequence of calls with time passing between them. Times are seconds of the monotonic clock, as exact
rationals; the code subtracts floats, which can move a comparison by the rounding of one difference.

* `CircuitBreaker.due` is the moment from which the breaker admits the next request; every call
  sets it to a full `recovery_timeout` from now, keeps it, or closes the breaker (`call_due`).
* `breaker_wellFormed_and_spaced`: over every run, late reports included, the fields fit the state,
  and admissions keep their distance from openings and from each other.
-/

namespace TrShared
namespace Http

open Machine

/-- Seconds of a clock. -/
abbrev Time := ℚ

inductive CircuitState where
  | closed
  | opened
  | halfOpen
  deriving DecidableEq, Repr

structure BreakerConfig where
  failureThreshold : Nat := 5
  recoveryTimeout : Time := 60

structure CircuitBreaker where
  state : CircuitState := .closed
  failureCount : Nat := 0
  openedAt : Time := 0
  probeStartedAt : Option Time := none
  deriving DecidableEq

namespace CircuitBreaker

def transition (b : CircuitBreaker) (newState : CircuitState) : CircuitBreaker :=
  { b with state := newState }

/-- `is_open()` at `now`: the answer, and the breaker afterwards. -/
def isOpen (c : BreakerConfig) (b : CircuitBreaker) (now : Time) : Bool × CircuitBreaker :=
  match b.state with
  | .closed => (false, b)
  | .opened =>
    if now - b.openedAt < c.recoveryTimeout then (true, b)
    else (false, { b.transition .halfOpen with probeStartedAt := some now })
  | .halfOpen =>
    match b.probeStartedAt with
    | some t =>
      if now - t < c.recoveryTimeout then (true, b)
      else (false, { b with probeStartedAt := some now })
    | none => (false, { b with probeStartedAt := some now })

def recordSuccess (b : CircuitBreaker) : CircuitBreaker :=
  let b := { b with failureCount := 0 }
  if b.state = .halfOpen then { b with probeStartedAt := none }.transition .closed else b

def recordFailure (c : BreakerConfig) (b : CircuitBreaker) (now : Time) : CircuitBreaker :=
  let b := { b with failureCount := b.failureCount + 1 }
  if b.state = .halfOpen ∨ c.failureThreshold ≤ b.failureCount then
    { b with openedAt := now, probeStartedAt := none }.transition .opened
  else b

/-- The fields fit the state. -/
structure WellFormed (c : BreakerConfig) (b : CircuitBreaker) : Prop where
  closed : b.state = .closed → b.failureCount < c.failureThreshold ∧ b.probeStartedAt = none
  opened : b.state = .opened → b.probeStartedAt = none
  halfOpen : b.state = .halfOpen → b.probeStartedAt.isSome

/-- The moment from which a breaker that is not closed admits a request. -/
def due (c : BreakerConfig) (b : CircuitBreaker) : Option Time :=
  match b.state with
  | .closed => none
  | .opened => some (b.openedAt + c.recoveryTimeout)
  | .halfOpen => b.probeStartedAt.map (· + c.recoveryTimeout)

end CircuitBreaker

/-! ## Runs -/

inductive BreakerCall where
  | isOpen
  | recordSuccess
  | recordFailure
  deriving DecidableEq, Repr

/-- The call at `now`: what it returned (`none` for Python's `None`) and the breaker afterwards. -/
def BreakerCall.apply (c : BreakerConfig) (b : CircuitBreaker) (now : Time) :
    BreakerCall → Option Bool × CircuitBreaker
  | .isOpen => let (answer, b') := b.isOpen c now; (some answer, b')
  | .recordSuccess => (none, b.recordSuccess)
  | .recordFailure => (none, b.recordFailure c now)

/-- One call as it happened. -/
structure BreakerEvent where
  time : Time
  call : BreakerCall
  answer : Option Bool
  before : CircuitBreaker
  after : CircuitBreaker

/-- `is_open` let a request through although the breaker was not closed. -/
def BreakerEvent.admits (e : BreakerEvent) : Prop :=
  e.answer = some false ∧ e.before.state ≠ .closed

/-- The call made the breaker enter OPEN or, in OPEN, record its opening time again. -/
def BreakerEvent.opens (c : BreakerConfig) (e : BreakerEvent) : Prop :=
  e.after.state = .opened ∧
    (e.before.state ≠ .opened ∨
      (e.call = .recordFailure ∧ c.failureThreshold ≤ e.before.failureCount + 1))

structure BreakerWorld where
  now : Time
  breaker : CircuitBreaker := {}
  history : List BreakerEvent := []

inductive BreakerAct where
  | tick (dt : Time)
  | call (k : BreakerCall)
  deriving DecidableEq

/-- What the history says of a call made now. -/
def BreakerWorld.event (c : BreakerConfig) (w : BreakerWorld) (k : BreakerCall) : BreakerEvent :=
  ⟨w.now, k, (k.apply c w.breaker w.now).1, w.breaker, (k.apply c w.breaker w.now).2⟩

def BreakerWorld.call (c : BreakerConfig) (w : BreakerWorld) (k : BreakerCall) : BreakerWorld :=
  { w with
    breaker := (k.apply c w.breaker w.now).2
    history := w.history ++ [w.event c k] }

/-- The clock never goes back; every call is possible at any time, also a late report of a request
that was admitted long ago. -/
def BreakerWorld.step (c : BreakerConfig) (w : BreakerWorld) : BreakerAct → Option BreakerWorld
  | .tick dt => if 0 ≤ dt then some { w with now := w.now + dt } else none
  | .call k => some (w.call c k)

namespace CircuitBreaker

variable {c : BreakerConfig} {b : CircuitBreaker} {now a : Time}

/-- What `is_open` does: it lets everything through, holds a request back until `due`, or admits it as the
probe of a half-open breaker. -/
theorem isOpen_cases (c : BreakerConfig) (b : CircuitBreaker) (now : Time) :
    (b.isOpen c now = (false, b) ∧ b.state = .closed) ∨
    (b.isOpen c now = (true, b) ∧ ∃ a, b.due c = some a ∧ now < a) ∨
    (b.isOpen c now = (false, { b with state := .halfOpen, probeStartedAt := some now }) ∧
      b.state ≠ .closed ∧ ∀ a ∈ b.due c, a ≤ now) := by
  cases hb : b.state with
  | closed => exact .inl ⟨by rw [isOpen, hb], rfl⟩
  | opened =>
    have hdue : b.due c = some (b.openedAt + c.recoveryTimeout) := by rw [due, hb]
    simp only [isOpen, hb, hdue]
    split
    · exact .inr (.inl ⟨rfl, _, rfl, by linarith⟩)
    · refine .inr (.inr ⟨rfl, by simp, ?_⟩)
      rintro a ⟨⟩
      linarith
  | halfOpen =>
    cases hprobe : b.probeStartedAt with
    | none =>
      have hdue : b.due c = none := by rw [due, hb, hprobe, Option.map_none]
      refine .inr (.inr ⟨by simp only [isOpen, hb, hprobe], by simp, ?_⟩)
      rw [hdue]
      rintro a ⟨⟩
    | some t =>
      have hdue : b.due c = some (t + c.recoveryTimeout) := by rw [due, hb, hprobe, Option.map_some]
      simp only [isOpen, hb, hprobe, hdue]
      split
      · exact .inr (.inl ⟨rfl, _, rfl, by linarith⟩)
      · refine .inr (.inr ⟨rfl, by simp, ?_⟩)
        rintro a ⟨⟩
        linarith

/-- The clock is asked only through `due`. -/
theorem isOpen_admits (hs : b.state ≠ .closed) (hd : b.due c = some a) :
    (b.isOpen c now).1 = false ↔ a ≤ now := by
  obtain ⟨-, hclosed⟩ | ⟨h, a', hd', hlt⟩ | ⟨h, -, hle⟩ := isOpen_cases c b now
  · exact absurd hclosed hs
  · obtain rfl := Option.some.inj (hd.symm.trans hd')
    rw [h]
    exact iff_of_false (by simp) (not_le.mpr hlt)
  · rw [h]
    exact iff_of_true rfl (hle a hd)

theorem exists_due (hw : b.WellFormed c) (hs : b.state ≠ .closed) : ∃ a, b.due c = some a := by
  cases hb : b.state with
  | closed => exact absurd hb hs
  | opened => exact ⟨b.openedAt + c.recoveryTimeout, by simp only [due, hb]⟩
  | halfOpen =>
    obtain ⟨t, ht⟩ := Option.isSome_iff_exists.mp (hw.halfOpen hb)
    exact ⟨t + c.recoveryTimeout, by simp only [due, hb, ht, Option.map_some]⟩

theorem state_of_due (hd : b.due c = some a) : b.state ≠ .closed := by
  intro hb
  simp only [due, hb] at hd
  cases hd

theorem WellFormed.of_closed (hs : b.state = .closed) (hf : b.failureCount < c.failureThreshold)
    (hp : b.probeStartedAt = none) : b.WellFormed c where
  closed _ := ⟨hf, hp⟩
  opened h := by rw [hs] at h; cases h
  halfOpen h := by rw [hs] at h; cases h

theorem WellFormed.of_opened (hs : b.state = .opened) (hp : b.probeStartedAt = none) :
    b.WellFormed c where
  closed h := by rw [hs] at h; cases h
  opened _ := hp
  halfOpen h := by rw [hs] at h; cases h

theorem WellFormed.of_halfOpen (hs : b.state = .halfOpen) (hp : b.probeStartedAt.isSome) :
    b.WellFormed c where
  closed h := by rw [hs] at h; cases h
  opened h := by rw [hs] at h; cases h
  halfOpen _ := hp

theorem WellFormed.isOpen (hw : b.WellFormed c) : (b.isOpen c now).2.WellFormed c := by
  obtain ⟨h, -⟩ | ⟨h, -⟩ | ⟨h, -⟩ := isOpen_cases c b now
  · rw [h]
    exact hw
  · rw [h]
    exact hw
  · rw [h]
    exact .of_halfOpen rfl rfl

theorem WellFormed.recordSuccess (hw : b.WellFormed c) (ht : 1 ≤ c.failureThreshold) :
    b.recordSuccess.WellFormed c := by
  simp only [CircuitBreaker.recordSuccess]
  split
  · exact .of_closed rfl ht rfl
  · exact ⟨fun h => ⟨ht, (hw.closed h).2⟩, hw.opened, hw.halfOpen⟩

theorem WellFormed.recordFailure (hw : b.WellFormed c) : (b.recordFailure c now).WellFormed c := by
  simp only [CircuitBreaker.recordFailure]
  split
  · exact .of_opened rfl rfl
  · rename_i h
    rw [not_or] at h
    exact ⟨fun hs => ⟨by simpa using h.2, (hw.closed hs).2⟩, hw.opened, hw.halfOpen⟩

/-- In every state but CLOSED a failure that opens nothing leaves the breaker where it was. -/
theorem recordFailure_due (c : BreakerConfig) (b : CircuitBreaker) (now : Time) :
    (b.recordFailure c now).state = .closed ∨
    (b.recordFailure c now).due c = some (now + c.recoveryTimeout) ∨
    ((b.recordFailure c now).due c = b.due c ∧ (b.recordFailure c now).state = b.state ∧
      b.failureCount + 1 < c.failureThreshold) := by
  simp only [recordFailure]
  split
  · exact .inr (.inl rfl)
  · rename_i h
    rw [not_or] at h
    exact .inr (.inr ⟨rfl, rfl, by simpa using h.2⟩)

end CircuitBreaker

section Law

variable {c : BreakerConfig} {w w' : BreakerWorld}

theorem apply_wellFormed {b : CircuitBreaker} {now : Time} (ht : 1 ≤ c.failureThreshold)
    (hw : b.WellFormed c) (k : BreakerCall) : (k.apply c b now).2.WellFormed c := by
  cases k with
  | isOpen => exact hw.isOpen
  | recordSuccess => exact hw.recordSuccess ht
  | recordFailure => exact hw.recordFailure

/-- What a call does to the next admission: the breaker is closed afterwards, or a whole
`recovery_timeout` starts now, or nothing changes and the call neither admitted nor opened. -/
theorem call_due (c : BreakerConfig) (b : CircuitBreaker) (now : Time) (k : BreakerCall) :
    (k.apply c b now).2.state = .closed ∨
    (k.apply c b now).2.due c = some (now + c.recoveryTimeout) ∨
    ((k.apply c b now).2.due c = b.due c ∧ (k.apply c b now).1 ≠ some false ∧
      ¬ BreakerEvent.opens c ⟨now, k, (k.apply c b now).1, b, (k.apply c b now).2⟩) := by
  cases k with
  | isOpen =>
    simp only [BreakerCall.apply, BreakerEvent.opens]
    obtain ⟨h, hclosed⟩ | ⟨h, -⟩ | ⟨h, -⟩ := CircuitBreaker.isOpen_cases c b now
    · rw [h]
      exact .inl hclosed
    · rw [h]
      exact .inr (.inr ⟨rfl, by simp, by simp⟩)
    · rw [h]
      exact .inr (.inl rfl)
  | recordSuccess =>
    simp only [BreakerCall.apply, BreakerEvent.opens, CircuitBreaker.recordSuccess]
    split
    · exact .inl rfl
    · exact .inr (.inr ⟨rfl, by simp, by simp⟩)
  | recordFailure =>
    simp only [BreakerCall.apply, BreakerEvent.opens]
    obtain h | h | ⟨hd, hs, hf⟩ := CircuitBreaker.recordFailure_due c b now
    · exact .inl h
    · exact .inr (.inl h)
    · refine .inr (.inr ⟨hd, by simp, ?_⟩)
      rintro ⟨ho, hne | ⟨-, hle⟩⟩
      · exact hne (hs ▸ ho)
      · omega

/-- Kept along every run. `openings` and `admissions` say what the next admission has to wait for;
`afterOpening` and `apart` are the law for the entries already in the history. -/
structure Spaced (c : BreakerConfig) (w : BreakerWorld) : Prop where
  wellFormed : w.breaker.WellFormed c
  past : ∀ e ∈ w.history, e.time ≤ w.now
  openings : ∀ a, w.breaker.due c = some a →
    ∀ e ∈ w.history, e.opens c → e.time + c.recoveryTimeout ≤ a
  admissions : ∀ a, w.breaker.due c = some a →
    ∀ e m, Ends w.history e m → e.admits → (∀ x ∈ m, x.after.state ≠ .closed) →
      e.time + c.recoveryTimeout ≤ a
  afterOpening : ∀ e m e', Follows w.history e m e' → e.opens c → e'.admits →
    e.time + c.recoveryTimeout ≤ e'.time
  apart : ∀ e m e', Follows w.history e m e' → e.admits → e'.admits →
    (∀ x ∈ m, x.after.state ≠ .closed) → e.time + c.recoveryTimeout ≤ e'.time

theorem Spaced.start {t₀ : Time} (ht : 1 ≤ c.failureThreshold) :
    Spaced c ({ now := t₀ } : BreakerWorld) where
  wellFormed := .of_closed rfl ht rfl
  past e he := by cases he
  openings a _ e he := by cases he
  admissions a _ e m he := absurd he not_ends_nil
  afterOpening e m e' he := absurd he not_follows_nil
  apart e m e' he := absurd he not_follows_nil

theorem Spaced.tick {dt : Time} (h : Spaced c w) (hdt : 0 ≤ dt) :
    Spaced c { w with now := w.now + dt } where
  wellFormed := h.wellFormed
  past e he := by have := h.past e he; show e.time ≤ w.now + dt; linarith
  openings := h.openings
  admissions := h.admissions
  afterOpening := h.afterOpening
  apart := h.apart

theorem due_le_of_admits {k : BreakerCall} {a : Time} (he : (w.event c k).admits)
    (hd : w.breaker.due c = some a) : a ≤ w.now := by
  obtain ⟨ha, hs⟩ := he
  cases k with
  | isOpen =>
    simp only [BreakerWorld.event, BreakerCall.apply, Option.some.injEq] at ha
    exact (CircuitBreaker.isOpen_admits hs hd).mp ha
  | recordSuccess => cases ha
  | recordFailure => cases ha

theorem Spaced.call (ht : 1 ≤ c.failureThreshold) (h : Spaced c w)
    (k : BreakerCall) : Spaced c (w.call c k) := by
  have hpast : ∀ e ∈ w.history ++ [w.event c k], e.time ≤ w.now := by
    intro e he
    rcases mem_snoc he with he | rfl
    · exact h.past e he
    · exact le_refl _
  refine ⟨apply_wellFormed ht h.wellFormed k, hpast, ?_, ?_, ?_, ?_⟩
  · intro a hd e he hopen
    obtain hc | hn | ⟨hk, -, hno⟩ := call_due c w.breaker w.now k
    · exact absurd hc (CircuitBreaker.state_of_due hd)
    · obtain rfl : w.now + c.recoveryTimeout = a := Option.some.inj (hn.symm.trans hd)
      have := hpast e he
      linarith
    · rcases mem_snoc he with he | rfl
      · exact h.openings a (hk.symm.trans hd) e he hopen
      · exact absurd hopen hno
  · intro a hd e m he hadm hm
    obtain hc | hn | ⟨hk, hna, -⟩ := call_due c w.breaker w.now k
    · exact absurd hc (CircuitBreaker.state_of_due hd)
    · obtain rfl : w.now + c.recoveryTimeout = a := Option.some.inj (hn.symm.trans hd)
      have := hpast e he.mem
      linarith
    · obtain ⟨-, rfl⟩ | ⟨m', rfl, he'⟩ := ends_snoc he
      · exact absurd hadm.1 hna
      · exact h.admissions a (hk.symm.trans hd) e m' he' hadm (fun x hx => hm x (by simp [hx]))
  · intro e m e' hf hopen hadm
    obtain he | ⟨rfl, he⟩ := follows_snoc hf
    · exact h.afterOpening e m e' he hopen hadm
    · obtain ⟨a, hd⟩ := CircuitBreaker.exists_due h.wellFormed hadm.2
      exact le_trans (h.openings a hd e he.mem hopen) (due_le_of_admits hadm hd)
  · intro e m e' hf hadm hadm' hm
    obtain he | ⟨rfl, he⟩ := follows_snoc hf
    · exact h.apart e m e' he hadm hadm' hm
    · obtain ⟨a, hd⟩ := CircuitBreaker.exists_due h.wellFormed hadm'.2
      exact le_trans (h.admissions a hd e m he hadm hm) (due_le_of_admits hadm' hd)

theorem Spaced.step (ht : 1 ≤ c.failureThreshold) {a : BreakerAct}
    (h : Spaced c w) (hs : w.step c a = some w') : Spaced c w' := by
  cases a with
  | tick dt =>
    simp only [BreakerWorld.step] at hs
    split at hs
    · cases hs; exact h.tick ‹_›
    · cases hs
  | call k =>
    simp only [BreakerWorld.step, Option.some.injEq] at hs
    subst hs
    exact h.call ht k

end Law

/-- For every run of calls in any order, from any start of the clock: the fields fit the state,
every admission outside CLOSED comes at least `recovery_timeout` after every earlier opening, and
two such admissions with no CLOSED state between them are at least `recovery_timeout` apart. -/
theorem breaker_wellFormed_and_spaced (c : BreakerConfig) (ht : 1 ≤ c.failureThreshold)
    (t₀ : Time) (acts : List BreakerAct) (w : BreakerWorld)
    (hrun : Run (BreakerWorld.step c) (fun _ _ => True) { now := t₀ } acts w) :
    w.breaker.WellFormed c ∧
    (∀ e m e', Follows w.history e m e' → e.opens c → e'.admits →
      e.time + c.recoveryTimeout ≤ e'.time) ∧
    (∀ e m e', Follows w.history e m e' → e.admits → e'.admits →
      (∀ x ∈ m, x.after.state ≠ .closed) → e.time + c.recoveryTimeout ≤ e'.time) := by
  have h : Spaced c w :=
    hrun.invariant (fun _ _ _ hi _ hs => Spaced.step ht hi hs) (Spaced.start ht)
  exact ⟨h.wellFormed, h.afterOpening, h.apart⟩

/-- The breaker opens, a probe is lost, and the next one is admitted 12 seconds after it. -/
def lostProbe : List BreakerAct :=
  [.call .recordFailure, .tick 10, .call .isOpen, .tick 12, .call .isOpen]

theorem lost_probe_replaced : ∃ w,
    exec (BreakerWorld.step ⟨1, 10⟩) { now := 5 } lostProbe = some w ∧
    w.history.map (fun e => (e.time, e.answer)) = [(5, none), (15, some false), (27, some false)] ∧
    w.breaker.WellFormed ⟨1, 10⟩ ∧
    ∀ e m e', Follows w.history e m e' → e.admits → e'.admits →
      (∀ x ∈ m, x.after.state ≠ .closed) → e.time + 10 ≤ e'.time := by
  have hx : (exec (BreakerWorld.step ⟨1, 10⟩) { now := 5 } lostProbe).any (fun w =>
      decide (w.history.map (fun e => (e.time, e.answer)) =
        [(5, none), (15, some false), (27, some false)])) = true := by
    decide +kernel
  obtain ⟨w, hw, hh⟩ := exec_any hx
  have h := breaker_wellFormed_and_spaced ⟨1, 10⟩ (by decide) 5 lostProbe w
    (Run.of_exec_all (fun _ _ _ => trivial) hw)
  exact ⟨w, hw, of_decide_eq_true hh, h.1, h.2.2⟩

end Http
end TrShared
