import TrShared.Http.ServiceClient

/-!
# TrShared.Http.HalfOpenPeriods

What `ServiceHTTPClient` puts on the wire while its breaker is not closed.

* `no_traffic_through_open_breaker`: in every run in which no failing answer with attempts left opens
  the breaker, and no attempt on the wire strands a half-open one (by a 4xx answer or an uncaught
  exception), nothing is sent while the breaker is open and every half-open period sends exactly one
  request.
* `retry_sent_through_open_breaker`: without the condition a retry goes out through a breaker that
  the attempt before it has opened. The breaker is asked once for a request and told about every
  attempt.
-/

namespace TrShared
namespace Http

open Machine Python

def ClientEvent.isSent : ClientEvent → Bool
  | .sent _ => true
  | _ => false

/-- The attempts among the events. -/
def sends (m : List ClientEvent) : Nat := m.countP ClientEvent.isSent

/-- The breaker kept its state. -/
def Uneventful (m : List ClientEvent) : Prop := ∀ s, ClientEvent.became s ∉ m

def Phase.onWire : Phase → Nat
  | .waiting _ => 1
  | _ => 0

def Phase.attempt : Phase → Option Nat
  | .idle => none
  | .ready attempt _ => some attempt
  | .waiting attempt => some attempt

/-- Nothing went out while the breaker was open, and a half-open period is one request. -/
structure OneProbe (w : ClientWorld) : Prop where
  wire : ∀ s, ClientEvent.sent s ∈ w.history → s ≠ .opened
  periods : ∀ m s, Follows w.history (.became .halfOpen) m (.became s) → Uneventful m → sends m = 1
  current : ∀ m, Ends w.history (.became .halfOpen) m → Uneventful m → sends m ≤ 1

/-- Kept along the runs in which no retry follows an opening and no attempt strands a half-open
breaker. An idle client may still have one: its request raised before the first attempt was sent. -/
structure Orderly (c : ClientConfig) (w : ClientWorld) : Prop where
  wire : ∀ s, ClientEvent.sent s ∈ w.history → s ≠ .opened
  periods : ∀ m s, Follows w.history (.became .halfOpen) m (.became s) → Uneventful m → sends m = 1
  current : ∀ m, Ends w.history (.became .halfOpen) m → Uneventful m →
    w.breaker.state = .halfOpen ∧ sends m = w.phase.onWire
  busy : w.phase ≠ .idle → w.breaker.state ≠ .opened
  attempts : ∀ n, w.phase.attempt = some n → n < c.maxRetries
  tried : w.breaker.state ≠ .closed → 0 < c.maxRetries

section Orderly

variable {c : ClientConfig} {w w' : ClientWorld} {b : CircuitBreaker}

@[simp] theorem setBreaker_phase : (w.setBreaker b).phase = w.phase := rfl

theorem setBreaker_history_same (h : b.state = w.breaker.state) :
    (w.setBreaker b).history = w.history := by
  simp [ClientWorld.setBreaker, h]

theorem setBreaker_history_new (h : b.state ≠ w.breaker.state) :
    (w.setBreaker b).history = w.history ++ [.became b.state] := by
  simp [ClientWorld.setBreaker, h]

@[simp] theorem setBreaker_self : w.setBreaker w.breaker = w := by
  simp [ClientWorld.setBreaker]

theorem Orderly.start {t₀ : Time} : Orderly c ({ now := t₀ } : ClientWorld) where
  wire s hs := by cases hs
  periods m s h := absurd h not_follows_nil
  current m h := absurd h not_ends_nil
  busy h := absurd rfl h
  attempts n h := by cases h
  tried h := absurd rfl h

theorem Orderly.oneProbe (h : Orderly c w) : OneProbe w where
  wire := h.wire
  periods := h.periods
  current m he hm := by
    rw [(h.current m he hm).2]
    cases w.phase with
    | idle => exact Nat.zero_le 1
    | ready n t => exact Nat.zero_le 1
    | waiting n => exact Nat.le_refl 1

/-- A request ends. It leaves the breaker half open only when nothing was sent, and takes it out of
HALF_OPEN only with an attempt on the wire. -/
theorem Orderly.finish {result : Except RequestError Json} (h : Orderly c w)
    (hb : b.state = .halfOpen → w.breaker.state = .halfOpen ∧ w.phase.onWire = 0)
    (hp : w.breaker.state = .halfOpen → b.state ≠ .halfOpen → w.phase.onWire = 1)
    (ht : b.state ≠ .closed → 0 < c.maxRetries) : Orderly c ((w.setBreaker b).finish result) := by
  have hfinish : ((w.setBreaker b).finish result).history =
      (w.setBreaker b).history ++ [.finished result] := rfl
  refine ⟨?_, ?_, ?_, fun hn => absurd rfl hn, fun n hn => (by cases hn), ht⟩
  · intro s hs
    rw [hfinish] at hs
    by_cases hsame : b.state = w.breaker.state
    · rw [setBreaker_history_same hsame] at hs
      exact h.wire s (by simpa using hs)
    · rw [setBreaker_history_new hsame] at hs
      exact h.wire s (by simpa using hs)
  · intro m s hf hm
    obtain hf | ⟨he, -⟩ := follows_snoc hf
    · by_cases hsame : b.state = w.breaker.state
      · rw [setBreaker_history_same hsame] at hf
        exact h.periods m s hf hm
      · rw [setBreaker_history_new hsame] at hf
        obtain hf | ⟨-, he⟩ := follows_snoc hf
        · exact h.periods m s hf hm
        · obtain ⟨hs, hc⟩ := h.current m he hm
          rw [hc, hp hs (fun hhalf => hsame (hhalf.trans hs.symm))]
    · cases he
  · intro m hends hm
    obtain ⟨-, he⟩ | ⟨m', rfl, he⟩ := ends_snoc hends
    · cases he
    · have hm' : Uneventful m' := fun s hs => hm s (by simp [hs])
      by_cases hsame : b.state = w.breaker.state
      · rw [setBreaker_history_same hsame] at he
        obtain ⟨hs, hc⟩ := h.current m' he hm'
        have hhalf : b.state = .halfOpen := hsame.trans hs
        refine ⟨hhalf, ?_⟩
        rw [(hb hhalf).2] at hc
        simp only [sends] at hc
        simp [sends, hc, ClientEvent.isSent, ClientWorld.finish, Phase.onWire]
      · rw [setBreaker_history_new hsame] at he
        obtain ⟨-, he⟩ | ⟨m'', rfl, -⟩ := ends_snoc he
        · have hhalf := (ClientEvent.became.inj he).symm
          exact absurd (hhalf.trans (hb hhalf).1.symm) hsame
        · exact absurd (by simp) (hm' b.state)

/-- The request leaves the breaker as it was, and no attempt of it is on the wire if the breaker is
half open. -/
theorem Orderly.leave {result : Except RequestError Json} (h : Orderly c w)
    (hp : w.breaker.state = .halfOpen → w.phase.onWire = 0) : Orderly c (w.finish result) := by
  have hkept : Orderly c ((w.setBreaker w.breaker).finish result) :=
    h.finish (fun hs => ⟨hs, hp hs⟩) (fun hs hn => absurd hs hn) h.tried
  rwa [setBreaker_self] at hkept

/-- The next attempt of a request that runs under a closed breaker. -/
theorem Orderly.ready {n : Nat} {t : Time} (h : Orderly c w) (hs : w.breaker.state = .closed)
    (hb : b.state = .closed) (hn : n < c.maxRetries) :
    Orderly c { w.setBreaker b with phase := .ready n t } := by
  have hh := setBreaker_history_same (w := w) (hb.trans hs.symm)
  refine ⟨?_, ?_, ?_, ?_, ?_, ?_⟩
  · intro s hm; exact h.wire s (hh ▸ hm)
  · intro m s hf; exact h.periods m s (hh ▸ hf)
  · intro m he hm
    have := (h.current m (hh ▸ he) hm).1
    rw [hs] at this
    cases this
  · intro _ ho; cases hb.symm.trans ho
  · intro k hk; cases hk; exact hn
  · intro hc; exact absurd hb hc

/-- An open breaker admits its probe. -/
theorem Orderly.probe {t : Time} (h : Orderly c w) (hs : w.breaker.state = .opened)
    (hb : b.state = .halfOpen) (hn : 0 < c.maxRetries) :
    Orderly c { w.setBreaker b with phase := .ready 0 t } := by
  have hne : b.state ≠ w.breaker.state := by simp [hb, hs]
  have hh : (w.setBreaker b).history = w.history ++ [.became .halfOpen] := by
    rw [setBreaker_history_new hne, hb]
  refine ⟨?_, ?_, ?_, ?_, ?_, fun _ => hn⟩
  · intro s hm
    simp only [hh] at hm
    exact h.wire s (by simpa using hm)
  · intro m s hf hm
    simp only [hh] at hf
    obtain hf | ⟨-, he⟩ := follows_snoc hf
    · exact h.periods m s hf hm
    · have := (h.current m he hm).1
      rw [hs] at this
      cases this
  · intro m he hm
    simp only [hh] at he
    obtain ⟨rfl, -⟩ | ⟨m', rfl, -⟩ := ends_snoc he
    · exact ⟨hb, rfl⟩
    · exact absurd (by simp) (hm .halfOpen)
  · intro _ ho; cases hb.symm.trans ho
  · intro k hk; cases hk; exact hn

/-- A half-open breaker replaces a probe that was never sent. -/
theorem Orderly.reprobe {t : Time} (h : Orderly c w) (hp : w.phase = .idle)
    (hs : w.breaker.state = .halfOpen) (hb : b.state = .halfOpen) :
    Orderly c { w.setBreaker b with phase := .ready 0 t } := by
  have hn : 0 < c.maxRetries := h.tried (by rw [hs]; simp)
  have hh := setBreaker_history_same (w := w) (hb.trans hs.symm)
  refine ⟨?_, ?_, ?_, ?_, ?_, fun _ => hn⟩
  · intro s hm; exact h.wire s (hh ▸ hm)
  · intro m s hf; exact h.periods m s (hh ▸ hf)
  · intro m he hm
    refine ⟨hb, ?_⟩
    rw [(h.current m (hh ▸ he) hm).2, hp]
    rfl
  · intro _ ho; cases hb.symm.trans ho
  · intro k hk; cases hk; exact hn

theorem Orderly.send {n : Nat} {t : Time} (h : Orderly c w) (hp : w.phase = .ready n t) :
    Orderly c { w with
      phase := .waiting n, history := w.history ++ [.sent w.breaker.state] } := by
  refine ⟨?_, ?_, ?_, ?_, ?_, h.tried⟩
  · intro s hs
    rcases List.mem_append.mp hs with hs | hs
    · exact h.wire s hs
    · obtain rfl : s = w.breaker.state := by simpa using hs
      exact h.busy (by simp [hp])
  · intro m s hf hm
    obtain hf | ⟨he, -⟩ := follows_snoc hf
    · exact h.periods m s hf hm
    · cases he
  · intro m hends hm
    obtain ⟨-, he⟩ | ⟨m', rfl, he⟩ := ends_snoc hends
    · cases he
    · obtain ⟨hs, hc⟩ := h.current m' he (fun s hs => hm s (by simp [hs]))
      refine ⟨hs, ?_⟩
      rw [hp] at hc
      simp only [sends, Phase.onWire] at hc
      simp [sends, hc, ClientEvent.isSent, Phase.onWire]
  · intro _; exact h.busy (by simp [hp])
  · intro k hk; cases hk; exact h.attempts n (by simp [hp, Phase.attempt])

end Orderly

/-- The answer is a failure that opens the breaker although the loop has attempts left. -/
def opensBeforeRetry (c : ClientConfig) (w : ClientWorld) (o : Outcome) : Bool :=
  match w.phase with
  | .waiting attempt =>
    o.isFailure && decide (attempt + 1 < c.maxRetries) &&
      decide (w.breaker.state = .halfOpen ∨ c.failureThreshold ≤ w.breaker.failureCount + 1)
  | _ => false

/-- The attempt on the wire ends without a report, by a 4xx answer or an exception that the loop does
not catch, and the breaker is half open. -/
def strandsProbe (w : ClientWorld) (a : ClientAct) : Bool :=
  decide (w.breaker.state = .halfOpen) &&
    match a, w.phase with
    | .answer o, _ => o.isClientError
    | .raise, .waiting _ => true
    | _, _ => false

/-- What the law asks of the answers. -/
def Undisturbed (c : ClientConfig) (w : ClientWorld) (a : ClientAct) : Prop :=
  (∀ o, a = .answer o → opensBeforeRetry c w o = false) ∧ strandsProbe w a = false

section Steps

variable {c : ClientConfig} {w w' : ClientWorld}

theorem recordSuccess_state {b : CircuitBreaker} (h : b.state ≠ .opened) :
    b.recordSuccess.state = .closed := by
  simp only [CircuitBreaker.recordSuccess]
  split
  · rfl
  · cases hb : b.state with
    | closed => rfl
    | opened => exact absurd hb h
    | halfOpen => exact absurd hb ‹_›

theorem recordFailure_state {b : CircuitBreaker} (h : b.state ≠ .opened) (bc : BreakerConfig)
    (now : Time) :
    (b.recordFailure bc now).state = .opened ∨
      ((b.recordFailure bc now).state = .closed ∧ b.state = .closed ∧
        b.failureCount + 1 < bc.failureThreshold) := by
  simp only [CircuitBreaker.recordFailure]
  split
  · exact .inl rfl
  · rename_i hn
    rw [not_or, not_le] at hn
    cases hb : b.state with
    | closed => exact .inr ⟨rfl, rfl, hn.2⟩
    | opened => exact absurd hb h
    | halfOpen => exact absurd hb hn.1

theorem Orderly.allow {b : CircuitBreaker} (h : Orderly c w) (hp : w.phase = .idle)
    (hb : w.breaker.isOpen c.toBreakerConfig w.now = (false, b)) :
    Orderly c ((w.setBreaker b).loop c 0 w.now none) := by
  simp only [ClientWorld.loop]
  obtain ⟨hs, rfl⟩ | ⟨hs, hb'⟩ := CircuitBreaker.isOpen_false hb
  · split
    · exact h.ready hs hs ‹_›
    · rw [setBreaker_self]
      exact h.leave (fun hh => by rw [hs] at hh; cases hh)
  · rw [if_pos (h.tried hs)]
    have hhalf : b.state = .halfOpen := by rw [hb']
    cases hst : w.breaker.state with
    | closed => exact absurd hst hs
    | opened => exact h.probe hst hhalf (h.tried hs)
    | halfOpen => exact h.reprobe hp hst hhalf

theorem Orderly.fail {n : Nat} {o : Outcome} (h : Orderly c w) (hp : w.phase = .waiting n)
    (hf : o.isFailure = true) (hok : opensBeforeRetry c w o = false) :
    Orderly c (w.failed c n o) := by
  have hn : n < c.maxRetries := h.attempts n (by simp [hp, Phase.attempt])
  have hno : w.breaker.state ≠ .opened := h.busy (by simp [hp])
  have hwire : w.phase.onWire = 1 := by rw [hp]; rfl
  simp only [ClientWorld.failed, ClientWorld.loop]
  obtain hs | ⟨hs, hcl, hlt⟩ := recordFailure_state hno c.toBreakerConfig w.now
  · -- the breaker opens, so the condition says that this was the last attempt
    split
    · rename_i hlt
      simp only [opensBeforeRetry, hp, hf, hlt, decide_true, Bool.and_self, Bool.true_and,
        decide_eq_false_iff_not, not_or, not_le] at hok
      simp only [CircuitBreaker.recordFailure] at hs
      rw [if_neg (by simp only [not_or, not_le]; exact hok)] at hs
      exact absurd hs hno
    · exact h.finish (by rw [hs]; simp) (fun _ _ => hwire) (fun _ => Nat.zero_lt_of_lt hn)
  · split
    · exact h.ready hcl hs ‹_›
    · exact h.finish (by rw [hs]; simp) (fun _ _ => hwire) (fun hc => absurd hs hc)

theorem Orderly.step {a : ClientAct} (h : Orderly c w) (hok : Undisturbed c w a)
    (hs : w.step c a = some w') : Orderly c w' := by
  cases clientStep_of_step hs with
  | tick hdt => exact ⟨h.wire, h.periods, h.current, h.busy, h.attempts, h.tried⟩
  | reject hp _ _ => exact h.leave (fun _ => by rw [hp]; rfl)
  | allow hp hb => exact h.allow hp hb
  | send hp _ => exact h.send hp
  | succeed hp _ =>
    have hst := recordSuccess_state (h.busy (by simp [hp]))
    exact h.finish (by rw [hst]; simp) (fun _ _ => by rw [hp]; rfl) (fun hc => absurd hst hc)
  | clientError hp hc =>
    have hnot : w.breaker.state ≠ .halfOpen := by
      simpa [strandsProbe, hc] using hok.2
    exact h.leave (fun hh => absurd hh hnot)
  | fail hp hf => exact h.fail hp hf (hok.1 _ rfl)
  | raised hp =>
    refine h.leave ?_
    intro hh
    cases hw : w.phase with
    | idle => exact absurd hw hp
    | ready => rfl
    | waiting =>
      have hstrands := hok.2
      simp [strandsProbe, hw, hh] at hstrands

end Steps

/-- For every `max_retries`, threshold and timeout, and every run of sequential requests with any
answers at any times: if no failing answer with attempts left opens the breaker and no attempt on the
wire strands a half-open breaker, nothing is sent while the breaker is open and every half-open period sends
exactly one request before the breaker is closed or open again. -/
theorem no_traffic_through_open_breaker (c : ClientConfig) (t₀ : Time) (acts : List ClientAct)
    (w : ClientWorld)
    (hrun : Run (ClientWorld.step c) (Undisturbed c) { now := t₀ } acts w) : OneProbe w :=
  (hrun.invariant (fun _ _ _ hi hok hs => Orderly.step hi hok hs) Orderly.start).oneProbe

/-- `Undisturbed` as a check of one step. -/
def undisturbedCheck (c : ClientConfig) (w : ClientWorld) (a : ClientAct) : Bool :=
  !strandsProbe w a &&
    match a with
    | .answer o => !opensBeforeRetry c w o
    | _ => true

theorem undisturbedCheck_sound {c : ClientConfig} {w : ClientWorld} {a : ClientAct}
    (h : undisturbedCheck c w a = true) : Undisturbed c w a := by
  simp only [undisturbedCheck, Bool.and_eq_true, Bool.not_eq_true'] at h
  refine ⟨?_, h.1⟩
  rintro o rfl
  simpa using h.2

/-- Two failing requests open the breaker; a minute later a probe cannot be built, and after another
one the next probe gets through and closes it. -/
def recovery : List ClientAct :=
  [.call, .send, .answer .requestError, .call, .send, .answer (.response { status := 503 }),
   .call, .tick 60, .call, .raise, .tick 60, .call, .send,
   .answer (.response { status := 200, json := some .null })]

theorem recovery_sends_one_probe : ∃ w,
    Run (ClientWorld.step ⟨⟨2, 60⟩, 1⟩) (Undisturbed ⟨⟨2, 60⟩, 1⟩) { now := 0 } recovery w ∧
      sends w.history = 3 ∧ w.breaker.state = .closed ∧ OneProbe w := by
  have hx : (exec (Run.guarded (ClientWorld.step ⟨⟨2, 60⟩, 1⟩) (undisturbedCheck ⟨⟨2, 60⟩, 1⟩))
      { now := 0 } recovery).any
        (fun w => decide (sends w.history = 3 ∧ w.breaker.state = .closed)) = true := by
    decide +kernel
  obtain ⟨w, hw, hh⟩ := exec_any hx
  have hrun : Run (ClientWorld.step ⟨⟨2, 60⟩, 1⟩) (Undisturbed ⟨⟨2, 60⟩, 1⟩) _ _ w :=
    Run.of_guarded (I := fun _ => True) (fun _ _ _ _ _ _ => trivial)
      (fun _ _ _ h => undisturbedCheck_sound h) trivial hw
  obtain ⟨hsends, hclosed⟩ := of_decide_eq_true hh
  exact ⟨w, hrun, hsends, hclosed, no_traffic_through_open_breaker _ 0 recovery w hrun⟩

/-- One failure opens the breaker and the loop sends the second attempt all the same. -/
theorem retry_sent_through_open_breaker : ¬ ∀ (c : ClientConfig) (t₀ : Time)
    (acts : List ClientAct) (w : ClientWorld), 1 ≤ c.failureThreshold →
      Run (ClientWorld.step c) (fun _ _ => True) { now := t₀ } acts w → OneProbe w := by
  intro h
  have hx : (exec (ClientWorld.step ⟨⟨1, 60⟩, 2⟩) { now := 0 }
      [.call, .send, .answer (.response { status := 503 }), .tick 1, .send]).any
        (fun w => w.history.any fun
          | .sent s => decide (s = .opened)
          | _ => false) = true := by
    decide +kernel
  obtain ⟨w, hw, hh⟩ := exec_any hx
  have hp := h ⟨⟨1, 60⟩, 2⟩ 0 _ w (by decide) (Run.of_exec_all (fun _ _ _ => trivial) hw)
  obtain ⟨e, he, hs⟩ := List.any_eq_true.mp hh
  cases e with
  | sent s => exact hp.wire s he (of_decide_eq_true hs)
  | became s => cases hs
  | finished r => cases hs

end Http
end TrShared
