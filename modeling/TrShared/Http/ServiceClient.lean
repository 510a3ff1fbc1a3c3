import TrShared.Http.CircuitBreaker
import TrShared.Python.Json

/-!
# TrShared.Http.ServiceClient

`ServiceHTTPClient._request` of `http/client.py` with its breaker, as one world: a request is
admitted or rejected once, and then up to `max_retries` attempts go out, each of which may report to
the breaker. Requests are sequential; time may pass between any two steps. An exception that the
loop does not catch (the `TypeError` of a body that `json.dumps` refuses, `httpx.InvalidURL`,
a cancellation) leaves the request at any point and reports nothing.

`ClientStep` lists what a step can do, and `clientStep_of_step` says that this is all.
-/

namespace TrShared
namespace Http

open Machine Python

structure ClientConfig extends BreakerConfig where
  maxRetries : Nat := 3

/-- What `_request` reads of an `httpx.Response`: the status, whether the lower-cased content type
contains `application/json`, the text, and what `response.json()` returns (`none` when it raises). -/
structure Response where
  status : Nat
  isJson : Bool := true
  text : String := ""
  json : Option Json := none
  deriving DecidableEq

/-- How one attempt ends: a response, or an `httpx.RequestError`. -/
inductive Outcome where
  | response (r : Response)
  | requestError
  deriving DecidableEq

inductive RequestError where
  /-- `ConnectionError`: the breaker rejected the request. -/
  | circuitOpen
  /-- The `HTTPStatusError` of a 4xx answer, raised again. -/
  | httpStatus (r : Response)
  /-- `ConnectionError` after the last attempt, with its cause. -/
  | retriesExhausted (lastExc : Option Outcome)
  | uncaught
  deriving DecidableEq

/-- `raise_for_status` returns. -/
def Response.isSuccess (r : Response) : Bool := decide (200 ≤ r.status ∧ r.status < 300)

def Response.isClientError (r : Response) : Bool := decide (400 ≤ r.status ∧ r.status < 500)

def Response.result (r : Response) : Json :=
  if r.status = 204 then .obj []
  else if !r.isJson then .obj [("raw", .str r.text)]
  else r.json.getD (.obj [("raw", .str r.text)])

/-- A 4xx answer: raised again, with no report to the breaker. -/
def Outcome.isClientError : Outcome → Bool
  | .response r => r.isClientError
  | .requestError => false

/-- The attempt counts as a failure: a transport error, or a status that is neither 2xx nor 4xx. -/
def Outcome.isFailure : Outcome → Bool
  | .response r => !r.isSuccess && !r.isClientError
  | .requestError => true

inductive Phase where
  | idle
  /-- The loop is about to send this attempt, after the `asyncio.sleep` that lasts until `notBefore`. -/
  | ready (attempt : Nat) (notBefore : Time)
  | waiting (attempt : Nat)
  deriving DecidableEq

inductive ClientEvent where
  /-- An attempt was put on the wire with the breaker in this state. -/
  | sent (state : CircuitState)
  | became (state : CircuitState)
  | finished (result : Except RequestError Json)

structure ClientWorld where
  now : Time
  breaker : CircuitBreaker := {}
  phase : Phase := .idle
  history : List ClientEvent := []

inductive ClientAct where
  | tick (dt : Time)
  | call
  | send
  | answer (o : Outcome)
  | raise
  deriving DecidableEq

namespace ClientWorld

/-- The breaker after one of its methods; a change of state is an event. -/
def setBreaker (w : ClientWorld) (b : CircuitBreaker) : ClientWorld :=
  { w with
    breaker := b
    history := if b.state = w.breaker.state then w.history else w.history ++ [.became b.state] }

def finish (w : ClientWorld) (result : Except RequestError Json) : ClientWorld :=
  { w with phase := .idle, history := w.history ++ [.finished result] }

/-- The head of `for attempt in range(max_retries)`. -/
def loop (c : ClientConfig) (w : ClientWorld) (attempt : Nat) (notBefore : Time)
    (lastExc : Option Outcome) : ClientWorld :=
  if attempt < c.maxRetries then { w with phase := .ready attempt notBefore }
  else w.finish (.error (.retriesExhausted lastExc))

def call (c : ClientConfig) (w : ClientWorld) : ClientWorld :=
  let (isOpen, b) := w.breaker.isOpen c.toBreakerConfig w.now
  let w := w.setBreaker b
  if isOpen then w.finish (.error .circuitOpen) else w.loop c 0 w.now none

/-- `record_failure`, then the sleep of `2 ** attempt` seconds before the next attempt. -/
def failed (c : ClientConfig) (w : ClientWorld) (attempt : Nat) (o : Outcome) : ClientWorld :=
  (w.setBreaker (w.breaker.recordFailure c.toBreakerConfig w.now)).loop c (attempt + 1)
    (w.now + 2 ^ attempt) (some o)

def answer (c : ClientConfig) (w : ClientWorld) (attempt : Nat) : Outcome → ClientWorld
  | .response r =>
    if r.isSuccess then (w.setBreaker w.breaker.recordSuccess).finish (.ok r.result)
    else if r.isClientError then w.finish (.error (.httpStatus r))
    else w.failed c attempt (.response r)
  | .requestError => w.failed c attempt .requestError

def step (c : ClientConfig) (w : ClientWorld) : ClientAct → Option ClientWorld
  | .tick dt => if 0 ≤ dt then some { w with now := w.now + dt } else none
  | .call =>
    match w.phase with
    | .idle => some (w.call c)
    | _ => none
  | .send =>
    match w.phase with
    | .ready attempt notBefore =>
      if notBefore ≤ w.now then
        some { w with
          phase := .waiting attempt
          history := w.history ++ [.sent w.breaker.state] }
      else none
    | _ => none
  | .answer o =>
    match w.phase with
    | .waiting attempt => some (w.answer c attempt o)
    | _ => none
  | .raise =>
    match w.phase with
    | .idle => none
    | .ready _ _ | .waiting _ => some (w.finish (.error .uncaught))

end ClientWorld

/-! ## What one step does -/

/-- The breaker after `is_open` let a request through: a closed one as it was, any other one half
open with the request as its probe. -/
theorem CircuitBreaker.isOpen_false {c : BreakerConfig} {b b' : CircuitBreaker} {now : Time}
    (h : b.isOpen c now = (false, b')) :
    (b.state = .closed ∧ b' = b) ∨
      (b.state ≠ .closed ∧
        b' = { b with state := .halfOpen, probeStartedAt := some now }) := by
  obtain ⟨hopen, hclosed⟩ | ⟨hopen, -⟩ | ⟨hopen, hclosed, -⟩ := isOpen_cases c b now
  · rw [hopen] at h
    cases h
    exact .inl ⟨hclosed, rfl⟩
  · rw [hopen] at h
    cases h
  · rw [hopen] at h
    cases h
    exact .inr ⟨hclosed, rfl⟩

theorem CircuitBreaker.isOpen_true {c : BreakerConfig} {b b' : CircuitBreaker} {now : Time}
    (h : b.isOpen c now = (true, b')) : b.state ≠ .closed ∧ b' = b := by
  obtain ⟨hopen, -⟩ | ⟨hopen, a, hdue, -⟩ | ⟨hopen, -⟩ := isOpen_cases c b now
  · rw [hopen] at h
    cases h
  · rw [hopen] at h
    cases h
    exact ⟨state_of_due hdue, rfl⟩
  · rw [hopen] at h
    cases h

open ClientWorld in
/-- Every step of the client, with what it asked of the state. -/
inductive ClientStep (c : ClientConfig) (w : ClientWorld) : ClientAct → ClientWorld → Prop where
  | tick {dt : Time} : 0 ≤ dt → ClientStep c w (.tick dt) { w with now := w.now + dt }
  | reject : w.phase = .idle → w.breaker.state ≠ .closed →
      w.breaker.isOpen c.toBreakerConfig w.now = (true, w.breaker) →
      ClientStep c w .call (w.finish (.error .circuitOpen))
  | allow {b : CircuitBreaker} : w.phase = .idle →
      w.breaker.isOpen c.toBreakerConfig w.now = (false, b) →
      ClientStep c w .call ((w.setBreaker b).loop c 0 w.now none)
  | send {attempt : Nat} {notBefore : Time} : w.phase = .ready attempt notBefore →
      notBefore ≤ w.now →
      ClientStep c w .send { w with
        phase := .waiting attempt, history := w.history ++ [.sent w.breaker.state] }
  | succeed {attempt : Nat} {r : Response} : w.phase = .waiting attempt → r.isSuccess = true →
      ClientStep c w (.answer (.response r))
        ((w.setBreaker w.breaker.recordSuccess).finish (.ok r.result))
  | clientError {attempt : Nat} {r : Response} : w.phase = .waiting attempt →
      (Outcome.response r).isClientError = true →
      ClientStep c w (.answer (.response r)) (w.finish (.error (.httpStatus r)))
  | fail {attempt : Nat} {o : Outcome} : w.phase = .waiting attempt → o.isFailure = true →
      ClientStep c w (.answer o) (w.failed c attempt o)
  | raised : w.phase ≠ .idle → ClientStep c w .raise (w.finish (.error .uncaught))

theorem clientStep_of_step {c : ClientConfig} {w w' : ClientWorld} {a : ClientAct}
    (h : w.step c a = some w') : ClientStep c w a w' := by
  cases a with
  | tick dt =>
    simp only [ClientWorld.step] at h
    split at h
    · cases h; exact .tick ‹_›
    · cases h
  | call =>
    simp only [ClientWorld.step] at h
    split at h
    · rename_i hp
      simp only [ClientWorld.call, Option.some.injEq] at h
      rcases hb : w.breaker.isOpen c.toBreakerConfig w.now with ⟨isOpen, b⟩
      cases isOpen with
      | true =>
        obtain ⟨hs, rfl⟩ := CircuitBreaker.isOpen_true hb
        simp only [hb, if_true] at h
        subst h
        simpa [ClientWorld.setBreaker] using ClientStep.reject hp hs hb
      | false =>
        simp only [hb] at h
        subst h
        exact .allow hp hb
    · cases h
  | send =>
    simp only [ClientWorld.step] at h
    split at h
    · rename_i hp
      split at h
      · cases h; exact .send hp ‹_›
      · cases h
    · cases h
  | answer o =>
    simp only [ClientWorld.step] at h
    split at h
    · rename_i hp
      cases o with
      | response r =>
        simp only [ClientWorld.answer, Option.some.injEq] at h
        split at h
        · subst h; exact .succeed hp ‹_›
        · rename_i hs
          split at h
          · subst h; exact .clientError hp ‹_›
          · rename_i hc
            subst h
            exact .fail hp (by simp [Outcome.isFailure, hs, hc])
      | requestError =>
        simp only [ClientWorld.answer, Option.some.injEq] at h
        subst h
        exact .fail hp rfl
    · cases h
  | raise =>
    simp only [ClientWorld.step] at h
    split at h
    · cases h
    · cases h; exact .raised (by simp [*])
    · cases h; exact .raised (by simp [*])

end Http
end TrShared
