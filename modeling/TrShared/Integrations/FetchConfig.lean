import TrShared.Http.ProbeReport

/-!
# TrShared.Integrations.FetchConfig

`IntegrationConfigClient._fetch_config` of `integrations/config_client.py`: one request to the admin
panel behind a breaker. It is cut at its only suspension point: `beginFetch` asks the breaker,
`finishFetch` takes the answer. Validation of the payload by `IntegrationConfig(**data)` is
a parameter. `FetchAnswer.raised` is the end of a request that raises anything else: `quote` of a name
with a lone surrogate, `httpx.InvalidURL`, a cancellation.

* `probe_reported_iff`: a request admitted as the half-open probe has reported by the time it returns
  or raises unless a 4xx (`ServiceHTTPClient`) or a 404 (`_fetch_config`) answered it, or it raised
  an exception that its handlers do not know.
* `answered_probe_blocks_the_next_request`: after such an answer the breaker turns the next request
  away although the server has just answered.
-/

namespace TrShared
namespace Integrations

open Machine Python Http

structure IntegrationConfig where
  platformId : String
  tenantId : String
  platformName : String
  platformType : String
  config : Dict
  isEnabled : Bool
  deriving DecidableEq

/-- `IntegrationConfig(**data)`; an error is the text of the exception. -/
abbrev Validate := Dict → Except String IntegrationConfig

inductive FetchAnswer where
  | timeout
  /-- An `httpx.HTTPError` other than a timeout, with the name of its class. -/
  | httpError (name : String)
  /-- A response with its status and what `response.json()` returns (`none` when it raises). -/
  | response (status : Nat) (json : Option Json)
  | raised
  deriving DecidableEq

inductive FetchError where
  | integrationConfigError (message : String)
  | integrationConfigNotFound (message : String)
  /-- `response.json()` raised. -/
  | jsonDecodeError
  | uncaught
  deriving DecidableEq

/-- Up to the request: the error of an open circuit, or the breaker with the request under way. -/
def beginFetch (c : BreakerConfig) (b : CircuitBreaker) (now : Time) :
    Except FetchError Unit × CircuitBreaker :=
  let (isOpen, b) := b.isOpen c now
  if isOpen then
    (.error (.integrationConfigError "Circuit open: admin panel unavailable"), b)
  else (.ok (), b)

def parsePayload (validate : Validate) (payload : Json) : Except FetchError IntegrationConfig :=
  let data :=
    match payload with
    | .obj d => getD d "data" payload
    | other => other
  match data with
  | .obj d =>
    match validate d with
    | .ok config => .ok config
    | .error exc => .error (.integrationConfigError
        s!"admin panel response failed IntegrationConfig validation: {exc}")
  | _ => .error (.integrationConfigError "admin panel returned malformed response (not a dict)")

/-- From the answer on. A 404 is raised before any report to the breaker, and so is `raised`. -/
def finishFetch (c : BreakerConfig) (validate : Validate) (tenantId platformName : String)
    (b : CircuitBreaker) (now : Time) :
    FetchAnswer → Except FetchError IntegrationConfig × CircuitBreaker
  | .timeout =>
    (.error (.integrationConfigError
      s!"admin panel timeout for tenant={tenantId} platform={platformName}"), b.recordFailure c now)
  | .httpError name =>
    (.error (.integrationConfigError s!"admin panel network error: {name}"), b.recordFailure c now)
  | .response status json =>
    if status = 404 then
      (.error (.integrationConfigNotFound
        s!"No active integration for tenant={tenantId} platform={platformName}"), b)
    else if status ≠ 200 then
      (.error (.integrationConfigError
        s!"admin panel returned HTTP {status} for tenant={tenantId} platform={platformName}"),
        b.recordFailure c now)
    else
      match json with
      | none => (.error .jsonDecodeError, b.recordSuccess)
      | some payload => (parsePayload validate payload, b.recordSuccess)
  | .raised => (.error .uncaught, b)

/-! ## Sequential fetches -/

structure FetchWorld where
  now : Time
  breaker : CircuitBreaker := {}
  /-- The tenant and platform whose request is under way. -/
  inFlight : Option (String × String) := none
  results : List (Except FetchError IntegrationConfig) := []

inductive FetchAct where
  | tick (dt : Time)
  | call (tenantId platformName : String)
  | answer (a : FetchAnswer)
  deriving DecidableEq

def FetchWorld.call (c : BreakerConfig) (w : FetchWorld) (tenantId platformName : String) :
    FetchWorld :=
  match beginFetch c w.breaker w.now with
  | (.ok (), b) => { w with breaker := b, inFlight := some (tenantId, platformName) }
  | (.error e, b) => { w with breaker := b, results := w.results ++ [.error e] }

def FetchWorld.answer (c : BreakerConfig) (validate : Validate) (w : FetchWorld)
    (tenantId platformName : String) (a : FetchAnswer) : FetchWorld :=
  let (result, b) := finishFetch c validate tenantId platformName w.breaker w.now a
  { w with breaker := b, inFlight := none, results := w.results ++ [result] }

def FetchWorld.step (c : BreakerConfig) (validate : Validate) (w : FetchWorld) :
    FetchAct → Option FetchWorld
  | .tick dt => if 0 ≤ dt then some { w with now := w.now + dt } else none
  | .call tenantId platformName =>
    match w.inFlight with
    | none => some (w.call c tenantId platformName)
    | some _ => none
  | .answer a =>
    match w.inFlight with
    | some (tenantId, platformName) => some (w.answer c validate tenantId platformName a)
    | none => none

def FetchAct.isCall : FetchAct → Bool
  | .call _ _ => true
  | _ => false

/-- The answer to the one request of a call. -/
def fetchAnswer (acts : List FetchAct) : Option FetchAnswer :=
  acts.findSome? fun
    | .answer a => some a
    | _ => none

def FetchAnswer.isReported : FetchAnswer → Bool
  | .timeout | .httpError _ => true
  | .response status _ => decide (status ≠ 404)
  | .raised => false

section Report

variable {c : BreakerConfig} {validate : Validate} {w w' : FetchWorld} {acts : List FetchAct}
  {t : Time}

/-- A half-open breaker after the answer: as it was without a report, else not half open. -/
theorem finishFetch_holdsProbe {tenantId platformName : String} {b : CircuitBreaker} {now : Time}
    (a : FetchAnswer) (hb : b.holdsProbe t) :
    ¬ (finishFetch c validate tenantId platformName b now a).2.holdsProbe t ↔
      a.isReported = true := by
  have hf : ¬ (b.recordFailure c now).holdsProbe t :=
    fun h => recordFailure_not_halfOpen c b now h.1
  have hs : ¬ b.recordSuccess.holdsProbe t := fun h => recordSuccess_not_halfOpen b h.1
  cases a with
  | timeout => exact iff_of_true hf rfl
  | httpError name => exact iff_of_true hf rfl
  | response status json =>
    simp only [finishFetch, FetchAnswer.isReported]
    by_cases h404 : status = 404
    · rw [if_pos h404, h404]
      exact iff_of_false (fun h => h hb) (by simp)
    · rw [if_neg h404]
      refine iff_of_true ?_ (decide_eq_true h404)
      split
      · exact hf
      · cases json with
        | none => exact hs
        | some payload => exact hs
  | raised => exact iff_of_false (fun h => h hb) (by simp [FetchAnswer.isReported])

theorem FetchWorld.step_no_call {a : FetchAct} (ha : a.isCall = false)
    (hs : w.step c validate a = some w') :
    (∃ dt, a = .tick dt ∧ w' = { w with now := w.now + dt }) ∨
    (∃ an tenantId platformName, a = .answer an ∧ w.inFlight = some (tenantId, platformName) ∧
      w' = w.answer c validate tenantId platformName an) := by
  cases a with
  | tick dt =>
    simp only [FetchWorld.step] at hs
    split at hs
    · cases hs; exact .inl ⟨dt, rfl, rfl⟩
    · cases hs
  | call tenantId platformName => cases ha
  | answer an =>
    simp only [FetchWorld.step] at hs
    split at hs
    · cases hs; exact .inr ⟨an, _, _, rfl, ‹_›, rfl⟩
    · cases hs

theorem fetch_breaker_of_idle
    (hrun : Run (FetchWorld.step c validate) (fun _ a => a.isCall = false) w acts w')
    (h : w.inFlight = none) : w'.breaker = w.breaker := by
  induction hrun with
  | nil => rfl
  | cons ha hs _ ih =>
    obtain ⟨dt, rfl, rfl⟩ | ⟨an, x, y, rfl, hp, rfl⟩ := FetchWorld.step_no_call ha hs
    · exact ih h
    · rw [h] at hp; cases hp

theorem fetch_probe_run
    (hrun : Run (FetchWorld.step c validate) (fun _ a => a.isCall = false) w acts w')
    (hb : w.breaker.holdsProbe t) (hp : w.inFlight ≠ none) (hend : w'.inFlight = none) :
    ¬ w'.breaker.holdsProbe t ↔ ∀ a, fetchAnswer acts = some a → a.isReported = true := by
  induction hrun with
  | nil => exact absurd hend hp
  | cons ha hs hrest ih =>
    obtain ⟨dt, rfl, rfl⟩ | ⟨an, x, y, rfl, -, rfl⟩ := FetchWorld.step_no_call ha hs
    · exact ih hb hp hend
    · rw [fetch_breaker_of_idle hrest rfl]
      simp only [fetchAnswer, List.findSome?_cons, Option.some.injEq, forall_eq']
      exact finishFetch_holdsProbe an hb

/-- A fetch admitted as the probe leaves the breaker waiting for its report exactly when the answer is
a 404 or an exception comes instead. -/
theorem fetch_reports_iff {w₀ w₁ : FetchWorld} {tenantId platformName : String}
    (hprobe : w₀.breaker.admitsProbe c w₀.now)
    (hcall : w₀.step c validate (.call tenantId platformName) = some w₁)
    (hrun : Run (FetchWorld.step c validate) (fun _ a => a.isCall = false) w₁ acts w')
    (hend : w'.inFlight = none) :
    ¬ w'.breaker.holdsProbe w₀.now ↔
      ∀ a, fetchAnswer acts = some a → a.isReported = true := by
  have hopen := CircuitBreaker.isOpen_of_admitsProbe hprobe
  simp only [FetchWorld.step] at hcall
  split at hcall
  · simp only [FetchWorld.call, beginFetch, hopen] at hcall
    cases hcall
    exact fetch_probe_run hrun ⟨rfl, rfl⟩ (by simp) hend
  · cases hcall

end Report

/-- When a request that was admitted as the half-open probe has returned or raised, the breaker is
still half open with that probe outstanding if and only if the first attempt was answered by a 4xx or
not at all (`ServiceHTTPClient`), or the request by a 404 or not at all (`_fetch_config`). A transport
error counts as an answer. The state before the call is arbitrary: whatever calls came before. -/
theorem probe_reported_iff (c : ClientConfig) (validate : Validate) :
    (∀ (w₀ w₁ w₂ : ClientWorld) (acts : List ClientAct), 1 ≤ c.maxRetries →
      w₀.breaker.admitsProbe c.toBreakerConfig w₀.now → w₀.step c .call = some w₁ →
      Run (ClientWorld.step c) (fun _ a => a ≠ .call) w₁ acts w₂ → w₂.phase = .idle →
      (¬ w₂.breaker.holdsProbe w₀.now ↔ Reports acts)) ∧
    (∀ (w₀ w₁ w₂ : FetchWorld) (tenantId platformName : String) (acts : List FetchAct),
      w₀.breaker.admitsProbe c.toBreakerConfig w₀.now →
      w₀.step c.toBreakerConfig validate (.call tenantId platformName) = some w₁ →
      Run (FetchWorld.step c.toBreakerConfig validate) (fun _ a => a.isCall = false) w₁ acts w₂ →
      w₂.inFlight = none →
      (¬ w₂.breaker.holdsProbe w₀.now ↔
        ∀ a, fetchAnswer acts = some a → a.isReported = true)) :=
  ⟨fun _ _ _ _ hr hprobe hcall hrun hend => request_reports_iff hr hprobe hcall hrun hend,
   fun _ _ _ _ _ _ hprobe hcall hrun hend => fetch_reports_iff hprobe hcall hrun hend⟩

/-- A breaker that opened at time 0 after one failure. -/
def tripped : CircuitBreaker := { state := .opened, failureCount := 1 }

/-- A probe that ends in a transport error, and one that ends in a timeout, have reported. -/
theorem failed_probes_report :
    (∃ w, exec (ClientWorld.step ⟨⟨1, 10⟩, 1⟩) { now := 10, breaker := tripped }
        [.call, .send, .answer .requestError] = some w ∧ ¬ w.breaker.holdsProbe 10) ∧
    (∃ w, exec (FetchWorld.step ⟨1, 10⟩ fun _ => .error "") { now := 10, breaker := tripped }
        [.call "t" "p", .answer .timeout] = some w ∧ ¬ w.breaker.holdsProbe 10) := by
  constructor
  · have hx : (exec (ClientWorld.step ⟨⟨1, 10⟩, 1⟩) { now := 10, breaker := tripped }
        [.call, .send, .answer .requestError]).any (fun w => decide (w.phase = .idle)) = true := by
      decide +kernel
    obtain ⟨w, hw, hend⟩ := exec_any hx
    obtain ⟨w₁, hcall, hrest⟩ := exec_cons hw
    have hrun : Run (ClientWorld.step ⟨⟨1, 10⟩, 1⟩) (fun _ a => a ≠ .call) w₁ _ w :=
      Run.of_exec_all (by simp) hrest
    refine ⟨w, hw, ((probe_reported_iff ⟨⟨1, 10⟩, 1⟩ fun _ => .error "").1 _ w₁ w _ (by decide)
      (by decide +kernel) hcall hrun (of_decide_eq_true hend)).mpr ⟨.requestError, rfl, rfl⟩⟩
  · have hx : (exec (FetchWorld.step ⟨1, 10⟩ fun _ => .error "")
        { now := 10, breaker := tripped } [.call "t" "p", .answer .timeout]).any
          (fun w => decide (w.inFlight = none)) = true := by
      decide +kernel
    obtain ⟨w, hw, hend⟩ := exec_any hx
    obtain ⟨w₁, hcall, hrest⟩ := exec_cons hw
    have hrun : Run (FetchWorld.step ⟨1, 10⟩ fun _ => .error "") (fun _ a => a.isCall = false)
        w₁ _ w := Run.of_exec_all (by simp [FetchAct.isCall]) hrest
    refine ⟨w, hw, ((probe_reported_iff ⟨⟨1, 10⟩, 1⟩ fun _ => .error "").2 _ w₁ w _ _ _
      (by decide +kernel) hcall hrun (of_decide_eq_true hend)).mpr ?_⟩
    intro a ha
    cases ha
    rfl

/-- One failure opens a new breaker; ten seconds later a 404 answers the probe. The request is over,
the breaker still waits for it, and nine seconds after that it turns the next request away. -/
theorem answered_probe_blocks_the_next_request :
    (∃ w₀ w₂, exec (ClientWorld.step ⟨⟨1, 10⟩, 1⟩) { now := 0 }
        [.call, .send, .answer .requestError, .tick 10] = some w₀ ∧
      w₀.breaker.admitsProbe ⟨1, 10⟩ w₀.now ∧
      exec (ClientWorld.step ⟨⟨1, 10⟩, 1⟩) w₀
        [.call, .send, .answer (.response { status := 404 })] = some w₂ ∧
      w₂.phase = .idle ∧ w₂.breaker.holdsProbe w₀.now ∧
      (w₂.breaker.isOpen ⟨1, 10⟩ (w₂.now + 9)).1 = true) ∧
    (∃ w₀ w₂, exec (FetchWorld.step ⟨1, 10⟩ fun _ => .error "") { now := 0 }
        [.call "t" "p", .answer .timeout, .tick 10] = some w₀ ∧
      w₀.breaker.admitsProbe ⟨1, 10⟩ w₀.now ∧
      exec (FetchWorld.step ⟨1, 10⟩ fun _ => .error "") w₀
        [.call "t" "p", .answer (.response 404 none)] = some w₂ ∧
      w₂.inFlight = none ∧ w₂.breaker.holdsProbe w₀.now ∧
      (w₂.breaker.isOpen ⟨1, 10⟩ (w₂.now + 9)).1 = true) := by
  constructor
  · have hx : (exec (ClientWorld.step ⟨⟨1, 10⟩, 1⟩) { now := 0 }
        [.call, .send, .answer .requestError, .tick 10]).any (fun w₀ =>
          decide (w₀.breaker.admitsProbe ⟨1, 10⟩ w₀.now) &&
          (exec (ClientWorld.step ⟨⟨1, 10⟩, 1⟩) w₀
            [.call, .send, .answer (.response { status := 404 })]).any (fun w₂ =>
              decide (w₂.phase = .idle ∧ w₂.breaker.holdsProbe w₀.now ∧
                (w₂.breaker.isOpen ⟨1, 10⟩ (w₂.now + 9)).1 = true))) = true := by
      decide +kernel
    obtain ⟨w₀, hw₀, hp⟩ := exec_any hx
    rw [Bool.and_eq_true, decide_eq_true_eq] at hp
    obtain ⟨w₂, hw₂, hq⟩ := exec_any hp.2
    exact ⟨w₀, w₂, hw₀, hp.1, hw₂, of_decide_eq_true hq⟩
  · have hx : (exec (FetchWorld.step ⟨1, 10⟩ fun _ => .error "") { now := 0 }
        [.call "t" "p", .answer .timeout, .tick 10]).any (fun w₀ =>
          decide (w₀.breaker.admitsProbe ⟨1, 10⟩ w₀.now) &&
          (exec (FetchWorld.step ⟨1, 10⟩ fun _ => .error "") w₀
            [.call "t" "p", .answer (.response 404 none)]).any (fun w₂ =>
              decide (w₂.inFlight = none ∧ w₂.breaker.holdsProbe w₀.now ∧
                (w₂.breaker.isOpen ⟨1, 10⟩ (w₂.now + 9)).1 = true))) = true := by
      decide +kernel
    obtain ⟨w₀, hw₀, hp⟩ := exec_any hx
    rw [Bool.and_eq_true, decide_eq_true_eq] at hp
    obtain ⟨w₂, hw₂, hq⟩ := exec_any hp.2
    exact ⟨w₀, w₂, hw₀, hp.1, hw₂, of_decide_eq_true hq⟩

end Integrations
end TrShared
