import TrShared.Middleware.IdempotencyIsolation

/-!
# TrShared.Middleware.IdempotencyProtocol

Claim, completion and release of one cache key, when every Redis command succeeds and every claim
ends before its 300 s are over (`Prompt`).

The release is an unconditional `DELETE`. That it removes the request's own claim and nothing else
is the invariant `Claims`: while a request stands between its `SET NX` and its last command, its
sentinel is in Redis and has not expired. From it follow one handler run at a time, completed
answers that stay and are replayed, `409` for whoever finds a claim, and a free key after a release.
-/

namespace TrShared
namespace Middleware
namespace Idempotency

open Python Machine

variable {c : Config} {decode : List UInt8 → String} {requests : RequestId → Request}

/-- When the claim of a request expires, from its `SET NX` to its last command. -/
def Phase.deadline : Phase → Option Nat
  | .executing deadline | .storing deadline _ | .releasing deadline _ => some deadline
  | _ => none

def Phase.runs : Phase → Bool
  | .executing _ | .unguarded => true
  | _ => false

/-- Redis is there and every command succeeds; no claim outlives its TTL. -/
def Prompt (w : World) : Act → Prop
  | .tick dt => ∀ i deadline, (w.phase i).deadline = some deadline → w.now + dt ≤ deadline
  | .dispatch _ client => client = true
  | .setNx _ reply | .get _ reply | .store _ reply | .release _ reply => reply = .ok
  | .cancel i => (w.phase i).deadline = none
  | .handler _ _ => True

structure Claims (c : Config) (requests : RequestId → Request) (w : World) : Prop where
  held : ∀ i deadline, (w.phase i).deadline = some deadline →
    w.redis.slot ((requests i).cacheKey c) = some ⟨⟨i, processingSentinel⟩, deadline⟩ ∧
      w.now ≤ deadline
  claimed : ∀ i, (requests i).guarded = true → w.phase i ≠ .unguarded

theorem Claims.owner_unique {w : World} (h : Claims c requests w) {i j : RequestId} {d d' : Nat}
    (hi : (w.phase i).deadline = some d) (hj : (w.phase j).deadline = some d')
    (hkey : (requests i).cacheKey c = (requests j).cacheKey c) : i = j := by
  have h₁ := (h.held i d hi).1
  have h₂ := (h.held j d' hj).1
  rw [hkey, h₂] at h₁
  cases h₁
  rfl

/-- A request moves on without Redis. -/
theorem Claims.goto {w : World} (h : Claims c requests w) {i : RequestId} {ph : Phase}
    (hdeadline : ∀ d, ph.deadline = some d → (w.phase i).deadline = some d)
    (hclaimed : (requests i).guarded = true → ph ≠ .unguarded) : Claims c requests (w.goto i ph) := by
  constructor
  case held =>
    intro j d hj
    rcases goto_phase w i ph j with ⟨rfl, hph⟩ | ⟨_, hph⟩
    · rw [hph] at hj
      exact h.held j d (hdeadline d hj)
    · rw [hph] at hj
      exact h.held j d hj
  case claimed =>
    intro j hj hun
    rcases goto_phase w i ph j with ⟨rfl, hph⟩ | ⟨_, hph⟩
    · exact hclaimed hj (hph.symm.trans hun)
    · exact h.claimed j hj (hph.symm.trans hun)

/-- A request writes its key, which no other request has claimed. -/
theorem Claims.write {w w' : World} (h : Claims c requests w) {i : RequestId} {ph : Phase}
    (hphase : w'.phase = w.phase) (hnow : w'.now = w.now)
    (hslot : ∀ k, k ≠ (requests i).cacheKey c → w'.redis.slot k = w.redis.slot k)
    (hfree : ∀ j d, j ≠ i → (w.phase j).deadline = some d →
      (requests j).cacheKey c ≠ (requests i).cacheKey c)
    (hself : ∀ d, ph.deadline = some d → w'.redis.slot ((requests i).cacheKey c) =
      some ⟨⟨i, processingSentinel⟩, d⟩ ∧ w.now ≤ d)
    (hguard : ph ≠ .unguarded) : Claims c requests (w'.goto i ph) := by
  constructor
  case held =>
    intro j d hj
    rcases goto_phase w' i ph j with ⟨rfl, hph⟩ | ⟨hne, hph⟩
    · rw [hph] at hj
      rw [goto_redis, goto_now, hnow]
      exact hself d hj
    · rw [hph, hphase] at hj
      rw [goto_redis, goto_now, hnow, hslot _ (hfree j d hne hj)]
      exact h.held j d hj
  case claimed =>
    intro j hj hun
    rcases goto_phase w' i ph j with ⟨rfl, hph⟩ | ⟨_, hph⟩
    · exact hguard (hph.symm.trans hun)
    · rw [hph, hphase] at hun
      exact h.claimed j hj hun

theorem afterHandler_deadline (c : Config) (deadline : Nat) (result : Option Response) :
    (afterHandler c deadline result).deadline = some deadline := by
  cases result with
  | none => rfl
  | some r =>
    simp only [afterHandler]
    split <;> rfl

/-- Requests with a claim on the key of another claim are that other request. -/
theorem Claims.others_elsewhere {w : World} (h : Claims c requests w) {i j : RequestId} {d d' : Nat}
    (hi : (w.phase i).deadline = some d) (hne : j ≠ i) (hj : (w.phase j).deadline = some d') :
    (requests j).cacheKey c ≠ (requests i).cacheKey c :=
  fun hkey => hne (h.owner_unique hj hi hkey)

theorem Claims.step {w w' : World} {a : Act} (h : Claims c requests w) (hp : Prompt w a)
    (hs : Idempotency.step c decode requests w a = some w') : Claims c requests w' := by
  cases step_cases hs with
  | tick dt =>
    refine ⟨?_, h.claimed⟩
    intro i d hi
    exact ⟨(h.held i d hi).1, hp i d hi⟩
  | @dispatch i client hph =>
    cases hp
    refine h.goto ?_ ?_
    · intro d hd
      split at hd <;> cases hd
    · intro hg
      rw [hg]
      simp
  | taken hph hget =>
    cases hp
    exact h.goto (fun d hd => by cases hd) (fun _ => by simp [Reply.returned])
  | @claim i reply hph hget =>
    cases hp
    refine h.write rfl rfl (fun k hk => Expiring.set_slot_of_ne hk) ?_ ?_ (by simp [Reply.returned])
    · -- a claim on this key would still be visible
      intro j d _ hj hkey
      obtain ⟨hslot, hle⟩ := h.held j d hj
      rw [hkey] at hslot
      rw [Expiring.get_eq_some.2 ⟨hslot, hle⟩] at hget
      cases hget
    · intro d hd
      cases hd
      exact ⟨Expiring.set_slot_self .., Nat.le_add_right ..⟩
  | get hph => exact h.goto (fun d hd => by cases hd) (fun _ => by simp)
  | @handler i result deadline hph =>
    refine h.goto ?_ ?_
    · intro d hd
      rw [afterHandler_deadline] at hd
      rw [hph]
      exact hd
    · intro _ he
      have := afterHandler_deadline c deadline result
      rw [he] at this
      cases this
  | unguarded hph => exact h.goto (fun d hd => by cases hd) (fun _ => by simp)
  | @store i reply deadline r hph =>
    cases hp
    have hi : (w.phase i).deadline = some deadline := by rw [hph]; rfl
    exact h.write rfl rfl (fun k hk => Expiring.set_slot_of_ne hk)
      (fun j d hne hj => h.others_elsewhere hi hne hj) (fun d hd => by cases hd)
      (by simp [Reply.returned])
  | @release i reply deadline r hph =>
    cases hp
    have hi : (w.phase i).deadline = some deadline := by rw [hph]; rfl
    exact h.write rfl rfl (fun k hk => Expiring.del_slot_of_ne hk)
      (fun j d hne hj => h.others_elsewhere hi hne hj) (fun d hd => by cases hd) (by simp)
  | cancel => exact h.goto (fun d hd => by cases hd) (fun _ => by simp)

theorem Claims.start : Claims c requests {} where
  held := by intro i d hi; cases hi
  claimed := by intro i _ h; cases h

/-! ## Completed answers stay -/

theorem completed_ne_sentinel (decode : List UInt8 → String) (r : Response) :
    completed decode r ≠ processingSentinel := by
  simp [completed, processingSentinel]

theorem now_le {w w' : World} {a : Act} (hs : step c decode requests w a = some w') :
    w.now ≤ w'.now := by
  cases step_cases hs with
  | tick dt => exact Nat.le_add_right ..
  | claim | store | release => simp only [goto_now]; split <;> exact Nat.le_refl _
  | _ => exact Nat.le_refl _

theorem Claims.no_claim {w : World} (h : Claims c requests w) {k : String} {i : RequestId}
    {r : Response} {expireAt : Nat}
    (hslot : w.redis.slot k = some ⟨⟨i, completed decode r⟩, expireAt⟩) {j : RequestId} {d : Nat}
    (hj : (w.phase j).deadline = some d) : (requests j).cacheKey c ≠ k := by
  rintro rfl
  rw [(h.held j d hj).1] at hslot
  simp only [Option.some.injEq, Timed.mk.injEq, Document.mk.injEq] at hslot
  exact completed_ne_sentinel decode r hslot.1.2.symm

/-- A completed answer is not touched before it expires. -/
theorem Claims.keeps {w w' : World} {a : Act} (h : Claims c requests w) (hp : Prompt w a)
    (hs : Idempotency.step c decode requests w a = some w') {k : String} {i : RequestId}
    {r : Response} {expireAt : Nat}
    (hslot : w.redis.slot k = some ⟨⟨i, completed decode r⟩, expireAt⟩) (hnow : w'.now ≤ expireAt) :
    w'.redis.slot k = some ⟨⟨i, completed decode r⟩, expireAt⟩ := by
  have hle := Nat.le_trans (now_le hs) hnow
  cases step_cases hs with
  | @claim j reply hph hget =>
    cases hp
    refine (Expiring.set_slot_of_ne ?_).trans hslot
    rintro rfl
    rw [Expiring.get_eq_some.2 ⟨hslot, hle⟩] at hget
    cases hget
  | @store j reply deadline r' hph =>
    cases hp
    have hj : (w.phase j).deadline = some deadline := by rw [hph]; rfl
    exact (Expiring.set_slot_of_ne (fun he => h.no_claim hslot hj he.symm)).trans hslot
  | @release j reply deadline r' hph =>
    cases hp
    have hj : (w.phase j).deadline = some deadline := by rw [hph]; rfl
    exact (Expiring.del_slot_of_ne (fun he => h.no_claim hslot hj he.symm)).trans hslot
  | _ => exact hslot

theorem Claims.keeps_run {w w' : World} {as : List Act} (h : Claims c requests w)
    (hrun : Run (Idempotency.step c decode requests) Prompt w as w') {k : String} {i : RequestId}
    {r : Response} {expireAt : Nat}
    (hslot : w.redis.slot k = some ⟨⟨i, completed decode r⟩, expireAt⟩) :
    Claims c requests w' ∧
      (w'.now ≤ expireAt → w'.redis.slot k = some ⟨⟨i, completed decode r⟩, expireAt⟩) := by
  refine hrun.invariant (I := fun w => Claims c requests w ∧ (w.now ≤ expireAt →
    w.redis.slot k = some ⟨⟨i, completed decode r⟩, expireAt⟩)) ?_ ⟨h, fun _ => hslot⟩
  rintro s a s' ⟨hc, hk⟩ hp hs
  refine ⟨hc.step hp hs, ?_⟩
  intro hnow
  exact hc.keeps hp hs (hk (Nat.le_trans (now_le hs) hnow)) hnow

/-! ## The protocol -/

def Answer.status : Answer → Json
  | .response r => .num r.statusCode 0
  | .raised => .null
  | .replayed _ statusCode _ _ => statusCode
  | .conflict _ => .num 409 0

/-- The route did not execute, or its answer is too large to keep. -/
def Uncached (c : Config) (result : Option Response) : Prop :=
  ∀ r, result = some r →
    500 ≤ r.statusCode ∨ r.statusCode ∈ uncachedStatuses ∨ c.maxResponseSize < r.body.length

structure Protocol (c : Config) (decode : List UInt8 → String) (requests : RequestId → Request)
    (w : World) : Prop where
  exclusive : ∀ i j, (requests i).guarded = true → (requests j).guarded = true →
    (requests i).cacheKey c = (requests j).cacheKey c →
    (w.phase i).runs = true → (w.phase j).runs = true → i = j
  stored : ∀ i deadline r w', w.phase i = .storing deadline r →
    step c decode requests w (.store i .ok) = some w' →
    w'.redis.get w'.now ((requests i).cacheKey c) =
      some ⟨⟨i, completed decode r⟩, w.now + milliseconds c.ttl⟩
  replayed : ∀ k i r expireAt,
    w.redis.get w.now k = some ⟨⟨i, completed decode r⟩, expireAt⟩ →
    ∀ as w', Run (step c decode requests) Prompt w as w' → w'.now ≤ expireAt →
      (∀ j, (requests j).guarded = true → (requests j).cacheKey c = k → (w'.phase j).runs = false) ∧
      ∀ j w'', (requests j).cacheKey c = k → step c decode requests w' (.get j .ok) = some w'' →
        w''.phase j = .answered (.replayed i (.num r.statusCode 0) (.str (decode r.body))
          (.str r.contentType))
  conflict : ∀ i j deadline w',
    w.redis.get w.now ((requests j).cacheKey c) = some ⟨⟨i, processingSentinel⟩, deadline⟩ →
    step c decode requests w (.get j .ok) = some w' →
    ∃ a, w'.phase j = .answered a ∧ a.status = .num 409 0
  ended : ∀ i deadline result w', w.phase i = .executing deadline → Uncached c result →
    step c decode requests w (.handler i result) = some w' →
    w'.phase i = .releasing deadline result
  free : ∀ i deadline result w', w.phase i = .releasing deadline result →
    step c decode requests w (.release i .ok) = some w' →
    w'.redis.get w'.now ((requests i).cacheKey c) = none ∧
      ∀ j, w'.phase j = .connected → (requests j).cacheKey c = (requests i).cacheKey c →
        ∃ w'', step c decode requests w' (.setNx j .ok) = some w'' ∧ (w''.phase j).runs = true

/-- A guarded request runs the handler with a claim. -/
theorem Claims.runs_claimed {w : World} (h : Claims c requests w) {i : RequestId}
    (hg : (requests i).guarded = true) (hr : (w.phase i).runs = true) :
    ∃ d, (w.phase i).deadline = some d := by
  cases hph : w.phase i with
  | executing d => exact ⟨d, rfl⟩
  | unguarded => exact absurd hph (h.claimed i hg)
  | _ => rw [hph] at hr; cases hr

theorem get_answer {w w' : World} {j : RequestId}
    (hs : step c decode requests w (.get j .ok) = some w') :
    w'.phase j = .answered
      (duplicateAnswer ((w.redis.get w.now ((requests j).cacheKey c)).map Timed.value)) := by
  cases step_cases hs with
  | get _ => exact Function.update_self ..

theorem afterHandler_uncached {deadline : Nat} {result : Option Response}
    (h : Uncached c result) : afterHandler c deadline result = .releasing deadline result := by
  cases result with
  | none => rfl
  | some r =>
    have hno : cacheable c r = false := by
      rcases h r rfl with h | h | h
      · simp [cacheable, Nat.not_lt.2 h]
      · simp [cacheable, h]
      · simp [cacheable, Nat.not_le.2 h]
    simp [afterHandler, hno]

theorem release_slot {w w' : World} {i : RequestId}
    (hs : step c decode requests w (.release i .ok) = some w') :
    w'.redis.slot ((requests i).cacheKey c) = none := by
  cases step_cases hs with
  | release _ => exact Expiring.del_slot_self ..

theorem setNx_claims {w : World} {j : RequestId} (hconn : w.phase j = .connected)
    (hslot : w.redis.slot ((requests j).cacheKey c) = none) :
    ∃ w', step c decode requests w (.setNx j .ok) = some w' ∧ (w'.phase j).runs = true := by
  have hget : w.redis.get w.now ((requests j).cacheKey c) = none := Expiring.get_eq_none hslot
  refine ⟨_, by simp only [step, hconn, hget]; rfl, ?_⟩
  simp [World.goto, Reply.returned, Phase.runs]

theorem Claims.protocol {w : World} (h : Claims c requests w) : Protocol c decode requests w := by
  constructor
  case exclusive =>
    intro i j hi hj hkey hri hrj
    obtain ⟨d, hd⟩ := h.runs_claimed hi hri
    obtain ⟨d', hd'⟩ := h.runs_claimed hj hrj
    exact h.owner_unique hd hd' hkey
  case stored =>
    intro i deadline r w' hph hs
    cases step_cases hs with
    | store hph' =>
      rw [hph] at hph'
      cases hph'
      exact Expiring.get_eq_some.2 ⟨Expiring.set_slot_self .., Nat.le_add_right ..⟩
  case replayed =>
    intro k i r expireAt hget as w' hrun hnow
    obtain ⟨hc, hk⟩ := h.keeps_run hrun (Expiring.get_eq_some.1 hget).1
    have hslot := hk hnow
    refine ⟨?_, ?_⟩
    · intro j hg hkey
      by_contra hr
      obtain ⟨d, hd⟩ := hc.runs_claimed hg (by simpa using hr)
      exact hc.no_claim hslot hd hkey
    · intro j w'' hkey hs
      rw [get_answer hs, hkey, Expiring.get_eq_some.2 ⟨hslot, hnow⟩]
      simp [duplicateAnswer, completed, getD, List.lookup_cons]
  case conflict =>
    intro i j deadline w' hget hs
    refine ⟨_, get_answer hs, ?_⟩
    rw [hget]
    simp [duplicateAnswer, processingSentinel, getD, Answer.status]
  case ended =>
    intro i deadline result w' hph hu hs
    cases step_cases hs with
    | handler hph' =>
      rw [hph] at hph'
      cases hph'
      rw [afterHandler_uncached hu]
      exact Function.update_self ..
    | unguarded hph' => rw [hph] at hph'; cases hph'
  case free =>
    intro i deadline result w' hph hs
    have hslot := release_slot hs
    refine ⟨Expiring.get_eq_none hslot, ?_⟩
    intro j hconn hkey
    exact setNx_claims hconn (by rw [hkey]; exact hslot)

theorem idempotency_protocol (c : Config) (decode : List UInt8 → String)
    (requests : RequestId → Request) (as : List Act) (w : World)
    (h : Run (step c decode requests) Prompt {} as w) : Protocol c decode requests w := by
  have hi : Claims c requests w := h.invariant (fun _ _ _ hi hp hs => hi.step hp hs) .start
  exact hi.protocol

/-! A request, its duplicate while it runs, and its duplicate a day later. -/

def demoRetries (_ : RequestId) : Request := demoRequest "3f2a" "9c1d"

def demoFirst : List Act :=
  [.dispatch 0 true, .setNx 0 .ok, .dispatch 1 true, .setNx 1 .ok, .get 1 .ok,
    .handler 0 (some { statusCode := 201, body := [111, 107] }), .store 0 .ok]

def demoLater : List Act :=
  [.tick 86400000, .dispatch 2 true, .setNx 2 .ok, .get 2 .ok]

def demoStatus (w : World) (i : RequestId) : Json :=
  match w.phase i with
  | .answered a => a.status
  | _ => .null

theorem duplicates_answered :
    ∃ w, Run (step demoService demoDecode demoRetries) Prompt {} (demoFirst ++ demoLater) w ∧
      demoStatus w 1 = .num 409 0 ∧ demoStatus w 2 = .num 201 0 ∧
      Protocol demoService demoDecode demoRetries w := by
  obtain ⟨s, hs, hp⟩ := exec_any (p := fun s =>
      (s.redis.slot ((demoRetries 0).cacheKey demoService)).all
        (fun t => decide (t.value.value ≠ processingSentinel)) &&
      (exec (step demoService demoDecode demoRetries) s demoLater).any
        (fun w => demoStatus w 1 == .num 409 0 && demoStatus w 2 == .num 201 0))
    (show (exec (step demoService demoDecode demoRetries) {} demoFirst).any _ = true
      by decide +kernel)
  rw [Bool.and_eq_true] at hp
  obtain ⟨w, hw, hq⟩ := exec_any hp.2
  simp only [Bool.and_eq_true, beq_iff_eq] at hq
  have hrun₁ : Run (step demoService demoDecode demoRetries) Prompt {} demoFirst s := by
    refine .of_exec_all ?_ hs
    intro a ha _
    simp only [demoFirst, List.mem_cons, List.not_mem_nil, or_false] at ha
    rcases ha with rfl | rfl | rfl | rfl | rfl | rfl | rfl <;> simp [Prompt]
  have hrun₂ : Run (step demoService demoDecode demoRetries) Prompt s demoLater w := by
    refine .of_exec_cons ?_ ?_ hw
    · -- the first request is done: its answer has replaced its claim
      intro i d hd
      have hc : Claims demoService demoRetries s :=
        hrun₁.invariant (fun _ _ _ hi hp hs => hi.step hp hs) .start
      have hslot := (hc.held i d hd).1
      have hne := hp.1
      rw [show (demoRetries 0).cacheKey demoService = (demoRetries i).cacheKey demoService from rfl,
        hslot] at hne
      simp at hne
    · intro a ha _
      simp only [List.mem_cons, List.not_mem_nil, or_false] at ha
      rcases ha with rfl | rfl | rfl <;> simp [Prompt]
  have hrun := hrun₁.append hrun₂
  exact ⟨w, hrun, hq.1, hq.2, idempotency_protocol _ _ _ _ _ hrun⟩

end Idempotency
end Middleware
end TrShared
