import TrShared.Webhooks.Endpoint

/-!
# TrShared.Webhooks.Acknowledgement

What an answer `accepted` or `duplicate` tells the provider: the event is on the stream.

The endpoint claims an event before it publishes it, swallows the exception of a publication that
fails, and never takes a claim back. So the answer says what it should as long as nothing gets
between a claim and its publication (`Carried`): the publication takes effect, the process does not
die in between, and nobody is sent away by a claim whose event is still to be published, or by the
claim of another event with the same key. The invariant is `Backed`: behind every claim there is an
event on the stream or a delivery about to put it there.
-/

namespace TrShared
namespace Webhooks

open Python Machine Events

variable {c : Service} {w w' : World} {a : Act}

/-- An event of that provider and id is on the stream. -/
def Published (c : Service) (stream : List WireEvent) (provider eventId : String) : Prop :=
  ∃ event ∈ stream, event.eventType = receivedType provider ∧
    ∃ eventType payload, event.data = c.lib.dumps (receivedData provider eventId eventType payload)

/-- Whoever was answered `accepted` or `duplicate` has its event published. -/
def Acknowledged (c : Service) (w : World) : Prop :=
  ∀ i provider statusCode r, w.phase i = .answered provider (.result statusCode r) →
    r.status = "accepted" ∨ r.status = "duplicate" → Published c w.stream provider r.eventId

/-- Nothing gets between a claim and its publication. -/
def Carried (c : Service) (w : World) : Act → Prop
  | .claim i client reply => client = true → reply = .ok → ∀ ttl e t, w.phase i = .claiming ttl e →
      w.redis.get w.now (c.key e) = some t →
      t.value.provider = e.provider ∧ t.value.eventId = e.eventId ∧
        ((∀ e', w.phase t.value.delivery ≠ .publishing e') ∨
          Published c w.stream e.provider e.eventId)
  | .publish i reply _ => ∀ e, w.phase i = .publishing e →
      (reply.took = true ∧ oversized c.eventProducer c.lib (publishArgs e) = false) ∨
        Published c w.stream e.provider e.eventId
  | .crash i => ∀ e t, w.phase i = .publishing e → w.redis.get w.now (c.key e) = some t →
      t.value.delivery = i → Published c w.stream e.provider e.eventId
  | _ => True

/-! ## Answers and publications -/

/-- The answer, if it is one, does not say that the event was taken. -/
def Unacknowledged {α : Type} (x : Except Answer α) : Prop :=
  ∀ statusCode result, x ≠ .error (.result statusCode result)

theorem Unacknowledged.bind {α β : Type} {x : Except Answer α} {f : α → Except Answer β}
    (hx : Unacknowledged x) (hf : ∀ v, Unacknowledged (f v)) : Unacknowledged (x >>= f) := by
  intro statusCode result h
  cases x with
  | ok v => exact hf v statusCode result h
  | error answer => cases h; exact hx statusCode result rfl

theorem orRaise_unacknowledged {α : Type} (v : Option α) : Unacknowledged (orRaise v) := by
  intro statusCode result h
  cases v <;> cases h

theorem checkSignature_unacknowledged (cfg : ProviderConfig) (r : Request) :
    Unacknowledged (c.checkSignature cfg r) := by
  refine (orRaise_unacknowledged _).bind ?_
  intro rejected statusCode result h
  cases rejected <;> cases h

theorem event_unacknowledged (cfg : ProviderConfig) (r : Request) (payload : Json) :
    Unacknowledged (c.event cfg r payload) := by
  refine (orRaise_unacknowledged _).bind fun eventId => ?_
  refine (orRaise_unacknowledged _).bind fun eventType => ?_
  refine (orRaise_unacknowledged _).bind fun tenantId => ?_
  intro statusCode result h
  cases h

/-- Before the idempotency check nobody is told that the event was taken. -/
theorem receive_unacknowledged (cfg : ProviderConfig) (r : Request) (rate : RateCheck) :
    Unacknowledged (c.receive cfg r rate) := by
  have hrate : Unacknowledged (checkRate r rate) := by
    intro statusCode result h
    cases rate <;> cases h
  have hparse : Unacknowledged (c.parse r) := by
    intro statusCode result h
    simp only [Service.parse] at h
    split at h <;> cases h
  refine hrate.bind fun _ => ?_
  refine (checkSignature_unacknowledged cfg r).bind fun _ => ?_
  exact hparse.bind (event_unacknowledged cfg r)

theorem Published.append {stream : List WireEvent} {provider eventId : String}
    (h : Published c stream provider eventId) (more : List WireEvent) :
    Published c (stream ++ more) provider eventId := by
  obtain ⟨event, hmem, hevent⟩ := h
  exact ⟨event, List.mem_append_left _ hmem, hevent⟩

theorem published_mono (c : Service) (w : World) (e : WebhookEvent) (reply : Reply)
    (uuid : String) : ∃ more, published c w e reply uuid = w.stream ++ more := by
  simp only [published]
  split
  · split
    · exact ⟨_, rfl⟩
    · exact ⟨[], by simp⟩
  · exact ⟨[], by simp⟩

theorem wireEvent_not_oversized {e : WebhookEvent} {uuid : String} {now : Int}
    (h : oversized c.eventProducer c.lib (publishArgs e) = false) :
    ∃ event, c.eventProducer.wireEvent c.lib (publishArgs e) uuid now = .ok event := by
  have hstrict : missingField (publishArgs e) = none := rfl
  exact ⟨_, by simp only [EventProducer.wireEvent, hstrict, h]; rfl⟩

/-- A publication that takes effect leaves the event on the stream. -/
theorem published_took {e : WebhookEvent} {reply : Reply} {uuid : String}
    (htook : reply.took = true) (hsize : oversized c.eventProducer c.lib (publishArgs e) = false) :
    Published c (published c w e reply uuid) e.provider e.eventId := by
  obtain ⟨event, hevent⟩ :
      ∃ event, c.eventProducer.wireEvent c.lib (publishArgs e) uuid (w.now * 1000) = .ok event :=
    wireEvent_not_oversized hsize
  obtain ⟨-, htype, -, -, hdata, -⟩ := wireEvent_ok hevent
  refine ⟨event, ?_, htype, e.eventType, e.payload, hdata⟩
  simp [published, hevent, htook]

/-! ## The invariant -/

/-- The delivery is about to publish the event of the claim. -/
def Pending (w : World) (claim : Claim) : Prop :=
  ∃ e, w.phase claim.delivery = .publishing e ∧ e.provider = claim.provider ∧
    e.eventId = claim.eventId

/-- Where a delivery stands vouches for a published event. -/
def Phase.Vouched (c : Service) (stream : List WireEvent) : Phase → Prop
  | .dispatching e => Published c stream e.provider e.eventId
  | .answered provider (.result _ r) => Published c stream provider r.eventId
  | _ => True

structure Backed (c : Service) (w : World) : Prop where
  claims : ∀ k t, w.redis.get w.now k = some t →
    k = c.guard.buildKey t.value.provider t.value.eventId ∧
      (Published c w.stream t.value.provider t.value.eventId ∨ Pending w t.value)
  vouched : ∀ i, (w.phase i).Vouched c w.stream

theorem Backed.start : Backed c {} where
  claims := by intro k t h; cases h
  vouched := by intro i; trivial

theorem Backed.acknowledged (h : Backed c w) : Acknowledged c w := by
  intro i provider statusCode r hph _
  have hv := h.vouched i
  rw [hph] at hv
  exact hv

theorem Phase.Vouched.append {stream : List WireEvent} {ph : Phase} (h : ph.Vouched c stream)
    (more : List WireEvent) : ph.Vouched c (stream ++ more) := by
  cases ph with
  | dispatching e => exact Published.append h more
  | answered provider a =>
    cases a with
    | result statusCode r => exact Published.append h more
    | error statusCode message code correlationId => trivial
    | raised => trivial
  | _ => trivial

theorem Pending.goto {claim : Claim} {i : DeliveryId} {ph : Phase} (h : Pending w claim)
    (hi : claim.delivery ≠ i) : Pending (w.goto i ph) claim := by
  obtain ⟨e, hph, he⟩ := h
  refine ⟨e, ?_, he⟩
  rcases goto_phase w i ph claim.delivery with ⟨hd, -⟩ | ⟨-, hsame⟩
  · exact absurd hd hi
  · exact hsame.trans hph

/-- A delivery moves on, and the event of each claim it still had to publish is published. -/
theorem Backed.goto (h : Backed c w) {i : DeliveryId} {ph : Phase}
    (hdone : ∀ k t, w.redis.get w.now k = some t → t.value.delivery = i →
      Pending w t.value → Published c w.stream t.value.provider t.value.eventId)
    (hph : ph.Vouched c w.stream) : Backed c (w.goto i ph) := by
  constructor
  case claims =>
    intro k t hget
    obtain ⟨hk, hback⟩ := h.claims k t hget
    refine ⟨hk, ?_⟩
    rcases hback with hpub | hpend
    · exact .inl hpub
    · by_cases hi : t.value.delivery = i
      · exact .inl (hdone k t hget hi hpend)
      · exact .inr (hpend.goto hi)
  case vouched =>
    intro j
    rcases goto_phase w i ph j with ⟨-, hj⟩ | ⟨-, hj⟩
    · rw [hj]; exact hph
    · rw [hj]; exact h.vouched j

/-- A delivery that is not about to publish has no claim to make good. -/
theorem Backed.pass (h : Backed c w) {i : DeliveryId} {ph : Phase}
    (hidle : ∀ e, w.phase i ≠ .publishing e) (hph : ph.Vouched c w.stream) :
    Backed c (w.goto i ph) := by
  refine h.goto ?_ hph
  rintro k t _ hi ⟨e, he, -⟩
  rw [hi] at he
  exact absurd he (hidle e)

/-- Redis holds fewer keys. -/
theorem Backed.shrink (h : Backed c w) {redis : Expiring String Claim} {now : Nat}
    (hsub : ∀ k t, redis.get now k = some t → w.redis.get w.now k = some t) :
    Backed c { w with redis := redis, now := now } where
  claims k t hget := h.claims k t (hsub k t hget)
  vouched := h.vouched

theorem get_later {redis : Expiring String Claim} {now dt : Nat} {k : String} {t : Timed Claim}
    (h : redis.get (now + dt) k = some t) : redis.get now k = some t := by
  obtain ⟨hslot, hle⟩ := Expiring.get_eq_some.1 h
  exact Expiring.get_eq_some.2 ⟨hslot, by omega⟩

theorem get_del {redis : Expiring String Claim} {now : Nat} {key k : String} {t : Timed Claim}
    (h : (redis.del key).get now k = some t) : redis.get now k = some t := by
  obtain ⟨hslot, hle⟩ := Expiring.get_eq_some.1 h
  by_cases hk : k = key
  · subst hk
    rw [Expiring.del_slot_self] at hslot
    cases hslot
  · rw [Expiring.del_slot_of_ne hk] at hslot
    exact Expiring.get_eq_some.2 ⟨hslot, hle⟩

/-- A claim is written for a delivery that is about to publish. -/
theorem Backed.set (h : Backed c w) {claim : Claim} {ms : Nat} (hpend : Pending w claim) :
    Backed c { w with
      redis := w.redis.set w.now (c.guard.buildKey claim.provider claim.eventId) claim ms } := by
  refine ⟨?_, h.vouched⟩
  intro k t hget
  obtain ⟨hslot, hle⟩ := Expiring.get_eq_some.1 hget
  by_cases hk : k = c.guard.buildKey claim.provider claim.eventId
  · subst hk
    rw [Expiring.set_slot_self] at hslot
    cases hslot
    exact ⟨rfl, .inr hpend⟩
  · rw [Expiring.set_slot_of_ne hk] at hslot
    exact h.claims k t (Expiring.get_eq_some.2 ⟨hslot, hle⟩)

/-- The stream grows. -/
theorem Backed.extend (h : Backed c w) (more : List WireEvent) :
    Backed c { w with stream := w.stream ++ more } := by
  constructor
  case claims =>
    intro k t hget
    obtain ⟨hk, hback⟩ := h.claims k t hget
    exact ⟨hk, hback.imp (fun hpub => hpub.append more) id⟩
  case vouched =>
    intro i
    exact (h.vouched i).append more

theorem Backed.step (h : Backed c w) (hok : Carried c w a) (hs : Webhooks.step c w a = some w') :
    Backed c w' := by
  cases step_cases hs with
  | tick dt => exact h.shrink (fun k t hget => get_later hget)
  | lose key => exact h.shrink (fun k t hget => get_del hget)
  | @taken i r rate cfg e hph hr =>
    exact h.pass (by rw [hph]; simp) trivial
  | @refused i r rate cfg answer hph hr =>
    refine h.pass (by rw [hph]; simp) ?_
    cases answer with
    | result statusCode result =>
      exact absurd hr (receive_unacknowledged cfg r rate statusCode result)
    | error statusCode message code correlationId => trivial
    | raised => trivial
  | @duplicate i ttl e t hph hget =>
    obtain ⟨hprovider, hid, hdone⟩ := hok rfl rfl ttl e t hph hget
    refine h.pass (by rw [hph]; simp) ?_
    -- the claim it was sent away by is backed, and not by a publication to come
    rcases hdone with hno | hpub
    · obtain ⟨-, hpub | ⟨e', hph', -⟩⟩ := h.claims _ t hget
      · rw [hprovider, hid] at hpub
        exact hpub
      · exact absurd hph' (hno e')
    · exact hpub
  | @unclaimed i client reply ttl e hph =>
    exact h.pass (by rw [hph]; simp) trivial
  | @claimed i client reply ttl e ms hph =>
    have hgoto : Backed c (w.goto i
        (.publishing { e with receivedAt := c.lib.isoformat (w.now * 1000) })) :=
      h.pass (by rw [hph]; simp) trivial
    have hpend : Pending (w.goto i
        (.publishing { e with receivedAt := c.lib.isoformat (w.now * 1000) }))
        ⟨i, e.provider, e.eventId⟩ :=
      ⟨_, Function.update_self .., rfl, rfl⟩
    exact hgoto.set hpend
  | @publish i reply uuid e hph =>
    obtain ⟨more, hmore⟩ := published_mono c w e reply uuid
    have hpub : Published c (w.stream ++ more) e.provider e.eventId := by
      rcases hok e hph with ⟨htook, hsize⟩ | hpub
      · rw [← hmore]
        exact published_took htook hsize
      · exact hpub.append more
    rw [hmore]
    refine (h.extend more).goto ?_ hpub
    rintro k t - hi ⟨e', hph', hprovider, hid⟩
    rw [hi] at hph'
    cases hph.symm.trans hph'
    rw [← hprovider, ← hid]
    exact hpub
  | @dispatch i e hph =>
    have hv := h.vouched i
    rw [hph] at hv
    exact h.pass (by rw [hph]; simp) hv
  | crash i =>
    refine h.goto ?_ trivial
    intro k t hget hi hpend
    obtain ⟨e, hph, hprovider, hid⟩ := hpend
    rw [hi] at hph
    have hkey : k = c.key e := by
      rw [(h.claims k t hget).1, Service.key, hprovider, hid]
    subst hkey
    rw [← hprovider, ← hid]
    exact hok e t hph hget hi

theorem acknowledged_published (c : Service) (as : List Act) (w : World)
    (h : Run (step c) (Carried c) {} as w) : Acknowledged c w := by
  have hi : Backed c w := h.invariant (fun _ _ _ hi hok hs => hi.step hok hs) .start
  exact hi.acknowledged

/-! An empty object delivered twice by a provider with the default configuration. -/

def demoDumps : Json → String
  | .obj [("provider", .str provider), ("event_id", .str eventId), ("event_type", .str eventType),
      ("payload", .obj [])] =>
    "\x7b\"provider\": \"" ++ provider ++ "\", \"event_id\": \"" ++ eventId ++
      "\", \"event_type\": \"" ++ eventType ++ "\", \"payload\": \x7b\x7d\x7d"
  | j => demoLib.dumps j

def demoService : Service where
  providerConfigs := [{ name := "bayut" }]
  eventProducer := { sourceService := "lead" }
  lib := { demoLib with dumps := demoDumps }
  loads body := if body = [123, 125] then .value (.obj []) else .invalid
  text _ := "None"
  sha256 _ := "44136fa355b3678a1146ad16f7e8649e94fb4fc21fe77e8310c060f61caaff8a"

def demoRequest : Request := { provider := "bayut", rawBody := [123, 125] }

/-- The delivery, and the same an hour later. -/
def demoRedelivery (reply : Reply) : List Act :=
  [.arrive 0 demoRequest .allowed, .claim 0 true .ok, .publish 0 reply "7d1c", .dispatch 0,
    .tick 3600000, .arrive 1 demoRequest .allowed, .claim 1 true .ok]

def demoStatus (w : World) (i : DeliveryId) : String :=
  match w.phase i with
  | .answered _ (.result _ r) => r.status
  | _ => ""

theorem demoStatus_answered {i : DeliveryId} {status : String} (h : demoStatus w i = status)
    (hne : status ≠ "") : ∃ provider statusCode r,
      w.phase i = .answered provider (.result statusCode r) ∧ r.status = status := by
  simp only [demoStatus] at h
  split at h
  · exact ⟨_, _, _, ‹_›, h⟩
  · exact absurd h.symm hne

/-- `Carried`, decided where nothing was published before. -/
def carriedCheck (c : Service) (w : World) : Act → Bool
  | .claim i _ _ =>
    match w.phase i with
    | .claiming _ e =>
      (w.redis.get w.now (c.key e)).all fun t =>
        t.value.provider == e.provider && t.value.eventId == e.eventId &&
          match w.phase t.value.delivery with
          | .publishing _ => false
          | _ => true
    | _ => true
  | .publish i reply _ =>
    match w.phase i with
    | .publishing e => reply.took && !oversized c.eventProducer c.lib (publishArgs e)
    | _ => true
  | .crash i =>
    match w.phase i with
    | .publishing _ => false
    | _ => true
  | _ => true

theorem carriedCheck_sound (h : carriedCheck c w a = true) : Carried c w a := by
  cases a with
  | claim i client reply =>
    intro _ _ ttl e t hph hget
    simp only [carriedCheck, hph, hget, Option.all_some, Bool.and_eq_true, beq_iff_eq] at h
    refine ⟨h.1.1, h.1.2, .inl ?_⟩
    intro e' he'
    rw [he'] at h
    exact absurd h.2 (by simp)
  | publish i reply uuid =>
    intro e hph
    simp only [carriedCheck, hph, Bool.and_eq_true, Bool.not_eq_true'] at h
    exact .inl h
  | crash i =>
    intro e t hph
    simp only [carriedCheck, hph] at h
    cases h
  | _ => trivial

theorem redelivery_published :
    ∃ w, Run (step demoService) (Carried demoService) {} (demoRedelivery .ok) w ∧
      demoStatus w 0 = "accepted" ∧ demoStatus w 1 = "duplicate" ∧ Acknowledged demoService w := by
  have hx : (exec (Run.guarded (step demoService) (carriedCheck demoService)) {}
      (demoRedelivery .ok)).any
        (fun w => demoStatus w 0 == "accepted" && demoStatus w 1 == "duplicate") = true := by
    decide +kernel
  obtain ⟨w, hw, hp⟩ := exec_any hx
  simp only [Bool.and_eq_true, beq_iff_eq] at hp
  have hrun : Run (step demoService) (Carried demoService) {} (demoRedelivery .ok) w :=
    .of_guarded (I := fun _ => True) (fun _ _ _ _ _ _ => trivial)
      (fun _ _ _ hc => carriedCheck_sound hc) trivial hw
  exact ⟨w, hrun, hp.1, hp.2, acknowledged_published _ _ _ hrun⟩

/-- The first delivery is accepted although Redis refuses the event, and the second is taken for a
duplicate: nothing is ever published. -/
theorem unpublished_acknowledged :
    ¬ ∀ (c : Service) (as : List Act) (w : World), Run (step c) (fun _ _ => True) {} as w →
      Acknowledged c w := by
  intro hall
  have hx : (exec (step demoService) {} (demoRedelivery .refused)).any
      (fun w => w.stream.isEmpty && demoStatus w 0 == "accepted" &&
        demoStatus w 1 == "duplicate") = true := by
    decide +kernel
  obtain ⟨w, hw, hp⟩ := exec_any hx
  simp only [Bool.and_eq_true, beq_iff_eq, List.isEmpty_iff] at hp
  obtain ⟨⟨hstream, -⟩, hduplicate⟩ := hp
  obtain ⟨provider, statusCode, r, hph, hstatus⟩ := demoStatus_answered hduplicate (by decide)
  have hpub := hall demoService _ w (.of_exec_all (fun _ _ _ => trivial) hw) 1 provider statusCode r
    hph (.inr hstatus)
  obtain ⟨event, hmem, -⟩ := hpub
  rw [hstream] at hmem
  cases hmem

end Webhooks
end TrShared
