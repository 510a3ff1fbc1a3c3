import TrShared.Webhooks.Bodies
import TrShared.Webhooks.Endpoint

/-!
# TrShared.Webhooks.OneDelivery

`receive_webhook` is modelled twice: in `Webhooks.Endpoint` with the awaits of any number of deliveries,
over texts without surrogates, and in `Webhooks.Bodies` as one function of any text. Here the first
refines the second.

* `receive_alike`: up to the idempotency check both come to the same answer or to the same event.
* `answered_alike`: over every run, a delivery that is answered has the answer of `receiveWebhook` for its
  request and for what the guard says.
-/

namespace TrShared
namespace Webhooks
namespace OneDelivery

open Python Machine

/-! ## The same request in both modules -/

/-- A field is read alike from both forms of a payload: there is no `get`, no value, or the same text. -/
def SameFields (u : UnicodeData) (str : Json → String) (p : Bodies.Payload) (j : Json) : Prop :=
  ∀ name : String, (Bodies.payloadGet p (text name)).map
      (fun v => (v.filter Bodies.isPresent).map (Bodies.strValue u)) =
    (payloadGet j name).map (fun v => v.map (fun v => text (str v)))

inductive SameLoaded (u : UnicodeData) (str : Json → String) : Loaded → Option Bodies.Payload → Prop where
  | value {j : Json} {p : Bodies.Payload} : SameFields u str p j → SameLoaded u str (.value j) (some p)
  | invalid : SameLoaded u str .invalid none

/-- A request to an endpoint in both modules: the same texts, and library functions that agree on it. -/
structure Alike (s : Service) (cfg : ProviderConfig) (q : Request) (rate : RateCheck) (c : Bodies.Service)
    (i : Fin c.providerConfigs.length) (r : Bodies.Request) : Prop where
  provider : c.provider i = text q.provider
  eventIdFields : (c.config i).eventIdFields = cfg.eventIdFields.map text
  eventTypeFields : (c.config i).eventTypeFields = cfg.eventTypeFields.map text
  secret : (c.config i).secret = text cfg.secret
  dynamicSecret : (c.config i).dynamicSecret = cfg.dynamicSecret
  statusCode : c.responseStatusCode = s.responseStatusCode
  guarded : c.hasGuard = true
  rate : rate = if r.rate.any (fun info => info.isBlocked) then .blocked else .allowed
  correlationId : r.correlationId = q.errorCorrelationId.map text
  verified : (s.verifiers.lookup q.provider).map (fun verify =>
      verify q.rawBody (lowered q.headers) cfg.secret) =
    (c.verifier (c.provider i)).map (fun verify =>
      some (verify r.rawBody r.lowered (c.config i).secret))
  rawBody : r.rawBody = q.rawBody
  clientIp : r.clientIp = text q.clientIp
  loads : SameLoaded c.unicode s.str (s.loads q.rawBody) (c.loads r.rawBody)
  tenant : ∀ j p, s.loads q.rawBody = .value j → c.loads r.rawBody = some p →
    ∃ t, s.tenantId q.provider (lowered q.headers) j = some t ∧
      c.tenantId (c.provider i) r.lowered p = t.map text
  header : r.lowered.get (text "x-correlation-id") =
    ((lowered q.headers).lookup "x-correlation-id").map text
  sha256 : hex (c.sha256 r.rawBody) = text (s.sha256 q.rawBody)

structure SameEvent (e : WebhookEvent) (e' : Bodies.WebhookEvent) : Prop where
  provider : e'.provider = text e.provider
  eventId : e'.eventId = text e.eventId
  eventType : e'.eventType = text e.eventType
  rawBody : e'.rawBody = e.rawBody
  tenantId : e'.tenantId = e.tenantId.map text
  correlationId : e'.correlationId = e.correlationId.map text
  ipAddress : e'.ipAddress = text e.ipAddress

/-- An answer, and what is sent of it. -/
inductive SameAnswer : Answer → Bodies.Outcome → Prop where
  | error {statusCode : Nat} {message code : String} {correlationId : Option String}
      {headers : List (Text × Int)} :
      SameAnswer (.error statusCode message code correlationId)
        (.response ⟨statusCode, .error (text message) (text code) (correlationId.map text), headers⟩)
  | result {statusCode : Nat} {status eventId message : String} :
      SameAnswer (.result statusCode ⟨status, eventId, message⟩)
        (.response ⟨statusCode, .result (text status) (text eventId) (text message), []⟩)
  | raised : SameAnswer .raised .raised

section Receive

variable {s : Service} {cfg : ProviderConfig} {q : Request} {rate : RateCheck} {c : Bodies.Service}
  {i : Fin c.providerConfigs.length} {r : Bodies.Request}

theorem text_eq_nil {t : String} : text t = [] ↔ t = "" :=
  ⟨fun h => text_injective h, fun h => by rw [h]; rfl⟩

theorem extractField_alike {p : Bodies.Payload} {j : Json} (h : SameFields c.unicode s.str p j)
    (names : List String) :
    Bodies.extractField c.unicode p (names.map text) = (s.extractField j names).map text := by
  induction names with
  | nil => rfl
  | cons name names ih =>
    have hname := h name
    rw [List.map_cons, Bodies.extractField, Service.extractField]
    cases hp : Bodies.payloadGet p (text name) with
    | none =>
      cases hj : payloadGet j name with
      | none => rfl
      | some v =>
        rw [hp, hj] at hname
        cases hname
    | some value =>
      cases hj : payloadGet j name with
      | none =>
        rw [hp, hj] at hname
        cases hname
      | some v =>
        rw [hp, hj, Option.map_some, Option.map_some, Option.some.injEq] at hname
        cases value with
        | none =>
          cases v with
          | none => exact ih
          | some v => cases hname
        | some value =>
          cases hvalue : Bodies.isPresent value with
          | true =>
            cases v with
            | none => simp [Option.filter, hvalue] at hname
            | some v =>
              simp only [Option.filter, hvalue, if_true, Option.map_some, Option.some.injEq] at hname
              simp [hvalue, hname]
          | false =>
            cases v with
            | none => simpa [hvalue] using ih
            | some v => simp [Option.filter, hvalue] at hname

theorem checkRate_alike (h : Alike s cfg q rate c i r) :
    (checkRate q rate = .ok () ∧ Bodies.checkRate r = .ok ()) ∨
      ∃ a o, checkRate q rate = .error a ∧ Bodies.checkRate r = .error o ∧ SameAnswer a o := by
  rcases Bodies.checkRate_cases r with hok | ⟨blocked, hblocked⟩
  · have hrate : r.rate.any (fun info => info.isBlocked) = false := by
      unfold Bodies.checkRate at hok
      cases hr : r.rate with
      | none => rfl
      | some info =>
        rw [hr] at hok
        cases hinfo : info.isBlocked with
        | false => simpa using hinfo
        | true =>
          simp only [hinfo, if_true] at hok
          split at hok <;> cases hok
    have hallowed : rate = .allowed := by simpa [hrate] using h.rate
    subst hallowed
    exact .inl ⟨rfl, hok⟩
  · have hrate : r.rate.any (fun info => info.isBlocked) = true := by
      unfold Bodies.checkRate at hblocked
      cases hr : r.rate with
      | none =>
        rw [hr] at hblocked
        cases hblocked
      | some info =>
        rw [hr] at hblocked
        cases hinfo : info.isBlocked with
        | true => simpa using hinfo
        | false =>
          simp only [hinfo, Bool.false_eq_true, if_false] at hblocked
          cases hblocked
    have hrefused : rate = .blocked := by simpa [hrate] using h.rate
    subst hrefused
    refine .inr ⟨_, _, rfl, hblocked, ?_⟩
    rw [Bodies.rateLimited, h.correlationId]
    exact .error

theorem rejects_alike (h : Alike s cfg q rate c i r) : ∃ b, s.rejects cfg q = some b ∧
    c.checkSignature (c.provider i) (c.config i) r =
      if b then .error (Bodies.respond (Bodies.invalidSignature r)) else .ok () := by
  have hverified := h.verified
  unfold Service.rejects Bodies.Service.checkSignature
  cases hv : c.verifier (c.provider i) with
  | none =>
    rw [hv, Option.map_none, Option.map_eq_none_iff] at hverified
    rw [hverified]
    exact ⟨false, rfl, rfl⟩
  | some verify =>
    rw [hv, Option.map_some] at hverified
    obtain ⟨verify', hlookup, heq⟩ := Option.map_eq_some_iff.1 hverified
    have hasked : ((c.config i).secret ≠ [] ∨ (c.config i).dynamicSecret = true) ↔
        (cfg.secret != "" || cfg.dynamicSecret) = true := by
      rw [h.secret, h.dynamicSecret, Bool.or_eq_true, bne_iff_ne, ne_eq, ne_eq, text_eq_nil]
    simp only [hlookup, heq, hasked, Option.map_some]
    by_cases hask : (cfg.secret != "" || cfg.dynamicSecret) = true
    · simp only [hask, true_and]
      cases verify r.rawBody r.lowered (c.config i).secret with
      | true => exact ⟨false, rfl, rfl⟩
      | false => exact ⟨true, rfl, rfl⟩
    · rw [if_neg hask, if_neg (fun hs => hask hs.1)]
      exact ⟨false, rfl, rfl⟩

theorem checkSignature_alike (h : Alike s cfg q rate c i r) :
    (s.checkSignature cfg q = .ok () ∧ c.checkSignature (c.provider i) (c.config i) r = .ok ()) ∨
      ∃ a o, s.checkSignature cfg q = .error a ∧
        c.checkSignature (c.provider i) (c.config i) r = .error o ∧ SameAnswer a o := by
  obtain ⟨b, hrejects, hbodies⟩ := rejects_alike h
  rw [hbodies, Service.checkSignature, hrejects]
  cases b with
  | false => exact .inl ⟨rfl, rfl⟩
  | true =>
    have hinvalid : Bodies.respond (Bodies.invalidSignature r) =
        .response (Bodies.invalidSignature r) := Bodies.respond_error
    refine .inr ⟨.error 401 "Invalid webhook signature" "WEBHOOK_AUTH_001" q.errorCorrelationId, _, rfl,
      rfl, ?_⟩
    rw [hinvalid, Bodies.invalidSignature, h.correlationId]
    exact .error

theorem parse_alike (h : Alike s cfg q rate c i r) :
    (∃ j p, s.parse q = .ok j ∧ c.parse r = .ok p ∧ s.loads q.rawBody = .value j ∧
      c.loads r.rawBody = some p ∧ SameFields c.unicode s.str p j) ∨
      ∃ a o, s.parse q = .error a ∧ c.parse r = .error o ∧ SameAnswer a o := by
  have hloads := h.loads
  unfold Service.parse Bodies.Service.parse
  generalize s.loads q.rawBody = loaded at hloads
  generalize c.loads r.rawBody = payload at hloads
  cases hloads with
  | value hfields => exact .inl ⟨_, _, rfl, rfl, rfl, rfl, hfields⟩
  | invalid =>
    have hinvalid : Bodies.respond (Bodies.invalidJson r) = .response (Bodies.invalidJson r) :=
      Bodies.respond_error
    refine .inr ⟨.error 400 "Invalid JSON payload" "WEBHOOK_VALIDATION_001" q.errorCorrelationId, _, rfl,
      rfl, ?_⟩
    rw [hinvalid, Bodies.invalidJson, h.correlationId]
    exact .error

theorem eventId_alike (h : Alike s cfg q rate c i r) (id : String) :
    c.eventIdOf r (text id) = text (if id = "" then "sha256:" ++ s.sha256 q.rawBody else id) := by
  unfold Bodies.Service.eventIdOf
  rw [h.sha256]
  by_cases hid : id = ""
  · rw [if_pos hid, if_pos (text_eq_nil.2 hid)]
    simp [text, String.toList_append]
  · rw [if_neg hid, if_neg (fun he => hid (text_eq_nil.1 he))]

theorem event_alike (h : Alike s cfg q rate c i r) {j : Json} {p : Bodies.Payload}
    (hj : s.loads q.rawBody = .value j) (hp : c.loads r.rawBody = some p)
    (hfields : SameFields c.unicode s.str p j) :
    (∃ e e', s.event cfg q j = .ok e ∧ c.event (c.provider i) (c.config i) r p = .ok e' ∧
      SameEvent e e') ∨
      (s.event cfg q j = .error .raised ∧
        c.event (c.provider i) (c.config i) r p = .error .raised) := by
  obtain ⟨tenant, htenant, htenant'⟩ := h.tenant j p hj hp
  have hid := extractField_alike hfields cfg.eventIdFields
  have htype := extractField_alike hfields cfg.eventTypeFields
  simp only [Service.event, Bodies.Service.event, Service.eventId, Service.eventType, h.eventIdFields,
    h.eventTypeFields, hid, htype, htenant]
  cases s.extractField j cfg.eventIdFields with
  | none => exact .inr ⟨rfl, rfl⟩
  | some id =>
    cases s.extractField j cfg.eventTypeFields with
    | none => exact .inr ⟨rfl, rfl⟩
    | some type =>
      refine .inl ⟨_, _, rfl, rfl, h.provider, eventId_alike h id, ?_, h.rawBody, htenant', h.header,
        h.clientIp⟩
      simp only [text_eq_nil]
      split
      · rfl
      · rfl

/-- Up to the idempotency check. -/
theorem receive_alike (h : Alike s cfg q rate c i r) :
    (∃ a, s.receive cfg q rate = .error a ∧ (c.receiveWebhook i r).1 = [] ∧
      SameAnswer a (c.receiveWebhook i r).2) ∨
    ∃ e e', s.receive cfg q rate = .ok e ∧ c.receiveWebhook i r = c.handle (c.config i) r e' ∧
      SameEvent e e' := by
  simp only [Service.receive, Bodies.Service.receiveWebhook, Bodies.Service.check]
  rcases checkRate_alike h with ⟨hrate, hrate'⟩ | ⟨a, o, hrate, hrate', hsame⟩
  · rw [hrate, hrate']
    rcases checkSignature_alike h with ⟨hsign, hsign'⟩ | ⟨a, o, hsign, hsign', hsame⟩
    · rcases parse_alike h with ⟨j, p, hparse, hparse', hj, hp, hfields⟩ | ⟨a, o, hparse, hparse', hsame⟩
      · rcases event_alike h hj hp hfields with ⟨e, e', hevent, hevent', hsame⟩ | ⟨hevent, hevent'⟩
        · refine .inr ⟨e, e', ?_, ?_, hsame⟩
          · simp only [hsign, hparse, hevent, bind, Except.bind]
          · simp only [hsign', hparse', hevent', bind, Except.bind]
        · simp only [hsign, hsign', hparse, hparse', hevent, hevent', bind, Except.bind]
          exact .inl ⟨_, rfl, trivial, .raised⟩
      · simp only [hsign, hsign', hparse, hparse', bind, Except.bind]
        exact .inl ⟨a, rfl, trivial, hsame⟩
    · simp only [hsign, hsign', bind, Except.bind]
      exact .inl ⟨a, rfl, trivial, hsame⟩
  · rw [hrate, hrate']
    exact .inl ⟨a, rfl, rfl, hsame⟩

/-- The body `[]` at an endpoint of both modules. -/
example : Alike
    { providerConfigs := [{ name := "bayut" }], eventProducer := { sourceService := "crm" }
      lib := demoLib, loads := fun _ => .value (.arr []), text := fun _ => "[]"
      sha256 := fun _ => "" }
    { name := "bayut" } { provider := "bayut", rawBody := [91, 93] } .allowed Bodies.listService
    ⟨0, by decide⟩ Bodies.listRequest where
  provider := rfl
  eventIdFields := rfl
  eventTypeFields := rfl
  secret := rfl
  dynamicSecret := rfl
  statusCode := rfl
  guarded := rfl
  rate := rfl
  correlationId := rfl
  verified := rfl
  rawBody := rfl
  clientIp := rfl
  loads := .value (fun _ => rfl)
  tenant _ _ _ _ := ⟨none, rfl, rfl⟩
  header := rfl
  sha256 := rfl

/-- The answers to an event. -/
theorem handle_alike (h : Alike s cfg q rate c i r) {e : WebhookEvent} {e' : Bodies.WebhookEvent}
    (hid : e'.eventId = text e.eventId) :
    SameAnswer (if r.isDuplicate then duplicateAnswer e else acceptedAnswer s e)
      (c.handle (c.config i) r e').2 := by
  have hencodable : encodable e'.eventId = true := by rw [hid, text_encodable]
  unfold Bodies.Service.handle
  rw [h.guarded]
  cases r.isDuplicate with
  | true =>
    simp only [and_self, if_true, Bodies.respond_duplicate, hencodable]
    rw [hid]
    exact .result
  | false =>
    simp only [Bool.false_eq_true, and_false, if_false, Bodies.respond_accepted, hencodable, if_true]
    rw [hid, Bodies.accepted, h.statusCode]
    exact .result

end Receive

/-! ## Every run -/

/-- What a delivery has come to, of the request that it arrived with. -/
def Concludes (s : Service) (acts : List Act) (k : DeliveryId) (ends : Service → ProviderConfig → Request →
    RateCheck → Prop) : Prop :=
  ∃ q rate cfg, .arrive k q rate ∈ acts ∧ s.config q.provider = some cfg ∧ ends s cfg q rate

/-- The event of the request, as the delivery has it. -/
def Holds (e : WebhookEvent) (s : Service) (cfg : ProviderConfig) (q : Request) (rate : RateCheck) : Prop :=
  ∃ e₀, s.receive cfg q rate = .ok e₀ ∧ e₀.eventId = e.eventId

def Answers (a : Answer) (s : Service) (cfg : ProviderConfig) (q : Request) (rate : RateCheck) : Prop :=
  s.receive cfg q rate = .error a ∨
    ∃ e, s.receive cfg q rate = .ok e ∧ (a = duplicateAnswer e ∨ a = acceptedAnswer s e)

def Follows (s : Service) (acts : List Act) (k : DeliveryId) : Phase → Prop
  | .idle | .crashed => True
  | .claiming _ e | .publishing e | .dispatching e => Concludes s acts k (Holds e)
  | .answered _ a => Concludes s acts k (Answers a)

section Runs

variable {s : Service} {acts : List Act} {k : DeliveryId} {w w' : World}

theorem Concludes.later {ends : Service → ProviderConfig → Request → RateCheck → Prop} {a : Act}
    (h : Concludes s acts k ends) : Concludes s (acts ++ [a]) k ends := by
  obtain ⟨q, rate, cfg, hq, hcfg, he⟩ := h
  exact ⟨q, rate, cfg, List.mem_append_left _ hq, hcfg, he⟩

theorem Follows.later {ph : Phase} {a : Act} (h : Follows s acts k ph) : Follows s (acts ++ [a]) k ph := by
  cases ph with
  | idle => trivial
  | crashed => trivial
  | claiming ttl e => exact Concludes.later h
  | publishing e => exact Concludes.later h
  | dispatching e => exact Concludes.later h
  | answered p a => exact Concludes.later h

/-- An event that is held is answered as a duplicate or as accepted. -/
theorem answers_of_holds {e : WebhookEvent} {a : Answer} (h : Concludes s acts k (Holds e))
    (ha : a = duplicateAnswer e ∨ a = acceptedAnswer s e) : Concludes s acts k (Answers a) := by
  obtain ⟨q, rate, cfg, hq, hcfg, e₀, he, hid⟩ := h
  refine ⟨q, rate, cfg, hq, hcfg, .inr ⟨e₀, he, ?_⟩⟩
  simpa only [duplicateAnswer, acceptedAnswer, hid] using ha

theorem follows_step {a : Act} (h : ∀ k, Follows s acts k (w.phase k)) (hs : step s w a = some w') :
    ∀ k, Follows s (acts ++ [a]) k (w'.phase k) := by
  have hgoto : ∀ (w₁ : World) (j : DeliveryId) (ph : Phase), w₁.phase = w.phase →
      Follows s (acts ++ [a]) j ph → ∀ k, Follows s (acts ++ [a]) k ((w₁.goto j ph).phase k) := by
    intro w₁ j ph hphase hph k
    rcases goto_phase w₁ j ph k with ⟨rfl, hk⟩ | ⟨_, hk⟩
    · rw [hk]
      exact hph
    · rw [hk, hphase]
      exact (h k).later
  cases step_cases hs with
  | tick dt => exact fun k => (h k).later
  | lose key => exact fun k => (h k).later
  | crash j => exact hgoto w j .crashed rfl trivial
  | @taken j q rate cfg e hph hr hcfg =>
    exact hgoto w j _ rfl ⟨q, rate, cfg, List.mem_append_right _ List.mem_cons_self, hcfg, e, hr, rfl⟩
  | @refused j q rate cfg a hph hr hcfg =>
    exact hgoto w j _ rfl ⟨q, rate, cfg, List.mem_append_right _ List.mem_cons_self, hcfg, .inl hr⟩
  | @duplicate j ttl e t hph hget =>
    have hj := h j
    rw [hph] at hj
    exact hgoto w j _ rfl (answers_of_holds (Concludes.later hj) (.inl rfl))
  | @unclaimed j client reply ttl e hph =>
    have hj := h j
    rw [hph] at hj
    exact hgoto w j _ rfl (Concludes.later hj)
  | @claimed j client reply ttl e ms hph =>
    have hj := h j
    rw [hph] at hj
    exact hgoto _ j _ rfl (Concludes.later hj)
  | @publish j reply uuid e hph =>
    have hj := h j
    rw [hph] at hj
    exact hgoto _ j _ rfl (Concludes.later hj)
  | @dispatch j e hph =>
    have hj := h j
    rw [hph] at hj
    exact hgoto w j _ rfl (answers_of_holds (Concludes.later hj) (.inr rfl))

/-- Over every run of any deliveries: one that is answered has the answer that `receiveWebhook` gives to
the request it arrived with, for one of the answers of the guard. -/
theorem answered_alike {ok : World → Act → Prop} {p : String} {a : Answer}
    (hrun : Run (step s) ok {} acts w) (hk : w.phase k = .answered p a) :
    ∃ q rate cfg, .arrive k q rate ∈ acts ∧ s.config q.provider = some cfg ∧
      ∀ (c : Bodies.Service) (i : Fin c.providerConfigs.length) (r : Bodies.Request),
        Alike s cfg q rate c i r →
        ∃ duplicate, SameAnswer a (c.receiveWebhook i { r with isDuplicate := duplicate }).2 := by
  have hfollows : ∀ k, Follows s acts k (w.phase k) :=
    hrun.along (I := fun acts w => ∀ k, Follows s acts k (w.phase k))
      (fun _ _ _ _ _ hi _ hs => follows_step hi hs) (fun k => show Follows s [] k .idle from trivial)
  have hconcludes := hfollows k
  rw [hk] at hconcludes
  obtain ⟨q, rate, cfg, hq, hcfg, hanswers⟩ := hconcludes
  refine ⟨q, rate, cfg, hq, hcfg, fun c i r h => ?_⟩
  -- what the guard says is not part of the request
  have hguard : ∀ duplicate, Alike s cfg q rate c i { r with isDuplicate := duplicate } :=
    fun duplicate => { h with }
  rcases hanswers with hreceived | ⟨e, hreceived, ha⟩
  · rcases receive_alike (hguard false) with ⟨a', ha', _, hsame⟩ | ⟨e, e', he, _, _⟩
    · rw [hreceived] at ha'
      cases ha'
      exact ⟨false, hsame⟩
    · rw [hreceived] at he
      cases he
  · have hduplicate : ∀ duplicate, SameAnswer (if duplicate then duplicateAnswer e else acceptedAnswer s e)
        (c.receiveWebhook i { r with isDuplicate := duplicate }).2 := by
      intro duplicate
      rcases receive_alike (hguard duplicate) with ⟨a', ha', _, _⟩ | ⟨e₁, e', he, hhandle, hsame⟩
      · rw [hreceived] at ha'
        cases ha'
      · rw [hreceived] at he
        cases he
        rw [hhandle]
        exact handle_alike (hguard duplicate) hsame.eventId
    rcases ha with rfl | rfl
    · exact ⟨true, hduplicate true⟩
    · exact ⟨false, hduplicate false⟩

end Runs

end OneDelivery
end Webhooks
end TrShared
