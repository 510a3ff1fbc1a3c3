import TrShared.Middleware.Idempotency

/-!
# TrShared.Middleware.IdempotencyIsolation

Which requests share a cache key, and so each other's stored responses.

`_build_key` joins the tenant and the key of the client with `":"` and leaves an empty tenant out,
and both strings may contain `":"`. `buildKey_eq_iff`: two pairs have one cache key exactly when
they are equal or `Collide`. `isolated_iff`: these are also exactly the pairs of requests of which
one can be answered with what the other one stored.
-/

namespace TrShared
namespace Middleware
namespace Idempotency

open Python Machine

variable {c : Config} {decode : List UInt8 → String} {requests : RequestId → Request}

/-! ## Cache keys -/

/-- What the key says about tenant and client key. -/
def keySuffix (tenant key : String) : String := if tenant = "" then key else tenant ++ ":" ++ key

def keyPrefix (serviceName : String) : String :=
  if serviceName = "" then "idempotency:" else serviceName ++ ":idempotency:"

theorem buildKey_eq {serviceName tenant key : String} (hkey : key ≠ "") :
    buildKey serviceName tenant key = keyPrefix serviceName ++ keySuffix tenant key := by
  by_cases hs : serviceName = ""
  · by_cases ht : tenant = ""
    · simp [buildKey, keyPrefix, keySuffix, join, hs, ht, hkey]
    · simp [buildKey, keyPrefix, keySuffix, join, hs, ht, hkey]
  · by_cases ht : tenant = ""
    · simp [buildKey, keyPrefix, keySuffix, join, hs, ht, hkey, ← String.toList_inj]
    · simp [buildKey, keyPrefix, keySuffix, join, hs, ht, hkey, ← String.toList_inj]

/-- The first pair reads a colon later than the second one, or has no tenant at all. -/
def Shifted (tenant₁ key₁ tenant₂ key₂ : String) : Prop :=
  (tenant₁ ≠ "" ∧ ∃ s, tenant₂ = tenant₁ ++ ":" ++ s ∧ key₁ = s ++ ":" ++ key₂) ∨
    (tenant₁ = "" ∧ tenant₂ ≠ "" ∧ key₁ = tenant₂ ++ ":" ++ key₂)

def Collide (tenant₁ key₁ tenant₂ key₂ : String) : Prop :=
  Shifted tenant₁ key₁ tenant₂ key₂ ∨ Shifted tenant₂ key₂ tenant₁ key₁

/-- A colon that stands in both texts, where the second tenant is the longer one. -/
theorem colon_rest {t₁ k₁ t₂ k₂ s : List Char} (ht : t₂ = t₁ ++ s) (hk : ':' :: k₁ = s ++ ':' :: k₂) :
    (t₁ = t₂ ∧ k₁ = k₂) ∨ ∃ s, t₂ = t₁ ++ ':' :: s ∧ k₁ = s ++ ':' :: k₂ := by
  cases s with
  | nil =>
    rw [List.append_nil] at ht
    exact .inl ⟨ht.symm, (List.cons.inj hk).2⟩
  | cons x s =>
    simp only [List.cons_append, List.cons.injEq] at hk
    obtain ⟨rfl, hk⟩ := hk
    exact .inr ⟨s, ht, hk⟩

/-- Two texts of the form `tenant:key` are equal. -/
theorem colon_split {t₁ k₁ t₂ k₂ : List Char} (h : t₁ ++ ':' :: k₁ = t₂ ++ ':' :: k₂) :
    (t₁ = t₂ ∧ k₁ = k₂) ∨ (∃ s, t₂ = t₁ ++ ':' :: s ∧ k₁ = s ++ ':' :: k₂) ∨
      ∃ s, t₁ = t₂ ++ ':' :: s ∧ k₂ = s ++ ':' :: k₁ := by
  rcases List.append_eq_append_iff.1 h with ⟨s, ht, hk⟩ | ⟨s, ht, hk⟩
  · rcases colon_rest ht hk with heq | hlonger
    · exact .inl heq
    · exact .inr (.inl hlonger)
  · rcases colon_rest ht hk with ⟨htenant, hkey⟩ | hlonger
    · exact .inl ⟨htenant.symm, hkey.symm⟩
    · exact .inr (.inr hlonger)

theorem toList_colon (tenant key : String) :
    (tenant ++ ":" ++ key).toList = tenant.toList ++ ':' :: key.toList := by
  simp

theorem shifted_of_split {t₁ k₁ t₂ k₂ : String} {s : List Char} (h₁ : t₁ ≠ "")
    (ht : t₂.toList = t₁.toList ++ ':' :: s) (hk : k₁.toList = s ++ ':' :: k₂.toList) :
    Shifted t₁ k₁ t₂ k₂ := by
  refine .inl ⟨h₁, String.ofList s, ?_, ?_⟩
  · rw [← String.toList_inj, toList_colon, String.toList_ofList, ht]
  · rw [← String.toList_inj, toList_colon, String.toList_ofList, hk]

theorem keySuffix_eq_iff {t₁ k₁ t₂ k₂ : String} :
    keySuffix t₁ k₁ = keySuffix t₂ k₂ ↔ (t₁ = t₂ ∧ k₁ = k₂) ∨ Collide t₁ k₁ t₂ k₂ := by
  have hforward : ∀ {t₁ k₁ t₂ k₂ : String}, Shifted t₁ k₁ t₂ k₂ →
      keySuffix t₁ k₁ = keySuffix t₂ k₂ := by
    rintro t₁ k₁ t₂ k₂ (⟨h₁, s, rfl, rfl⟩ | ⟨rfl, h₂, rfl⟩)
    · have h₂ : t₁ ++ ":" ++ s ≠ "" := by
        intro he
        have := congrArg String.toList he
        simp at this
      rw [keySuffix, keySuffix, if_neg h₁, if_neg h₂, ← String.toList_inj]
      simp
    · simp [keySuffix, h₂]
  constructor
  · intro h
    by_cases h₁ : t₁ = ""
    · by_cases h₂ : t₂ = ""
      · left
        simpa [keySuffix, h₁, h₂] using h
      · right
        exact .inl (.inr ⟨h₁, h₂, by simpa [keySuffix, h₁, h₂] using h⟩)
    · by_cases h₂ : t₂ = ""
      · right
        exact .inr (.inr ⟨h₂, h₁, by simpa [keySuffix, h₁, h₂, eq_comm] using h⟩)
      · rw [keySuffix, keySuffix, if_neg h₁, if_neg h₂, ← String.toList_inj, toList_colon,
          toList_colon] at h
        rcases colon_split h with ⟨ht, hk⟩ | ⟨s, ht, hk⟩ | ⟨s, ht, hk⟩
        · exact .inl ⟨String.toList_inj.1 ht, String.toList_inj.1 hk⟩
        · exact .inr (.inl (shifted_of_split h₁ ht hk))
        · exact .inr (.inr (shifted_of_split h₂ ht hk))
  · rintro (⟨rfl, rfl⟩ | h | h)
    · rfl
    · exact hforward h
    · exact (hforward h).symm

theorem buildKey_eq_iff {serviceName t₁ k₁ t₂ k₂ : String} (h₁ : k₁ ≠ "") (h₂ : k₂ ≠ "") :
    buildKey serviceName t₁ k₁ = buildKey serviceName t₂ k₂ ↔
      (t₁ = t₂ ∧ k₁ = k₂) ∨ Collide t₁ k₁ t₂ k₂ := by
  rw [buildKey_eq h₁, buildKey_eq h₂, String.append_right_inj, keySuffix_eq_iff]

/-- A pair does not collide with itself. -/
theorem not_collide_self {t k : String} : ¬ Collide t k t k := by
  have hlen : ∀ {t s : String}, t ≠ t ++ ":" ++ s := by
    intro t s he
    have := congrArg (fun x => x.toList.length) he
    simp at this
  rintro (h | h) <;> rcases h with ⟨_, s, ht, _⟩ | ⟨h₁, h₂, _⟩
  · exact hlen ht
  · exact h₂ h₁
  · exact hlen ht
  · exact h₂ h₁

/-! ## Who is answered with whose response -/

@[simp] theorem duplicateAnswer_completed (i : RequestId) (decode : List UInt8 → String)
    (r : Response) : duplicateAnswer (some ⟨i, completed decode r⟩) =
      .replayed i (.num r.statusCode 0) (.str (decode r.body)) (.str r.contentType) := by
  simp [duplicateAnswer, completed, getD, List.lookup_cons]

theorem duplicateAnswer_replayed {d : Option Document} {i : RequestId} {sc b ct : Json}
    (h : duplicateAnswer d = .replayed i sc b ct) : ∃ doc, d = some doc ∧ doc.writer = i := by
  cases d with
  | none => cases h
  | some doc =>
    refine ⟨doc, rfl, ?_⟩
    simp only [duplicateAnswer] at h
    split at h
    · split at h
      · split at h
        · cases h; rfl
        · cases h
      · cases h
    · cases h

/-- A document is under the cache key of the request that wrote it. -/
structure Written (c : Config) (requests : RequestId → Request) (w : World) : Prop where
  slot : ∀ k t, w.redis.slot k = some t → (requests t.value.writer).cacheKey c = k
  replay : ∀ j i sc b ct, w.phase j = .answered (.replayed i sc b ct) →
    (requests i).cacheKey c = (requests j).cacheKey c

theorem Written.goto {w w' : World} (h : Written c requests w) {i : RequestId} {ph : Phase}
    (hslot : ∀ k t, w'.redis.slot k = some t → (requests t.value.writer).cacheKey c = k)
    (hphase : w'.phase = w.phase)
    (hnew : ∀ j sc b ct, ph = .answered (.replayed j sc b ct) →
      (requests j).cacheKey c = (requests i).cacheKey c) : Written c requests (w'.goto i ph) := by
  refine ⟨hslot, ?_⟩
  intro j i' sc b ct hj
  rcases goto_phase w' i ph j with ⟨rfl, he⟩ | ⟨_, he⟩
  · exact hnew i' sc b ct (he.symm.trans hj)
  · rw [he, hphase] at hj
    exact h.replay j i' sc b ct hj

theorem Written.set {w : World} (h : Written c requests w) {i : RequestId} {now ttl : Nat}
    {value : Json} :
    ∀ k t, (w.redis.set now ((requests i).cacheKey c) ⟨i, value⟩ ttl).slot k = some t →
      (requests t.value.writer).cacheKey c = k := by
  intro k t ht
  by_cases hk : k = (requests i).cacheKey c
  · subst hk
    rw [Expiring.set_slot_self] at ht
    cases ht
    rfl
  · rw [Expiring.set_slot_of_ne hk] at ht
    exact h.slot k t ht

theorem Written.del {w : World} (h : Written c requests w) {k' : String} :
    ∀ k t, (w.redis.del k').slot k = some t → (requests t.value.writer).cacheKey c = k := by
  intro k t ht
  by_cases hk : k = k'
  · subst hk
    rw [Expiring.del_slot_self] at ht
    cases ht
  · rw [Expiring.del_slot_of_ne hk] at ht
    exact h.slot k t ht

theorem finalAnswer_fresh {r : Option Response} {i : RequestId} {sc b ct : Json} :
    finalAnswer r ≠ .replayed i sc b ct := by
  cases r <;> simp [finalAnswer]

theorem Written.step {w w' : World} {a : Act} (h : Written c requests w)
    (hs : Idempotency.step c decode requests w a = some w') : Written c requests w' := by
  cases step_cases hs with
  | tick dt => exact ⟨h.slot, h.replay⟩
  | dispatch _ =>
    refine h.goto h.slot rfl ?_
    intro j sc b ct he
    split at he <;> cases he
  | taken _ _ =>
    refine h.goto h.slot rfl ?_
    intro j sc b ct he
    split at he <;> cases he
  | claim _ _ =>
    refine h.goto ?_ (by split <;> rfl) ?_
    · split
      · exact h.set
      · exact h.slot
    · intro j sc b ct he
      split at he <;> cases he
  | @get i reply _ =>
    refine h.goto h.slot rfl ?_
    intro j sc b ct he
    simp only [Phase.answered.injEq] at he
    split at he
    · obtain ⟨doc, hdoc, rfl⟩ := duplicateAnswer_replayed he
      obtain ⟨t, ht, rfl⟩ := Option.map_eq_some_iff.1 hdoc
      exact h.slot _ t (Expiring.get_eq_some.1 ht).1
    · cases he
  | @handler i result deadline _ =>
    refine h.goto h.slot rfl ?_
    intro j sc b ct he
    cases result with
    | none => cases he
    | some r =>
      simp only [afterHandler] at he
      split at he <;> cases he
  | unguarded _ =>
    refine h.goto h.slot rfl ?_
    intro j sc b ct he
    simp only [Phase.answered.injEq] at he
    exact absurd he finalAnswer_fresh
  | store _ =>
    refine h.goto ?_ (by split <;> rfl) ?_
    · split
      · exact h.set
      · exact h.slot
    · intro j sc b ct he
      split at he <;> cases he
  | release _ =>
    refine h.goto ?_ (by split <;> rfl) ?_
    · split
      · exact h.del
      · exact h.slot
    · intro j sc b ct he
      simp only [Phase.answered.injEq] at he
      exact absurd he finalAnswer_fresh
  | cancel =>
    refine h.goto h.slot rfl ?_
    intro j sc b ct he
    cases he

theorem Written.start : Written c requests {} where
  slot := by intro k t ht; cases ht
  replay := by intro j i sc b ct h; cases h

/-- In every run, a request answered with what `i` stored is of the tenant and key of `i`. -/
def Isolated (c : Config) (decode : List UInt8 → String) (requests : RequestId → Request)
    (i j : RequestId) : Prop :=
  ∀ as w sc b ct, Run (step c decode requests) (fun _ _ => True) {} as w →
    w.phase j = .answered (.replayed i sc b ct) →
    (requests i).tenantId = (requests j).tenantId ∧
      (requests i).idempotencyKey = (requests j).idempotencyKey

theorem guarded_key {r : Request} (h : r.guarded = true) : r.idempotencyKey ≠ "" := by
  simp only [Request.guarded, Bool.and_eq_true] at h
  simpa using h.2

/-- `i` is handled with `r`, then `j` comes. -/
def replaySchedule (r : Response) (i j : RequestId) : List Act :=
  [.dispatch i true, .setNx i .ok, .handler i (some r), .store i .ok,
    .dispatch j true, .setNx j .ok, .get j .ok]

/-- Two requests with one cache key: the second one gets what the first one stored. -/
theorem replay_of_cacheKey (decode : List UInt8 → String) {i j : RequestId} {r : Response}
    (hne : j ≠ i) (hr : cacheable c r = true) (hi : (requests i).guarded = true)
    (hj : (requests j).guarded = true)
    (hkey : (requests i).cacheKey c = (requests j).cacheKey c) :
    ∃ w, Run (step c decode requests) (fun _ _ => True) {} (replaySchedule r i j) w ∧
      w.phase j = .answered (.replayed i (.num r.statusCode 0) (.str (decode r.body))
        (.str r.contentType)) := by
  have hne' : i ≠ j := fun h => hne h.symm
  let w₁ : World := ({} : World).goto i .connected
  let w₂ := (w₁.claim i ((requests i).cacheKey c)).goto i (.executing (0 + milliseconds 300))
  let w₃ := w₂.goto i (.storing (0 + milliseconds 300) r)
  let w₄ := (w₃.complete c decode i ((requests i).cacheKey c) r).goto i (.answered (.response r))
  let w₅ := w₄.goto j .connected
  let w₆ := w₅.goto j .duplicate
  have hget : w₄.redis.get 0 ((requests j).cacheKey c) =
      some ⟨⟨i, completed decode r⟩, 0 + milliseconds c.ttl⟩ := by
    rw [← hkey, Expiring.get_eq_some]
    exact ⟨Expiring.set_slot_self .., Nat.zero_le _⟩
  have h₁ : step c decode requests {} (.dispatch i true) = some w₁ := by simp [step, hi, w₁]
  have h₂ : step c decode requests w₁ (.setNx i .ok) = some w₂ := by
    simp [step, w₁, w₂, World.goto, Expiring.get, Reply.took, Reply.returned, processingTtlSeconds]
  have h₃ : step c decode requests w₂ (.handler i (some r)) = some w₃ := by
    simp [step, w₂, w₃, World.goto, afterHandler, hr]
  have h₄ : step c decode requests w₃ (.store i .ok) = some w₄ := by
    simp [step, w₃, w₄, World.goto, Reply.took, Reply.returned]
  have h₅ : step c decode requests w₄ (.dispatch j true) = some w₅ := by
    have hph : w₄.phase j = .arrived := by
      simp [w₄, w₃, w₂, w₁, World.goto, World.complete, World.claim, hne]
    simp [step, hph, hj, w₅]
  have h₆ : step c decode requests w₅ (.setNx j .ok) = some w₆ := by
    have hph : w₅.phase j = .connected := by simp [w₅, World.goto]
    have hget' : w₅.redis.get w₅.now ((requests j).cacheKey c) =
        some ⟨⟨i, completed decode r⟩, 0 + milliseconds c.ttl⟩ := hget
    simp [step, hph, hget', Reply.returned, w₆]
  have h₇ : step c decode requests w₆ (.get j .ok) =
      some (w₆.goto j (.answered (duplicateAnswer (some ⟨i, completed decode r⟩)))) := by
    have hph : w₆.phase j = .duplicate := by simp [w₆, World.goto]
    have hget' : w₆.redis.get w₆.now ((requests j).cacheKey c) =
        some ⟨⟨i, completed decode r⟩, 0 + milliseconds c.ttl⟩ := hget
    simp [step, hph, hget', Reply.returned]
  refine ⟨_, .cons trivial h₁ (.cons trivial h₂ (.cons trivial h₃ (.cons trivial h₄ (.cons trivial h₅
    (.cons trivial h₆ (.single trivial h₇)))))), ?_⟩
  simp [World.goto, duplicateAnswer_completed]

/-- An empty answer is stored. -/
def emptyAnswer : Response := { statusCode := 200, body := [] }

theorem emptyAnswer_cacheable (c : Config) : cacheable c emptyAnswer = true := by
  simp [cacheable, emptyAnswer, uncachedStatuses]

theorem isolated_iff (c : Config) (decode : List UInt8 → String) (requests : RequestId → Request)
    (i j : RequestId) (hne : j ≠ i) (hi : (requests i).guarded = true)
    (hj : (requests j).guarded = true) :
    (Isolated c decode requests i j ↔
      ¬ Collide (requests i).tenantId (requests i).idempotencyKey (requests j).tenantId
        (requests j).idempotencyKey) ∧
    (((requests i).cacheKey c = (requests j).cacheKey c →
        (requests i).tenantId = (requests j).tenantId ∧
          (requests i).idempotencyKey = (requests j).idempotencyKey) ↔
      ¬ Collide (requests i).tenantId (requests i).idempotencyKey (requests j).tenantId
        (requests j).idempotencyKey) := by
  have hiff : (requests i).cacheKey c = (requests j).cacheKey c ↔ _ :=
    buildKey_eq_iff (guarded_key hi) (guarded_key hj)
  have hinj : (((requests i).cacheKey c = (requests j).cacheKey c →
        (requests i).tenantId = (requests j).tenantId ∧
          (requests i).idempotencyKey = (requests j).idempotencyKey) ↔
      ¬ Collide (requests i).tenantId (requests i).idempotencyKey (requests j).tenantId
        (requests j).idempotencyKey) := by
    constructor
    · intro h hc
      obtain ⟨ht, hk⟩ := h (hiff.2 (.inr hc))
      rw [ht, hk] at hc
      exact not_collide_self hc
    · intro hc h
      exact (hiff.1 h).resolve_right hc
  refine ⟨⟨?_, ?_⟩, hinj⟩
  · intro h
    refine hinj.1 ?_
    intro hkey
    obtain ⟨w, hrun, hphase⟩ := replay_of_cacheKey decode hne (emptyAnswer_cacheable c) hi hj hkey
    exact h _ w _ _ _ hrun hphase
  · intro hc as w sc b ct hrun hphase
    have hw : Written c requests w := hrun.invariant (fun _ _ _ hi _ hs => hi.step hs) .start
    exact hinj.2 hc (hw.replay j i sc b ct hphase)

def demoRequest (tenant key : String) : Request :=
  { method := "POST", headers := [("X-Tenant-ID", tenant), ("X-Idempotency-Key", key)] }

def demoPair (first second : Request) (i : RequestId) : Request := if i = 0 then first else second

def demoService : Config := { serviceName := "crm" }

def demoDecode (body : List UInt8) : String := String.ofList (body.map (fun b => Char.ofNat b.toNat))

theorem uuid_tenants_isolated :
    ((demoRequest "3f2a" "9c1d").guarded = true ∧ (demoRequest "77b0" "9c1d").guarded = true) ∧
      Isolated demoService demoDecode
        (demoPair (demoRequest "3f2a" "9c1d") (demoRequest "77b0" "9c1d")) 0 1 := by
  refine ⟨⟨by decide, by decide⟩, (isolated_iff _ _ _ 0 1 (by decide) (by decide) (by decide)).1.2 ?_⟩
  have h₁ : (demoRequest "3f2a" "9c1d").tenantId = "3f2a" := by decide
  have h₂ : (demoRequest "77b0" "9c1d").tenantId = "77b0" := by decide
  have hlen : ∀ {t₁ t₂ s : String}, t₁.toList.length = t₂.toList.length → t₂ ≠ t₁ ++ ":" ++ s := by
    rintro t₁ t₂ s hl rfl
    simp at hl
  rintro (h | h) <;> rcases h with ⟨_, s, ht, _⟩ | ⟨he, _⟩
  · exact hlen (by decide) ht
  · exact absurd (h₁.symm.trans he) (by decide)
  · exact hlen (by decide) ht
  · exact absurd (h₂.symm.trans he) (by decide)

/-- The second tenant is answered with the response of the first. -/
theorem colon_tenants_share_responses :
    ¬ Isolated demoService demoDecode
        (demoPair (demoRequest "a:b" "c") (demoRequest "a" "b:c")) 0 1 := by
  intro h
  have hkey : (demoPair (demoRequest "a:b" "c") (demoRequest "a" "b:c") 0).cacheKey demoService =
      (demoPair (demoRequest "a:b" "c") (demoRequest "a" "b:c") 1).cacheKey demoService := by decide
  obtain ⟨w, hrun, hphase⟩ := replay_of_cacheKey demoDecode (by decide)
    (emptyAnswer_cacheable demoService) (by decide) (by decide) hkey
  exact absurd (h _ w _ _ _ hrun hphase).1 (by decide)

end Idempotency
end Middleware
end TrShared
