import TrShared.Integrations.ConfigClient

/-!
# TrShared.Integrations.ConfigFreshness

What `invalidate_cache` promises to the calls of `get_config` that start after it.

* `invalidation_effective`: in every run in which no fetched config is cached across an invalidation
  that covers it, and no partial invalidation covers a cached key of a platform with a colon in its
  name, a call that starts after an invalidation never returns a config fetched before it.
* `fetch_in_flight_outlives_invalidation`: without the condition a fetch that is under way during
  the invalidation writes its config into the cache afterwards.
-/

namespace TrShared
namespace Integrations

open Machine Python Http

/-- The pair of the request is one of those the invalidation names. -/
def Invalidation.covers (v : Invalidation) (q : ConfigRequest) : Prop :=
  (v.tenantId = none ∨ v.tenantId = some q.tenantId) ∧
    (v.platformName = none ∨ v.platformName = some q.platformName)

instance (v : Invalidation) (q : ConfigRequest) : Decidable (v.covers q) :=
  inferInstanceAs (Decidable (_ ∧ _))

/-! ## Keys -/

theorem splitLast_colon {a b : List Char} (hb : ':' ∉ b) :
    splitLast (a ++ ':' :: b) = some (a, b) := by
  have hall : ∀ c ∈ b.reverse, decide (c ≠ ':') = true := by
    intro c hc
    simp only [decide_eq_true_eq]
    rintro rfl
    exact hb (List.mem_reverse.mp hc)
  have hrev : (a ++ ':' :: b).reverse = b.reverse ++ ':' :: a.reverse := by simp
  rw [splitLast, hrev, List.dropWhile_append_of_pos hall, List.takeWhile_append_of_pos hall]
  simp

theorem cacheKey_toList (q : ConfigRequest) : ∃ f : List Char, ':' ∉ f ∧
    (cacheKey q).toList = (q.tenantId.toList ++ ':' :: q.platformName.toList) ++ ':' :: f := by
  refine ⟨(if q.includeSecrets then "1" else "0").toList, ?_, ?_⟩
  · split <;> decide
  · simp [cacheKey]

/-- `_key_matches` finds the key of a covered pair if the platform's name has no colon. -/
theorem keyMatches_of_covers {v : Invalidation} {q : ConfigRequest} (hv : v.covers q)
    (hp : ':' ∉ q.platformName.toList) :
    keyMatches (cacheKey q) v.tenantId v.platformName = true := by
  obtain ⟨f, hf, hkey⟩ := cacheKey_toList q
  simp only [keyMatches, hkey, splitLast_colon hf, splitLast_colon hp, String.ofList_toList]
  obtain ⟨ht, hpl⟩ := hv
  rcases ht with ht | ht <;> rcases hpl with hpl | hpl <;> simp [ht, hpl]

/-! ## The condition -/

/-- The answer carries a config that validates. -/
def FetchAnswer.carriesConfig (validate : Validate) : FetchAnswer → Bool
  | .response status (some payload) =>
    decide (status = 200) && (parsePayload validate payload).isOk
  | _ => false

/-- What the law asks of a step: a config that arrives is of a fetch that no invalidation of its key
has crossed, and a partial invalidation covers no cached key of a platform with a colon. -/
structure Uncrossed (p : ClientParams) (s : ConfigClient) (a : ConfigAct) : Prop where
  answer : ∀ id an request startedAt lock fetchedAt, a = .answer id an →
    s.calls id = some ⟨request, startedAt, .fetching lock fetchedAt⟩ →
    an.carriesConfig p.validate = true →
    ∀ v ∈ s.invalidations, fetchedAt ≤ v.number →
      ∀ q, cacheKey q = cacheKey request → ¬ v.covers q
  invalidate : ∀ tenantId platformName, a = .invalidate tenantId platformName →
    ¬ (tenantId = none ∧ platformName = none) →
    ∀ q : ConfigRequest, (s.cache.get (cacheKey q)).isSome →
      Invalidation.covers ⟨s.tick, tenantId, platformName⟩ q → ':' ∉ q.platformName.toList

theorem carriesConfig_of_ok {p : ClientParams} {tenantId platformName : String}
    {b b' : CircuitBreaker} {now : Time} {a : FetchAnswer} {config : IntegrationConfig}
    (h : finishFetch p.breaker p.validate tenantId platformName b now a = (.ok config, b')) :
    a.carriesConfig p.validate = true := by
  cases a with
  | timeout => cases h
  | httpError name => cases h
  | raised => cases h
  | response status json =>
    simp only [finishFetch] at h
    split at h
    · cases h
    · split at h
      · cases h
      · rename_i hstatus
        cases json with
        | none => cases h
        | some payload =>
          simp only [Prod.mk.injEq] at h
          simp [FetchAnswer.carriesConfig, not_not.mp hstatus, h.1, Except.isOk, Except.toBool]

/-! ## The invariant -/

/-- A call that starts after a covering invalidation gets a config fetched after it. -/
def Effective (s : ConfigClient) : Prop :=
  ∀ r ∈ s.returned, ∀ v ∈ s.invalidations, v.covers r.request → v.number < r.startedAt →
    v.number < r.entry.fetchedAt

structure Unstale (s : ConfigClient) : Prop where
  cache : ∀ k e, s.cache.get k = some e → ∀ v ∈ s.invalidations, ∀ q, cacheKey q = k →
    v.covers q → v.number < e.fetchedAt
  numbers : ∀ v ∈ s.invalidations, v.number < s.tick
  started : ∀ id call, s.calls id = some call → call.startedAt ≤ s.tick
  fetches : ∀ id request startedAt lock fetchedAt,
    s.calls id = some ⟨request, startedAt, .fetching lock fetchedAt⟩ → startedAt ≤ fetchedAt
  returned : ∀ r ∈ s.returned, r.startedAt ≤ s.tick
  effective : Effective s

section Unstale

variable {p : ClientParams} {s s₁ s' : ConfigClient}

theorem Unstale.start {now : Time} : Unstale ({ now := now } : ConfigClient) where
  cache k e h := by cases h
  numbers v hv := by cases hv
  started id call h := by cases h
  fetches id request startedAt lock fetchedAt h := by cases h
  returned r hr := by cases hr
  effective r hr := by cases hr

/-- Fields the invariant does not read may change, and entries may leave the cache. -/
theorem Unstale.congr (h : Unstale s)
    (hcache : ∀ k e, s'.cache.get k = some e → s.cache.get k = some e)
    (htick : s.tick ≤ s'.tick) (hcalls : s'.calls = s.calls) (hret : s'.returned = s.returned)
    (hinv : s'.invalidations = s.invalidations) : Unstale s' where
  cache k e he := by rw [hinv]; exact h.cache k e (hcache k e he)
  numbers v hv := by rw [hinv] at hv; exact lt_of_lt_of_le (h.numbers v hv) htick
  started id call hc := by rw [hcalls] at hc; exact le_trans (h.started id call hc) htick
  fetches id request startedAt lock fetchedAt hc := by
    rw [hcalls] at hc; exact h.fetches id request startedAt lock fetchedAt hc
  returned r hr := by rw [hret] at hr; exact le_trans (h.returned r hr) htick
  effective r hr v hv := by rw [hret] at hr; rw [hinv] at hv; exact h.effective r hr v hv

theorem Unstale.setCall {id : Nat} {call : Option Call} (h : Unstale s)
    (hs : ∀ c, call = some c → c.startedAt ≤ s.tick)
    (hf : ∀ request startedAt lock fetchedAt,
      call = some ⟨request, startedAt, .fetching lock fetchedAt⟩ → startedAt ≤ fetchedAt) :
    Unstale (s.setCall id call) := by
  refine ⟨h.cache, h.numbers, ?_, ?_, h.returned, h.effective⟩
  · intro id' c hc
    rcases update_cases s.calls id call id' with ⟨-, hcall⟩ | ⟨-, hcall⟩
    · exact hs c (hcall.symm.trans hc)
    · exact h.started id' c (hcall.symm.trans hc)
  · intro id' request startedAt lock fetchedAt hc
    rcases update_cases s.calls id call id' with ⟨-, hcall⟩ | ⟨-, hcall⟩
    · exact hf request startedAt lock fetchedAt (hcall.symm.trans hc)
    · exact h.fetches id' request startedAt lock fetchedAt (hcall.symm.trans hc)

theorem Unstale.ended {id : Nat} (h : Unstale s) : Unstale (s.setCall id none) :=
  h.setCall (fun c hc => by cases hc) (fun _ _ _ _ hc => by cases hc)

/-- A call returns `entry`. -/
theorem Unstale.returns {id startedAt : Nat} {request : ConfigRequest} {entry : CachedConfig}
    (h : Unstale s) (hst : startedAt ≤ s.tick)
    (he : ∀ v ∈ s.invalidations, v.covers request → v.number < startedAt →
      v.number < entry.fetchedAt) : Unstale (s.returns id request startedAt entry) := by
  have hended : Unstale (s.setCall id none) := h.ended
  refine ⟨hended.cache, hended.numbers, hended.started, hended.fetches, ?_, ?_⟩
  · intro r hr
    rcases mem_snoc hr with hr | rfl
    · exact h.returned r hr
    · exact hst
  · intro r hr v hv hc hlt
    rcases mem_snoc hr with hr | rfl
    · exact h.effective r hr v hv hc hlt
    · exact he v hv hc hlt

theorem Unstale.raises {id : Nat} {request : ConfigRequest} {e : GetConfigError} (h : Unstale s) :
    Unstale (s.raises id request e) :=
  h.ended.congr (fun _ _ he => he) (le_refl _) rfl rfl rfl

theorem Unstale.enters {id lock startedAt : Nat} {request : ConfigRequest} (h : Unstale s)
    (hst : startedAt ≤ s.tick) (he : Enters p s id request startedAt lock s') : Unstale s' := by
  cases he with
  | hit hget _ =>
    have hs : Unstale (s.setLock lock { s.locks lock with holder := none }) :=
      h.congr (fun _ _ he => he) (le_refl _) rfl rfl rfl
    exact hs.returns hst (fun v hv hc _ => h.cache _ _ hget v hv request rfl hc)
  | @rejected cache b e hm =>
    have hs : Unstale (ConfigClient.setLock { s with cache := cache, breaker := b } lock
        { s.locks lock with holder := none }) :=
      h.congr (fun _ _ he => getFromCache_miss hm he) (le_refl _) rfl rfl rfl
    exact hs.raises
  | @fetch cache b hm =>
    have hs : Unstale (ConfigClient.setLock { s with cache := cache, breaker := b } lock
        { s.locks lock with holder := some id }) :=
      h.congr (fun _ _ he => getFromCache_miss hm he) (le_refl _) rfl rfl rfl
    refine hs.setCall ?_ ?_
    · intro c hc; cases hc; exact hst
    · intro _ _ _ _ hc; cases hc; exact hst

theorem enters_tick {id lock startedAt : Nat} {request : ConfigRequest}
    (he : Enters p s id request startedAt lock s') : s'.tick = s.tick := by
  cases he <;> rfl

/-- Looking a lock up changes nothing the invariant reads. -/
theorem lockOf_fields {key : String} {lock : Nat} (h : s.lockOf key = (lock, s₁)) :
    s₁.cache = s.cache ∧ s₁.tick = s.tick ∧ s₁.calls = s.calls ∧ s₁.returned = s.returned ∧
      s₁.invalidations = s.invalidations := by
  simp only [ConfigClient.lockOf] at h
  split at h
  · cases h; exact ⟨rfl, rfl, rfl, rfl, rfl⟩
  · cases h; exact ⟨rfl, rfl, rfl, rfl, rfl⟩

theorem Unstale.lockOf {cache : ConfigCache} {key : String} {lock : Nat} (h : Unstale s)
    (hm : getFromCache s.cache s.now key = (none, cache))
    (hl : ConfigClient.lockOf { s with cache := cache } key = (lock, s₁)) :
    Unstale s₁ ∧ s₁.tick = s.tick := by
  obtain ⟨hcache, htick, hcalls, hret, hinv⟩ := lockOf_fields hl
  refine ⟨h.congr ?_ (le_of_eq htick.symm) hcalls hret hinv, htick⟩
  intro k e he
  rw [hcache] at he
  exact getFromCache_miss hm he

/-- What `_put_in_cache` leaves besides the new entry was there before. -/
theorem putInCache_get {cache cache' : ConfigCache} {now : Time} {key k : String}
    {config : IntegrationConfig} {fetchedAt : Nat} {e : CachedConfig}
    (h : putInCache p cache now key config fetchedAt = some cache') (he : cache'.get k = some e) :
    (k = key ∧ e = ⟨now + p.localCacheTtl, config, fetchedAt⟩) ∨ cache.get k = some e := by
  have hset : ∀ c : ConfigCache, (c.set key ⟨now + p.localCacheTtl, config, fetchedAt⟩).get k =
      some e → (k = key ∧ e = ⟨now + p.localCacheTtl, config, fetchedAt⟩) ∨ c.get k = some e := by
    intro c hc
    by_cases hk : k = key
    · subst hk
      rw [OrderedDict.get_set_self] at hc
      cases hc
      exact .inl ⟨rfl, rfl⟩
    · rw [OrderedDict.get_set_of_ne hk] at hc
      exact .inr hc
  simp only [putInCache] at h
  split at h
  · split at h
    · cases h
    · rename_i oldest _
      cases h
      rcases hset _ he with hnew | hold
      · exact .inl hnew
      · right
        by_cases hk : k = oldest
        · subst hk; rw [OrderedDict.get_erase_self] at hold; cases hold
        · rwa [OrderedDict.get_erase_of_ne hk] at hold
  · cases h
    exact hset _ he

/-- A fetched config is cached and returned. -/
theorem Unstale.cached {id lock startedAt fetchedAt : Nat} {request : ConfigRequest}
    {b : CircuitBreaker} {config : IntegrationConfig} {cache : ConfigCache} (h : Unstale s)
    (hc : s.calls id = some ⟨request, startedAt, .fetching lock fetchedAt⟩)
    (hfresh : ∀ v ∈ s.invalidations, fetchedAt ≤ v.number →
      ∀ q, cacheKey q = cacheKey request → ¬ v.covers q)
    (hp : putInCache p s.cache s.now (cacheKey request) config fetchedAt = some cache) :
    Unstale ((ConfigClient.release { s with
        breaker := b
        cache := cache
        registry := s.registry.erase (cacheKey request) } lock).returns id request startedAt
      ⟨s.now + p.localCacheTtl, config, fetchedAt⟩) := by
  have hs : Unstale (ConfigClient.release { s with
      breaker := b
      cache := cache
      registry := s.registry.erase (cacheKey request) } lock) := by
    refine ⟨?_, h.numbers, h.started, h.fetches, h.returned, h.effective⟩
    intro k e he v hv q hq hcov
    rcases putInCache_get hp he with ⟨rfl, rfl⟩ | hold
    · by_contra hge
      exact hfresh v hv (not_lt.mp hge) q hq hcov
    · exact h.cache k e hold v hv q hq hcov
  refine hs.returns (h.started id _ hc) ?_
  intro v _ _ hlt
  exact lt_of_lt_of_le hlt (h.fetches id request startedAt lock fetchedAt hc)

theorem Unstale.invalidate {tenantId platformName : Option String} (h : Unstale s)
    (hok : ¬ (tenantId = none ∧ platformName = none) →
      ∀ q : ConfigRequest, (s.cache.get (cacheKey q)).isSome →
        Invalidation.covers ⟨s.tick, tenantId, platformName⟩ q → ':' ∉ q.platformName.toList) :
    Unstale { s with
      cache := invalidateCache s.cache tenantId platformName
      invalidations := s.invalidations ++ [⟨s.tick, tenantId, platformName⟩]
      tick := s.tick + 1 } := by
  constructor
  case cache =>
    intro k e he v hv q hq hcov
    simp only [invalidateCache] at he
    split at he
    · cases he
    · rename_i hpart
      rw [OrderedDict.get_keep, Option.filter_eq_some_iff] at he
      rcases mem_snoc hv with hv | rfl
      · exact h.cache k e he.1 v hv q hq hcov
      · -- the new invalidation has removed every key it covers
        subst hq
        have hcolon := hok hpart q (by rw [he.1]; rfl) hcov
        have hmatch := keyMatches_of_covers hcov hcolon
        simp only [hmatch, Bool.not_true] at he
        cases he.2
  case numbers =>
    intro v hv
    rcases mem_snoc hv with hv | rfl
    · exact lt_trans (h.numbers v hv) (Nat.lt_succ_self _)
    · exact Nat.lt_succ_self _
  case started =>
    intro id call hc
    exact le_trans (h.started id call hc) (Nat.le_succ _)
  case fetches => exact h.fetches
  case returned =>
    intro r hr
    exact le_trans (h.returned r hr) (Nat.le_succ _)
  case effective =>
    intro r hr v hv hcov hlt
    rcases mem_snoc hv with hv | rfl
    · exact h.effective r hr v hv hcov hlt
    · -- a call that has returned did not start after this step
      exact absurd (h.returned r hr) (not_le.mpr hlt)

/-- The number of the next step goes up. -/
theorem Unstale.next (h : Unstale s') (ht : s'.tick = s.tick) :
    Unstale { s' with tick := s.tick + 1 } :=
  h.congr (fun _ _ he => he) (by rw [ht]; exact Nat.le_succ _) rfl rfl rfl

theorem Unstale.step {a : ConfigAct} (h : Unstale s) (hok : Uncrossed p s a)
    (hs : s.step p a = some s') : Unstale s' := by
  obtain ⟨s₁, hs₁, rfl⟩ := configStep_of_step hs
  cases hs₁ with
  | advance _ => exact h.congr (fun _ _ he => he) (Nat.le_succ _) rfl rfl rfl
  | @startHit id request entry _ hget _ =>
    have hr : Unstale (s.returns id request s.tick entry) :=
      h.returns (le_refl _) (fun v hv hc _ => h.cache _ _ hget v hv request rfl hc)
    exact hr.next rfl
  | startEnter _ hm hl _ he =>
    obtain ⟨hs₁, htick⟩ := h.lockOf hm hl
    exact (hs₁.enters (le_refl _) he).next ((enters_tick he).trans htick)
  | startWait _ hm hl =>
    obtain ⟨hs₁, htick⟩ := h.lockOf hm hl
    refine Unstale.next (Unstale.setCall ?_ ?_ ?_) htick
    · exact hs₁.congr (fun _ _ he => he) (le_refl _) rfl rfl rfl
    · intro c hc; cases hc; exact le_refl _
    · intro _ _ _ _ hc; cases hc
  | @wake id lock startedAt request waiters _ hc _ he =>
    have hs : Unstale (s.setLock lock ⟨none, waiters⟩) :=
      h.congr (fun _ _ he => he) (le_refl _) rfl rfl rfl
    exact (hs.enters (h.started id _ hc) he).next ((enters_tick he).trans rfl)
  | @failed _ id lock _ _ _ b _ hc =>
    have hs : Unstale (ConfigClient.release { s with breaker := b } lock) :=
      h.congr (fun _ _ he => he) (le_refl _) rfl rfl rfl
    exact hs.raises.next rfl
  | cached hc hf hp =>
    exact (h.cached hc (hok.answer _ _ _ _ _ _ rfl hc (carriesConfig_of_ok hf)) hp).next rfl
  | @cancelWaiting id lock _ _ hc =>
    have hs : Unstale (s.setLock lock { s.locks lock with
        waiters := (s.locks lock).waiters.erase id }) :=
      h.congr (fun _ _ he => he) (le_refl _) rfl rfl rfl
    exact hs.raises.next rfl
  | invalidate => exact h.invalidate (hok.invalidate _ _ rfl)
  | otherCall => exact h.congr (fun _ _ he => he) (Nat.le_succ _) rfl rfl rfl

end Unstale

/-- For every run of calls, fetches and invalidations in any order, at await granularity: if no config
is cached whose key an invalidation has covered since its fetch started, and no partial invalidation
covers a cached key of a platform with a colon in its name, a call that starts after an invalidation
that covers its pair never returns a config whose fetch started before that invalidation. -/
theorem invalidation_effective (p : ClientParams) (now : Time) (acts : List ConfigAct)
    (s : ConfigClient)
    (hrun : Run (ConfigClient.step p) (Uncrossed p) { now := now } acts s) : Effective s :=
  (hrun.invariant (fun _ _ _ hi hok hs => Unstale.step hi hok hs) Unstale.start).effective

/-- A key with two colons is of pairs without colons only. -/
theorem no_colon_of_count {q : ConfigRequest} (h : (cacheKey q).toList.count ':' = 2) :
    ':' ∉ q.platformName.toList := by
  obtain ⟨f, hf, hkey⟩ := cacheKey_toList q
  have hcount : q.platformName.toList.count ':' = 0 := by
    rw [hkey] at h
    simp only [List.count_append, List.count_cons_self] at h
    omega
  exact List.count_eq_zero.mp hcount

/-- `Uncrossed` as a check of one step: every invalidation came before the fetch, and cached keys have
two colons. -/
def uncrossedCheck (s : ConfigClient) : ConfigAct → Bool
  | .answer id _ =>
    match s.calls id with
    | some ⟨_, _, .fetching _ fetchedAt⟩ =>
      s.invalidations.all (fun v => decide (v.number < fetchedAt))
    | _ => true
  | .invalidate _ _ => s.cache.entries.all (fun e => decide (e.1.toList.count ':' = 2))
  | _ => true

theorem uncrossedCheck_sound {p : ClientParams} {s : ConfigClient} {a : ConfigAct}
    (h : uncrossedCheck s a = true) : Uncrossed p s a where
  answer := by
    rintro id an request startedAt lock fetchedAt rfl hc _ v hv hle
    simp only [uncrossedCheck, hc, List.all_eq_true, decide_eq_true_eq] at h
    exact absurd (h v hv) (not_lt.mpr hle)
  invalidate := by
    rintro tenantId platformName rfl - q hq -
    obtain ⟨e, he⟩ := Option.isSome_iff_exists.mp hq
    simp only [uncrossedCheck, List.all_eq_true, decide_eq_true_eq] at h
    have hmem : (cacheKey q, e) ∈ s.cache.entries := OrderedDict.get_eq_some_iff.mp he
    have hcount : (cacheKey q).toList.count ':' = 2 := h (cacheKey q, e) hmem
    exact no_colon_of_count hcount

/-- Fetch, invalidate the tenant, ask again. -/
def askAgain : List ConfigAct :=
  [.start 0 ⟨"t", "p", false⟩, .answer 0 demoAnswer, .invalidate (some "t") none,
   .start 1 ⟨"t", "p", false⟩, .answer 1 demoAnswer]

theorem asked_again_fetched_again : ∃ s,
    Run (ConfigClient.step demoClient) (Uncrossed demoClient) { now := 0 } askAgain s ∧
    s.returned.map (fun r => (r.startedAt, r.entry.fetchedAt)) = [(0, 0), (3, 3)] ∧
    Effective s := by
  have hx : (exec (Run.guarded (ConfigClient.step demoClient) uncrossedCheck) { now := 0 }
      askAgain).any (fun s => decide
        (s.returned.map (fun r => (r.startedAt, r.entry.fetchedAt)) = [(0, 0), (3, 3)])) = true := by
    decide +kernel
  obtain ⟨s, hs, hret⟩ := exec_any hx
  have hrun : Run (ConfigClient.step demoClient) (Uncrossed demoClient) { now := 0 } askAgain s :=
    Run.of_guarded (I := fun _ => True) (fun _ _ _ _ _ _ => trivial)
      (fun _ _ _ h => uncrossedCheck_sound h) trivial hs
  exact ⟨s, hrun, of_decide_eq_true hret, invalidation_effective demoClient 0 askAgain s hrun⟩

/-- The fetch of step 0 is under way when step 1 invalidates everything; its config is cached in
step 2 and returned to the call that starts in step 3. -/
theorem fetch_in_flight_outlives_invalidation : ¬ ∀ (p : ClientParams) (now : Time)
    (acts : List ConfigAct) (s : ConfigClient),
    Run (ConfigClient.step p) (fun _ _ => True) { now := now } acts s → Effective s := by
  intro h
  have hx : (exec (ConfigClient.step demoClient) { now := 0 }
      [.start 0 ⟨"t", "p", false⟩, .invalidate none none, .answer 0 demoAnswer,
       .start 1 ⟨"t", "p", false⟩]).any (fun s =>
        s.returned.any (fun r => s.invalidations.any (fun v =>
          decide (v.covers r.request ∧ v.number < r.startedAt ∧ ¬ v.number < r.entry.fetchedAt)))) =
      true := by
    decide +kernel
  obtain ⟨s, hs, hp⟩ := exec_any hx
  obtain ⟨r, hr, hp⟩ := List.any_eq_true.mp hp
  obtain ⟨v, hv, hp⟩ := List.any_eq_true.mp hp
  obtain ⟨hcov, hlt, hnot⟩ := of_decide_eq_true hp
  exact hnot (h demoClient 0 _ s (Run.of_exec_all (fun _ _ _ => trivial) hs) r hr v hv hcov hlt)

end Integrations
end TrShared
