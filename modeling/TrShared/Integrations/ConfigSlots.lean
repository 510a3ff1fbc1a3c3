import TrShared.Integrations.ConfigFreshness

/-!
# TrShared.Integrations.ConfigSlots

The slots of the local cache of `IntegrationConfigClient`. A key is the triple of a request joined
with colons, and `_key_matches` takes it apart again from the right, so it is exact as long as the
platform's name has no colon; the tenant may have any number of them.

* `cache_slots_exact`: in every run of calls for platforms without a colon, at await granularity, a
  call returns a config that was fetched for its own triple, an invalidation removes the entries it
  names and no others, and the cache keeps its bound.
-/

namespace TrShared
namespace Integrations

open Machine Python Http

def ColonFree (q : ConfigRequest) : Prop := ':' ∉ q.platformName.toList

instance (q : ConfigRequest) : Decidable (ColonFree q) := inferInstanceAs (Decidable (¬ _))

/-! ## Keys -/

/-- The last part of a key. -/
def flagText (includeSecrets : Bool) : List Char :=
  (if includeSecrets then "1" else "0").toList

theorem flagText_injective {b b' : Bool} (h : flagText b = flagText b') : b = b' := by
  cases b <;> cases b' <;> first | rfl | (revert h; decide)

theorem splitLast_cacheKey (q : ConfigRequest) : splitLast (cacheKey q).toList =
    some (q.tenantId.toList ++ ':' :: q.platformName.toList, flagText q.includeSecrets) := by
  have hflag : ':' ∉ flagText q.includeSecrets := by
    cases q.includeSecrets <;> decide
  have hkey : (cacheKey q).toList =
      (q.tenantId.toList ++ ':' :: q.platformName.toList) ++ ':' :: flagText q.includeSecrets := by
    simp [cacheKey, flagText]
  rw [hkey, splitLast_colon hflag]

/-- Two triples never share a slot. -/
theorem cacheKey_injective {q q' : ConfigRequest} (hq : ColonFree q) (hq' : ColonFree q')
    (h : cacheKey q = cacheKey q') : q = q' := by
  have hparts : some (q.tenantId.toList ++ ':' :: q.platformName.toList,
        flagText q.includeSecrets) =
      some (q'.tenantId.toList ++ ':' :: q'.platformName.toList, flagText q'.includeSecrets) := by
    rw [← splitLast_cacheKey, ← splitLast_cacheKey, h]
  simp only [Option.some.injEq, Prod.mk.injEq] at hparts
  obtain ⟨hfront, hflag⟩ := hparts
  have hpair : some (q.tenantId.toList, q.platformName.toList) =
      some (q'.tenantId.toList, q'.platformName.toList) := by
    rw [← splitLast_colon hq, ← splitLast_colon hq', hfront]
  simp only [Option.some.injEq, Prod.mk.injEq] at hpair
  obtain ⟨htenant, hplatform⟩ := hpair
  cases q
  cases q'
  rw [ConfigRequest.mk.injEq]
  exact ⟨String.toList_inj.mp htenant, String.toList_inj.mp hplatform, flagText_injective hflag⟩

/-- `_key_matches` on the key of a triple. -/
theorem keyMatches_cacheKey {q : ConfigRequest} (hq : ColonFree q) (v : Invalidation) :
    keyMatches (cacheKey q) v.tenantId v.platformName = decide (v.covers q) := by
  obtain ⟨number, tenantId, platformName⟩ := v
  simp only [keyMatches, splitLast_cacheKey, splitLast_colon hq, String.ofList_toList]
  cases tenantId <;> cases platformName <;> simp [Invalidation.covers, eq_comm]

/-! ## The operations of the cache -/

section Cache

variable {p : ClientParams} {cache cache' : ConfigCache} {now : Time} {key : String}

/-- An invalidation empties the slots of the triples it covers and touches no other slot. -/
theorem invalidateCache_get {q : ConfigRequest} (hq : ColonFree q) (v : Invalidation) :
    (invalidateCache cache v.tenantId v.platformName).get (cacheKey q) =
      if v.covers q then none else cache.get (cacheKey q) := by
  simp only [invalidateCache]
  split
  · rename_i hall
    have hcov : v.covers q := ⟨.inl hall.1, .inl hall.2⟩
    rw [if_pos hcov, OrderedDict.get_empty]
  · rw [OrderedDict.get_keep, keyMatches_cacheKey hq]
    by_cases hcov : v.covers q
    · cases cache.get (cacheKey q) <;> simp [hcov]
    · cases cache.get (cacheKey q) <;> simp [hcov]

theorem invalidateCache_sublist (cache : ConfigCache) (tenantId platformName : Option String) :
    (invalidateCache cache tenantId platformName).entries.Sublist cache.entries := by
  simp only [invalidateCache]
  split
  · exact List.nil_sublist _
  · exact List.filter_sublist

theorem getFromCache_size (h : getFromCache cache now key = (none, cache')) :
    cache'.size ≤ cache.size := by
  simp only [getFromCache] at h
  split at h
  · cases h; exact le_refl _
  · split at h
    · cases h; exact OrderedDict.size_keep_le
    · cases h

/-- `_put_in_cache` makes room before it writes. -/
theorem putInCache_size {config : IntegrationConfig} {fetchedAt : Nat}
    (h : putInCache p cache now key config fetchedAt = some cache')
    (hsize : cache.size ≤ p.localCacheMaxSize) : cache'.size ≤ p.localCacheMaxSize := by
  simp only [putInCache] at h
  split at h
  · split at h
    · cases h
    · rename_i oldest hold
      cases h
      have hless : (cache.erase oldest).size < cache.size := OrderedDict.size_erase_oldest hold
      exact le_trans OrderedDict.size_set_le (le_trans hless hsize)
  · rename_i hroom
    cases h
    exact le_trans OrderedDict.size_set_le (not_le.mp hroom)

end Cache

/-! ## The invariant -/

/-- `F q e` says where the entry `e` for the triple `q` comes from. -/
structure Slots (p : ClientParams) (F : ConfigRequest → CachedConfig → Prop) (s : ConfigClient) :
    Prop where
  cache : ∀ k e, s.cache.get k = some e → ∃ q, ColonFree q ∧ k = cacheKey q ∧ F q e
  calls : ∀ id call, s.calls id = some call → ColonFree call.request
  returned : ∀ r ∈ s.returned, F r.request r.entry
  size : s.cache.size ≤ p.localCacheMaxSize

section Slots

variable {p : ClientParams} {F : ConfigRequest → CachedConfig → Prop} {s s₁ s' : ConfigClient}

theorem Slots.start {now : Time} : Slots p F ({ now := now } : ConfigClient) where
  cache k e h := by cases h
  calls id call h := by cases h
  returned r hr := by cases hr
  size := Nat.zero_le _

theorem Slots.mono {G : ConfigRequest → CachedConfig → Prop} (hFG : ∀ q e, F q e → G q e)
    (h : Slots p F s) : Slots p G s where
  cache k e he := by
    obtain ⟨q, hq, hk, hF⟩ := h.cache k e he
    exact ⟨q, hq, hk, hFG q e hF⟩
  calls := h.calls
  returned r hr := hFG _ _ (h.returned r hr)
  size := h.size

/-- A hit is an entry for the triple that was asked for. -/
theorem Slots.hit {q : ConfigRequest} {e : CachedConfig} (h : Slots p F s) (hq : ColonFree q)
    (he : s.cache.get (cacheKey q) = some e) : F q e := by
  obtain ⟨q', hq', hkey, hF⟩ := h.cache _ _ he
  rwa [cacheKey_injective hq hq' hkey]

/-- Fields the invariant does not read may change, and entries may leave the cache. -/
theorem Slots.congr (h : Slots p F s)
    (hcache : ∀ k e, s'.cache.get k = some e → s.cache.get k = some e)
    (hsize : s'.cache.size ≤ s.cache.size) (hcalls : s'.calls = s.calls)
    (hret : s'.returned = s.returned) : Slots p F s' where
  cache k e he := h.cache k e (hcache k e he)
  calls id call hc := by rw [hcalls] at hc; exact h.calls id call hc
  returned r hr := by rw [hret] at hr; exact h.returned r hr
  size := le_trans hsize h.size

/-- `Slots.congr` for a step that leaves the cache alone. -/
theorem Slots.same (h : Slots p F s) (hcache : s'.cache = s.cache) (hcalls : s'.calls = s.calls)
    (hret : s'.returned = s.returned) : Slots p F s' :=
  h.congr (fun _ _ he => by rwa [hcache] at he) (by rw [hcache]) hcalls hret

theorem Slots.setCall {id : Nat} {call : Option Call} (h : Slots p F s)
    (hcall : ∀ c, call = some c → ColonFree c.request) : Slots p F (s.setCall id call) := by
  refine ⟨h.cache, ?_, h.returned, h.size⟩
  intro id' c hc
  rcases update_cases s.calls id call id' with ⟨-, heq⟩ | ⟨-, heq⟩
  · exact hcall c (heq.symm.trans hc)
  · exact h.calls id' c (heq.symm.trans hc)

theorem Slots.ended {id : Nat} (h : Slots p F s) : Slots p F (s.setCall id none) :=
  h.setCall (fun c hc => by cases hc)

theorem Slots.returns {id startedAt : Nat} {request : ConfigRequest} {entry : CachedConfig}
    (h : Slots p F s) (hF : F request entry) :
    Slots p F (s.returns id request startedAt entry) := by
  have hended : Slots p F (s.setCall id none) := h.ended
  refine ⟨hended.cache, hended.calls, ?_, hended.size⟩
  intro r hr
  rcases mem_snoc hr with hr | rfl
  · exact h.returned r hr
  · exact hF

theorem Slots.raises {id : Nat} {request : ConfigRequest} {e : GetConfigError} (h : Slots p F s) :
    Slots p F (s.raises id request e) :=
  h.ended.same rfl rfl rfl

theorem Slots.miss {cache : ConfigCache} {key : String} {now : Time} (h : Slots p F s)
    (hm : getFromCache s.cache now key = (none, cache)) : Slots p F { s with cache := cache } :=
  h.congr (fun _ _ he => getFromCache_miss hm he) (getFromCache_size hm) rfl rfl

theorem Slots.enters {id lock startedAt : Nat} {request : ConfigRequest} (h : Slots p F s)
    (hq : ColonFree request) (he : Enters p s id request startedAt lock s') : Slots p F s' := by
  cases he with
  | @hit entry hget _ =>
    have hs : Slots p F (s.setLock lock { s.locks lock with holder := none }) :=
      h.same rfl rfl rfl
    exact hs.returns (h.hit hq hget)
  | @rejected cache b e hm =>
    have hs : Slots p F (ConfigClient.setLock { s with cache := cache, breaker := b } lock
        { s.locks lock with holder := none }) := (h.miss hm).same rfl rfl rfl
    exact hs.raises
  | @fetch cache b hm =>
    have hs : Slots p F (ConfigClient.setLock { s with cache := cache, breaker := b } lock
        { s.locks lock with holder := some id }) := (h.miss hm).same rfl rfl rfl
    exact hs.setCall (fun c hc => by cases hc; exact hq)

theorem Slots.lockOf {cache : ConfigCache} {key : String} {lock : Nat} (h : Slots p F s)
    (hm : getFromCache s.cache s.now key = (none, cache))
    (hl : ConfigClient.lockOf { s with cache := cache } key = (lock, s₁)) : Slots p F s₁ := by
  obtain ⟨hcache, -, hcalls, hret, -⟩ := lockOf_fields hl
  exact (h.miss hm).same hcache hcalls hret

/-- A fetched config takes the slot of its own triple. -/
theorem Slots.cached {id lock startedAt fetchedAt : Nat} {request : ConfigRequest}
    {b : CircuitBreaker} {config : IntegrationConfig} {cache : ConfigCache} (h : Slots p F s)
    (hq : ColonFree request) (hF : F request ⟨s.now + p.localCacheTtl, config, fetchedAt⟩)
    (hp : putInCache p s.cache s.now (cacheKey request) config fetchedAt = some cache) :
    Slots p F ((ConfigClient.release { s with
        breaker := b
        cache := cache
        registry := s.registry.erase (cacheKey request) } lock).returns id request startedAt
      ⟨s.now + p.localCacheTtl, config, fetchedAt⟩) := by
  refine Slots.returns ⟨?_, h.calls, h.returned, putInCache_size hp h.size⟩ hF
  intro k e he
  rcases putInCache_get hp he with ⟨rfl, rfl⟩ | hold
  · exact ⟨request, hq, rfl, hF⟩
  · exact h.cache k e hold

theorem Slots.invalidate {tenantId platformName : Option String} {vs : List Invalidation}
    (h : Slots p F s) : Slots p F { s with
      cache := invalidateCache s.cache tenantId platformName
      invalidations := vs } := by
  have hsub := invalidateCache_sublist s.cache tenantId platformName
  refine h.congr ?_ hsub.length_le rfl rfl
  intro k e he
  exact OrderedDict.get_eq_some_iff.mpr (hsub.subset (OrderedDict.get_eq_some_iff.mp he))

end Slots

/-! ## Where a config comes from -/

/-- The run along `acts` has in it the answer to a request for `q`, of the fetch and with the config
of `e`. -/
def FetchedFor (p : ClientParams) (s₀ : ConfigClient) (acts : List ConfigAct) (q : ConfigRequest)
    (e : CachedConfig) : Prop :=
  ∃ (before after : List ConfigAct) (id : Nat) (an : FetchAnswer) (s : ConfigClient)
    (startedAt lock : Nat) (b : CircuitBreaker), acts = before ++ .answer id an :: after ∧
    exec (ConfigClient.step p) s₀ before = some s ∧
    s.calls id = some ⟨q, startedAt, .fetching lock e.fetchedAt⟩ ∧
    finishFetch p.breaker p.validate q.tenantId q.platformName s.breaker s.now an = (.ok e.config, b)

theorem FetchedFor.later {p : ClientParams} {s₀ : ConfigClient} {acts : List ConfigAct}
    {q : ConfigRequest} {e : CachedConfig} (a : ConfigAct) (h : FetchedFor p s₀ acts q e) :
    FetchedFor p s₀ (acts ++ [a]) q e := by
  obtain ⟨before, after, id, an, s, startedAt, lock, b, rfl, hrest⟩ := h
  exact ⟨before, after ++ [a], id, an, s, startedAt, lock, b, by simp, hrest⟩

/-- Every call is for a platform without a colon in its name. -/
def AsksColonFree (_ : ConfigClient) (a : ConfigAct) : Prop :=
  ∀ id request, a = .start id request → ColonFree request

theorem Slots.step {p : ClientParams} {s₀ s s' : ConfigClient} {acts : List ConfigAct}
    {a : ConfigAct} (hrun : exec (ConfigClient.step p) s₀ acts = some s)
    (h : Slots p (FetchedFor p s₀ acts) s) (hok : AsksColonFree s a)
    (hs : s.step p a = some s') : Slots p (FetchedFor p s₀ (acts ++ [a])) s' := by
  have hl : Slots p (FetchedFor p s₀ (acts ++ [a])) s := h.mono (fun _ _ hF => hF.later a)
  obtain ⟨s₁, hs₁, rfl⟩ := configStep_of_step hs
  suffices hs₁ : Slots p (FetchedFor p s₀ (acts ++ [a])) s₁ from hs₁.same rfl rfl rfl
  cases hs₁ with
  | advance _ => exact hl.same rfl rfl rfl
  | startHit _ hget _ => exact hl.returns (hl.hit (hok _ _ rfl) hget)
  | startEnter _ hm hlock _ he => exact (hl.lockOf hm hlock).enters (hok _ _ rfl) he
  | startWait _ hm hlock =>
    have hs₂ := hl.lockOf hm hlock
    exact Slots.setCall (hs₂.same rfl rfl rfl) (fun c hc => by cases hc; exact hok _ _ rfl)
  | @wake id lock startedAt request waiters _ hc _ he =>
    have hs₂ : Slots p (FetchedFor p s₀ (acts ++ [.wake id])) (s.setLock lock ⟨none, waiters⟩) :=
      hl.same rfl rfl rfl
    exact hs₂.enters (hl.calls id _ hc) he
  | @failed _ id lock _ _ _ b _ hc =>
    have hs₂ : Slots p (FetchedFor p s₀ (acts ++ [a]))
        (ConfigClient.release { s with breaker := b } lock) := hl.same rfl rfl rfl
    exact hs₂.raises
  | @cached id lock startedAt fetchedAt request an b config cache hc hf hp =>
    refine hl.cached (hl.calls id _ hc) ?_ hp
    exact ⟨acts, [], id, an, s, startedAt, lock, b, rfl, hrun, hc, hf⟩
  | @cancelWaiting id lock _ _ hc =>
    have hs₂ : Slots p (FetchedFor p s₀ (acts ++ [.cancel id])) (s.setLock lock { s.locks lock with
        waiters := (s.locks lock).waiters.erase id }) := hl.same rfl rfl rfl
    exact hs₂.raises
  | invalidate => exact hl.invalidate
  | otherCall => exact hl.same rfl rfl rfl

/-! ## The law -/

/-- What holds of the slots in a state that the run along `acts` has reached. -/
structure SlotsExact (p : ClientParams) (s₀ : ConfigClient) (acts : List ConfigAct)
    (s : ConfigClient) : Prop where
  distinct : ∀ q q', ColonFree q → ColonFree q' → cacheKey q = cacheKey q' → q = q'
  cached : ∀ k e, s.cache.get k = some e →
    ∃ q, ColonFree q ∧ k = cacheKey q ∧ FetchedFor p s₀ acts q e
  returned : ∀ r ∈ s.returned, FetchedFor p s₀ acts r.request r.entry
  invalidated : ∀ tenantId platformName s', s.step p (.invalidate tenantId platformName) = some s' →
    s'.cache.entries.Sublist s.cache.entries ∧
    ∀ q, ColonFree q → s'.cache.get (cacheKey q) =
      if Invalidation.covers ⟨s.tick, tenantId, platformName⟩ q then none
      else s.cache.get (cacheKey q)
  bounded : s.cache.size ≤ p.localCacheMaxSize

theorem invalidated_exact {p : ClientParams} {s s' : ConfigClient}
    {tenantId platformName : Option String}
    (h : s.step p (.invalidate tenantId platformName) = some s') :
    s'.cache.entries.Sublist s.cache.entries ∧
    ∀ q, ColonFree q → s'.cache.get (cacheKey q) =
      if Invalidation.covers ⟨s.tick, tenantId, platformName⟩ q then none
      else s.cache.get (cacheKey q) := by
  simp only [ConfigClient.step, ConfigClient.act, Option.map_some, Option.some.injEq] at h
  subst h
  exact ⟨invalidateCache_sublist s.cache tenantId platformName,
    fun q hq => invalidateCache_get hq ⟨s.tick, tenantId, platformName⟩⟩

/-- For every run of calls, fetches, expiries and invalidations in any order, over any tenants and
platforms without a colon: distinct triples have distinct slots, every cached and every returned
config was fetched for the triple it is cached or returned for, an invalidation removes the entries
of the triples it covers and leaves the others as they are, and the cache holds at most
`local_cache_max_size` entries. -/
theorem cache_slots_exact (p : ClientParams) (now : Time) (acts : List ConfigAct) (s : ConfigClient)
    (hrun : Run (ConfigClient.step p) AsksColonFree { now := now } acts s) :
    SlotsExact p { now := now } acts s := by
  have hslots : Slots p (FetchedFor p { now := now } acts) s :=
    Run.along (I := fun acts s => Slots p (FetchedFor p { now := now } acts) s)
      (fun _ _ _ _ hbs hi hok hs => hi.step hbs.exec_eq hok hs) hrun Slots.start
  exact ⟨fun _ _ => cacheKey_injective, hslots.cache, hslots.returned,
    fun _ _ _ => invalidated_exact, hslots.size⟩

/-- Tenants `a:b` and `a` are cached; the entry of `a` is invalidated and that of `a:b` is not. -/
def colonTenants : List ConfigAct :=
  [.start 0 ⟨"a:b", "p", true⟩, .answer 0 demoAnswer, .start 1 ⟨"a", "p", false⟩,
   .answer 1 demoAnswer, .invalidate (some "a") none, .start 2 ⟨"a:b", "p", true⟩]

theorem colon_tenant_survives : ∃ s,
    Run (ConfigClient.step demoClient) AsksColonFree { now := 0 } colonTenants s ∧
    s.cache.keys = ["a:b:p:1"] ∧
    s.returned.map (fun r => (r.request.tenantId, r.entry.fetchedAt)) =
      [("a:b", 0), ("a", 2), ("a:b", 0)] ∧
    SlotsExact demoClient { now := 0 } colonTenants s := by
  have hx : (exec (ConfigClient.step demoClient) { now := 0 } colonTenants).any (fun s => decide
      (s.cache.keys = ["a:b:p:1"] ∧
        s.returned.map (fun r => (r.request.tenantId, r.entry.fetchedAt)) =
          [("a:b", 0), ("a", 2), ("a:b", 0)])) = true := by
    decide +kernel
  obtain ⟨s, hs, hp⟩ := exec_any hx
  obtain ⟨hkeys, hret⟩ := of_decide_eq_true hp
  have hasks : ∀ a ∈ colonTenants, ∀ s, AsksColonFree s a := by
    intro a ha s id request heq
    subst heq
    have hall : ∀ a ∈ colonTenants, (match a with
        | .start _ request => decide (ColonFree request)
        | _ => true) = true := by decide
    exact of_decide_eq_true (hall _ ha)
  have hrun := Run.of_exec_all hasks hs
  exact ⟨s, hrun, hkeys, hret, cache_slots_exact demoClient 0 colonTenants s hrun⟩

end Integrations
end TrShared
