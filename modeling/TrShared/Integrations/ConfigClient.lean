import TrShared.Integrations.FetchConfig
import TrShared.Machine.Shared
import TrShared.Python.OrderedDict

/-!
# TrShared.Integrations.ConfigClient

`IntegrationConfigClient.get_config` and `invalidate_cache` of `integrations/config_client.py`, with
any number of calls in flight. A call suspends in two places only, on the lock of its key and on the
request to the admin panel; everything between is one step. The locks are `asyncio.Lock`: first come
first served, and a call finds them through the registry `_locks`, from which a successful fetch
removes the lock of its key while other calls may still wait on it.

Every step has a number. A cached config carries the number of the step in which its fetch started,
and a call that of its own start; they are for the statements and the code reads neither.

`ConfigStep` lists what a step does; `configStep_of_step` says that this is all.
-/

namespace TrShared
namespace Integrations

open Machine Python Http

structure ClientParams where
  breaker : BreakerConfig := { failureThreshold := 5, recoveryTimeout := 30 }
  localCacheTtl : Nat := 1800
  localCacheMaxSize : Nat := 500
  validate : Validate

/-- The arguments of `get_config`. -/
structure ConfigRequest where
  tenantId : String
  platformName : String
  includeSecrets : Bool := false
  deriving DecidableEq

/-- `_cache_key`. -/
def cacheKey (q : ConfigRequest) : String :=
  q.tenantId ++ ":" ++ q.platformName ++ ":" ++ if q.includeSecrets then "1" else "0"

/-- The text before and after the last colon. -/
def splitLast (l : List Char) : Option (List Char × List Char) :=
  match l.reverse.dropWhile (· ≠ ':') with
  | [] => none
  | _ :: front => some (front.reverse, (l.reverse.takeWhile (· ≠ ':')).reverse)

/-- `_key_matches`: `key.rsplit(":", 2)` has three parts, and the first two are what was asked for. -/
def keyMatches (key : String) (tenantId platformName : Option String) : Bool :=
  match splitLast key.toList with
  | none => false
  | some (front, _) =>
    match splitLast front with
    | none => false
    | some (keyTenant, keyPlatform) =>
      (match tenantId with
        | some t => decide (String.ofList keyTenant = t)
        | none => true) &&
      (match platformName with
        | some p => decide (String.ofList keyPlatform = p)
        | none => true)

structure CachedConfig where
  expiresAt : Time
  config : IntegrationConfig
  /-- The step in which the fetch of this config started. -/
  fetchedAt : Nat

abbrev ConfigCache := OrderedDict String CachedConfig

/-- `_get_from_cache`: the entry, and the cache without an entry that has expired. -/
def getFromCache (cache : ConfigCache) (now : Time) (key : String) :
    Option CachedConfig × ConfigCache :=
  match cache.get key with
  | none => (none, cache)
  | some entry => if entry.expiresAt < now then (none, cache.erase key) else (some entry, cache)

/-- `_put_in_cache`; `none` when `next(iter(...))` raises on an empty cache of size zero. -/
def putInCache (p : ClientParams) (cache : ConfigCache) (now : Time) (key : String)
    (config : IntegrationConfig) (fetchedAt : Nat) : Option ConfigCache :=
  let entry : CachedConfig := ⟨now + p.localCacheTtl, config, fetchedAt⟩
  if p.localCacheMaxSize ≤ cache.size then
    match cache.oldest with
    | none => none
    | some oldest => some ((cache.erase oldest).set key entry)
  else some (cache.set key entry)

/-- `invalidate_cache`. -/
def invalidateCache (cache : ConfigCache) (tenantId platformName : Option String) : ConfigCache :=
  if tenantId = none ∧ platformName = none then {}
  else cache.keep (fun key _ => !keyMatches key tenantId platformName)

/-- An `asyncio.Lock`. -/
structure Lock where
  holder : Option Nat := none
  waiters : List Nat := []
  deriving DecidableEq

inductive CallPhase where
  /-- Waiting for this lock. -/
  | waiting (lock : Nat)
  /-- Holding this lock, with the fetch that started in this step under way. -/
  | fetching (lock fetchedAt : Nat)
  deriving DecidableEq

structure Call where
  request : ConfigRequest
  startedAt : Nat
  phase : CallPhase
  deriving DecidableEq

inductive GetConfigError where
  | fetch (e : FetchError)
  | cancelled
  /-- `RuntimeError`: `_put_in_cache` found nothing to evict. -/
  | nothingToEvict
  deriving DecidableEq

/-- A call that has returned a config. -/
structure Returned where
  request : ConfigRequest
  startedAt : Nat
  entry : CachedConfig

structure Invalidation where
  number : Nat
  tenantId : Option String
  platformName : Option String
  deriving DecidableEq

structure ConfigClient where
  now : Time
  /-- The number of the next step. -/
  tick : Nat := 0
  cache : ConfigCache := {}
  /-- `_locks`. -/
  registry : OrderedDict String Nat := {}
  locks : Nat → Lock := fun _ => {}
  nextLock : Nat := 0
  breaker : CircuitBreaker := {}
  calls : Nat → Option Call := fun _ => none
  returned : List Returned := []
  raised : List (ConfigRequest × GetConfigError) := []
  invalidations : List Invalidation := []

inductive ConfigAct where
  | advance (dt : Time)
  | start (id : Nat) (request : ConfigRequest)
  | wake (id : Nat)
  | answer (id : Nat) (a : FetchAnswer)
  | cancel (id : Nat)
  | invalidate (tenantId platformName : Option String)
  /-- `get_enabled_tenants` uses the same breaker. -/
  | otherCall (k : BreakerCall)

namespace ConfigClient

def setLock (s : ConfigClient) (lock : Nat) (l : Lock) : ConfigClient :=
  { s with locks := Function.update s.locks lock l }

def setCall (s : ConfigClient) (id : Nat) (call : Option Call) : ConfigClient :=
  { s with calls := Function.update s.calls id call }

def release (s : ConfigClient) (lock : Nat) : ConfigClient :=
  s.setLock lock { s.locks lock with holder := none }

def returns (s : ConfigClient) (id : Nat) (request : ConfigRequest) (startedAt : Nat)
    (entry : CachedConfig) : ConfigClient :=
  { s.setCall id none with returned := s.returned ++ [⟨request, startedAt, entry⟩] }

def raises (s : ConfigClient) (id : Nat) (request : ConfigRequest) (e : GetConfigError) :
    ConfigClient :=
  { s.setCall id none with raised := s.raised ++ [(request, e)] }

/-- The body of `async with`, up to the request: the second look at the cache, then the breaker. -/
def enter (p : ClientParams) (s : ConfigClient) (id : Nat) (request : ConfigRequest)
    (startedAt lock : Nat) : ConfigClient :=
  let s := s.setLock lock { s.locks lock with holder := some id }
  match getFromCache s.cache s.now (cacheKey request) with
  | (some entry, cache) =>
    ({ s with cache := cache }.release lock).returns id request startedAt entry
  | (none, cache) =>
    match beginFetch p.breaker s.breaker s.now with
    | (.error e, b) =>
      ({ s with cache := cache, breaker := b }.release lock).raises id request (.fetch e)
    | (.ok (), b) =>
      { s with cache := cache, breaker := b }.setCall id
        (some ⟨request, startedAt, .fetching lock s.tick⟩)

/-- `self._locks[cache_key]` of a `defaultdict`. -/
def lockOf (s : ConfigClient) (key : String) : Nat × ConfigClient :=
  match s.registry.get key with
  | some lock => (lock, s)
  | none =>
    (s.nextLock, { s with
      registry := s.registry.set key s.nextLock
      locks := Function.update s.locks s.nextLock {}
      nextLock := s.nextLock + 1 })

def start (p : ClientParams) (s : ConfigClient) (id : Nat) (request : ConfigRequest) :
    ConfigClient :=
  match getFromCache s.cache s.now (cacheKey request) with
  | (some entry, cache) => { s with cache := cache }.returns id request s.tick entry
  | (none, cache) =>
    let (lock, s) := { s with cache := cache }.lockOf (cacheKey request)
    if s.locks lock = ⟨none, []⟩ then s.enter p id request s.tick lock
    else
      (s.setLock lock { s.locks lock with waiters := (s.locks lock).waiters ++ [id] }).setCall id
        (some ⟨request, s.tick, .waiting lock⟩)

/-- The end of a fetch. A config is cached and the lock leaves the registry. -/
def answer (p : ClientParams) (s : ConfigClient) (id : Nat) (call : Call) (lock fetchedAt : Nat)
    (a : FetchAnswer) : ConfigClient :=
  let q := call.request
  match finishFetch p.breaker p.validate q.tenantId q.platformName s.breaker s.now a with
  | (.error e, b) => ({ s with breaker := b }.release lock).raises id q (.fetch e)
  | (.ok config, b) =>
    match putInCache p s.cache s.now (cacheKey q) config fetchedAt with
    | none => ({ s with breaker := b }.release lock).raises id q .nothingToEvict
    | some cache =>
      ({ s with
          breaker := b
          cache := cache
          registry := s.registry.erase (cacheKey q) }.release lock).returns id q call.startedAt
        ⟨s.now + p.localCacheTtl, config, fetchedAt⟩

def act (p : ClientParams) (s : ConfigClient) : ConfigAct → Option ConfigClient
  | .advance dt => if 0 ≤ dt then some { s with now := s.now + dt } else none
  | .start id request =>
    match s.calls id with
    | none => some (s.start p id request)
    | some _ => none
  | .wake id =>
    match s.calls id with
    | some ⟨request, startedAt, .waiting lock⟩ =>
      match s.locks lock with
      | ⟨none, first :: waiters⟩ =>
        if first = id then
          some ((s.setLock lock ⟨none, waiters⟩).enter p id request startedAt lock)
        else none
      | _ => none
    | _ => none
  | .answer id a =>
    match s.calls id with
    | some ⟨request, startedAt, .fetching lock fetchedAt⟩ =>
      some (s.answer p id ⟨request, startedAt, .fetching lock fetchedAt⟩ lock fetchedAt a)
    | _ => none
  | .cancel id =>
    match s.calls id with
    | some ⟨request, _, .waiting lock⟩ =>
      some ((s.setLock lock { s.locks lock with
        waiters := (s.locks lock).waiters.erase id }).raises id request .cancelled)
    | some ⟨request, _, .fetching lock _⟩ => some ((s.release lock).raises id request .cancelled)
    | none => none
  | .invalidate tenantId platformName =>
    some { s with
      cache := invalidateCache s.cache tenantId platformName
      invalidations := s.invalidations ++ [⟨s.tick, tenantId, platformName⟩] }
  | .otherCall k => some { s with breaker := (k.apply p.breaker s.breaker s.now).2 }

/-- One step, with its number. -/
def step (p : ClientParams) (s : ConfigClient) (a : ConfigAct) : Option ConfigClient :=
  (s.act p a).map (fun s' => { s' with tick := s.tick + 1 })

end ConfigClient

/-- A client whose payloads all validate to one config. -/
def demoClient : ClientParams :=
  { validate := fun _ => .ok ⟨"1", "t", "p", "crm", [], true⟩ }

def demoAnswer : FetchAnswer := .response 200 (some (.obj []))

/-! ## What a step does -/

section Steps

variable {p : ClientParams} {s s' : ConfigClient}

/-- The second look and what follows, by the call `id` that takes the free lock. -/
inductive Enters (p : ClientParams) (s : ConfigClient) (id : Nat) (request : ConfigRequest)
    (startedAt lock : Nat) : ConfigClient → Prop where
  | hit {entry : CachedConfig} : s.cache.get (cacheKey request) = some entry →
      ¬ entry.expiresAt < s.now →
      Enters p s id request startedAt lock
        ((s.setLock lock { s.locks lock with holder := none }).returns id request startedAt entry)
  | rejected {cache : ConfigCache} {b : CircuitBreaker} {e : FetchError} :
      getFromCache s.cache s.now (cacheKey request) = (none, cache) →
      Enters p s id request startedAt lock
        (({ s with cache := cache, breaker := b }.setLock lock
          { s.locks lock with holder := none }).raises id request (.fetch e))
  | fetch {cache : ConfigCache} {b : CircuitBreaker} :
      getFromCache s.cache s.now (cacheKey request) = (none, cache) →
      Enters p s id request startedAt lock
        (({ s with cache := cache, breaker := b }.setLock lock
          { s.locks lock with holder := some id }).setCall id
            (some ⟨request, startedAt, .fetching lock s.tick⟩))

theorem getFromCache_hit {cache cache' : ConfigCache} {now : Time} {key : String}
    {entry : CachedConfig} (h : getFromCache cache now key = (some entry, cache')) :
    cache' = cache ∧ cache.get key = some entry ∧ ¬ entry.expiresAt < now := by
  simp only [getFromCache] at h
  split at h
  · cases h
  · rename_i e he
    split at h
    · cases h
    · cases h; exact ⟨rfl, he, ‹_›⟩

/-- A look at the cache removes entries and adds none. -/
theorem getFromCache_miss {cache cache' : ConfigCache} {now : Time} {key : String}
    (h : getFromCache cache now key = (none, cache')) {k : String} {e : CachedConfig}
    (he : cache'.get k = some e) : cache.get k = some e := by
  simp only [getFromCache] at h
  split at h
  · cases h; exact he
  · split at h
    · cases h
      by_cases hk : k = key
      · subst hk; rw [OrderedDict.get_erase_self] at he; cases he
      · rwa [OrderedDict.get_erase_of_ne hk] at he
    · cases h

theorem enters_enter (id : Nat) (request : ConfigRequest) (startedAt lock : Nat) :
    Enters p s id request startedAt lock (s.enter p id request startedAt lock) := by
  rcases hc : getFromCache s.cache s.now (cacheKey request) with ⟨_ | entry, cache⟩
  · rcases hb : beginFetch p.breaker s.breaker s.now with ⟨_ | _, b⟩
    · simpa [ConfigClient.enter, ConfigClient.setLock, ConfigClient.release, hc, hb] using
        Enters.rejected hc
    · simpa [ConfigClient.enter, ConfigClient.setLock, hc, hb] using Enters.fetch hc
  · obtain ⟨rfl, hget, hlive⟩ := getFromCache_hit hc
    simpa [ConfigClient.enter, ConfigClient.setLock, ConfigClient.release, hc] using
      Enters.hit hget hlive

/-- What an action does, up to the number of the step. -/
inductive ConfigStep (p : ClientParams) (s : ConfigClient) : ConfigAct → ConfigClient → Prop where
  | advance {dt : Time} : 0 ≤ dt → ConfigStep p s (.advance dt) { s with now := s.now + dt }
  | startHit {id : Nat} {request : ConfigRequest} {entry : CachedConfig} : s.calls id = none →
      s.cache.get (cacheKey request) = some entry → ¬ entry.expiresAt < s.now →
      ConfigStep p s (.start id request) (s.returns id request s.tick entry)
  | startEnter {id lock : Nat} {request : ConfigRequest} {cache : ConfigCache}
      {s₁ s' : ConfigClient} : s.calls id = none →
      getFromCache s.cache s.now (cacheKey request) = (none, cache) →
      { s with cache := cache }.lockOf (cacheKey request) = (lock, s₁) →
      s₁.locks lock = ⟨none, []⟩ → Enters p s₁ id request s₁.tick lock s' →
      ConfigStep p s (.start id request) s'
  | startWait {id lock : Nat} {request : ConfigRequest} {cache : ConfigCache}
      {s₁ : ConfigClient} : s.calls id = none →
      getFromCache s.cache s.now (cacheKey request) = (none, cache) →
      { s with cache := cache }.lockOf (cacheKey request) = (lock, s₁) →
      ConfigStep p s (.start id request)
        ((s₁.setLock lock { s₁.locks lock with waiters := (s₁.locks lock).waiters ++ [id] }).setCall
          id (some ⟨request, s₁.tick, .waiting lock⟩))
  | wake {id lock startedAt : Nat} {request : ConfigRequest} {waiters : List Nat}
      {s' : ConfigClient} : s.calls id = some ⟨request, startedAt, .waiting lock⟩ →
      s.locks lock = ⟨none, id :: waiters⟩ →
      Enters p (s.setLock lock ⟨none, waiters⟩) id request startedAt lock s' →
      ConfigStep p s (.wake id) s'
  | failed {a : ConfigAct} {id lock startedAt fetchedAt : Nat} {request : ConfigRequest}
      {b : CircuitBreaker} {e : GetConfigError} :
      s.calls id = some ⟨request, startedAt, .fetching lock fetchedAt⟩ →
      ConfigStep p s a (({ s with breaker := b }.release lock).raises id request e)
  | cached {id lock startedAt fetchedAt : Nat} {request : ConfigRequest} {a : FetchAnswer}
      {b : CircuitBreaker} {config : IntegrationConfig} {cache : ConfigCache} :
      s.calls id = some ⟨request, startedAt, .fetching lock fetchedAt⟩ →
      finishFetch p.breaker p.validate request.tenantId request.platformName s.breaker s.now a =
        (.ok config, b) →
      putInCache p s.cache s.now (cacheKey request) config fetchedAt = some cache →
      ConfigStep p s (.answer id a)
        (({ s with
            breaker := b
            cache := cache
            registry := s.registry.erase (cacheKey request) }.release lock).returns id request
          startedAt ⟨s.now + p.localCacheTtl, config, fetchedAt⟩)
  | cancelWaiting {id lock startedAt : Nat} {request : ConfigRequest} :
      s.calls id = some ⟨request, startedAt, .waiting lock⟩ →
      ConfigStep p s (.cancel id)
        ((s.setLock lock { s.locks lock with
          waiters := (s.locks lock).waiters.erase id }).raises id request .cancelled)
  | invalidate {tenantId platformName : Option String} :
      ConfigStep p s (.invalidate tenantId platformName) { s with
        cache := invalidateCache s.cache tenantId platformName
        invalidations := s.invalidations ++ [⟨s.tick, tenantId, platformName⟩] }
  | otherCall {k : BreakerCall} :
      ConfigStep p s (.otherCall k) { s with breaker := (k.apply p.breaker s.breaker s.now).2 }

theorem configStep_start {id : Nat} {request : ConfigRequest} (hc : s.calls id = none) :
    ConfigStep p s (.start id request) (s.start p id request) := by
  rcases hm : getFromCache s.cache s.now (cacheKey request) with ⟨_ | entry, cache⟩
  · rcases hl : ConfigClient.lockOf { s with cache := cache } (cacheKey request) with ⟨lock, s₁⟩
    by_cases hfree : s₁.locks lock = ⟨none, []⟩
    · simpa [ConfigClient.start, hm, hl, hfree] using
        ConfigStep.startEnter hc hm hl hfree (enters_enter id request s₁.tick lock)
    · simpa [ConfigClient.start, hm, hl, hfree] using ConfigStep.startWait hc hm hl
  · obtain ⟨rfl, hget, hlive⟩ := getFromCache_hit hm
    simpa [ConfigClient.start, hm] using ConfigStep.startHit hc hget hlive

theorem configStep_answer {id lock startedAt fetchedAt : Nat} {request : ConfigRequest}
    {a : FetchAnswer} (hc : s.calls id = some ⟨request, startedAt, .fetching lock fetchedAt⟩) :
    ConfigStep p s (.answer id a)
      (s.answer p id ⟨request, startedAt, .fetching lock fetchedAt⟩ lock fetchedAt a) := by
  rcases hf : finishFetch p.breaker p.validate request.tenantId request.platformName s.breaker
    s.now a with ⟨e | config, b⟩
  · simpa [ConfigClient.answer, hf] using ConfigStep.failed hc
  · cases hp : putInCache p s.cache s.now (cacheKey request) config fetchedAt with
    | none => simpa [ConfigClient.answer, hf, hp] using ConfigStep.failed hc
    | some cache => simpa [ConfigClient.answer, hf, hp] using ConfigStep.cached hc hf hp

theorem configStep_of_step {a : ConfigAct} (h : s.step p a = some s') :
    ∃ s₁, ConfigStep p s a s₁ ∧ s' = { s₁ with tick := s.tick + 1 } := by
  simp only [ConfigClient.step, Option.map_eq_some_iff] at h
  obtain ⟨s₁, h, rfl⟩ := h
  refine ⟨s₁, ?_, rfl⟩
  cases a with
  | advance dt =>
    simp only [ConfigClient.act] at h
    split at h
    · cases h; exact .advance ‹_›
    · cases h
  | start id request =>
    simp only [ConfigClient.act] at h
    split at h
    · cases h; exact configStep_start ‹_›
    · cases h
  | wake id =>
    simp only [ConfigClient.act] at h
    split at h
    · rename_i request startedAt lock hc
      split at h
      · rename_i first waiters hl
        split at h
        · rename_i hfirst
          subst hfirst
          cases h
          exact .wake hc hl (enters_enter first request startedAt lock)
        · cases h
      · cases h
    · cases h
  | answer id a =>
    simp only [ConfigClient.act] at h
    split at h
    · cases h; exact configStep_answer ‹_›
    · cases h
  | cancel id =>
    simp only [ConfigClient.act] at h
    split at h
    · cases h; exact .cancelWaiting ‹_›
    · cases h; exact .failed (b := s.breaker) ‹_›
    · cases h
  | invalidate tenantId platformName =>
    simp only [ConfigClient.act, Option.some.injEq] at h
    subst h
    exact .invalidate
  | otherCall k =>
    simp only [ConfigClient.act, Option.some.injEq] at h
    subst h
    exact .otherCall

end Steps

end Integrations
end TrShared
