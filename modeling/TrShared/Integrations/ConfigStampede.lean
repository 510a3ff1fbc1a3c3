import TrShared.Integrations.ConfigClient

/-!
# TrShared.Integrations.ConfigStampede

How many fetches of one config can be in flight. A fetch runs under the lock of its key, but a
successful fetch takes that lock out of the registry while other calls wait on it, so a waiter may
wake with a lock that nobody else will find.

* `one_fetch_at_a_time`: in every run in which no call that wakes with such a lock misses the cache,
  at most one fetch is in flight for each request.
* `abandoned_lock_lets_two_fetch`: without the condition two are.
-/

namespace TrShared
namespace Integrations

open Machine Python Http

/-- At most one fetch in flight for each `(tenant_id, platform_name, include_secrets)`. -/
def OneFetch (s : ConfigClient) : Prop :=
  ∀ id id' request startedAt startedAt' lock lock' fetchedAt fetchedAt',
    s.calls id = some ⟨request, startedAt, .fetching lock fetchedAt⟩ →
    s.calls id' = some ⟨request, startedAt', .fetching lock' fetchedAt'⟩ → id = id'

/-- What the law asks of a step: a call that wakes with a lock that is no longer the registered one of
its key finds the config in the cache. -/
def Sheltered (s : ConfigClient) (a : ConfigAct) : Prop :=
  ∀ id request startedAt lock, a = .wake id →
    s.calls id = some ⟨request, startedAt, .waiting lock⟩ →
    s.registry.get (cacheKey request) ≠ some lock →
    ∃ entry, s.cache.get (cacheKey request) = some entry ∧ ¬ entry.expiresAt < s.now

def CallPhase.lock : CallPhase → Nat
  | .waiting lock => lock
  | .fetching lock _ => lock

/-- Every fetch holds the registered lock of its key, and locks that are not there yet are not
used. -/
structure Locked (s : ConfigClient) : Prop where
  holds : ∀ id request startedAt lock fetchedAt,
    s.calls id = some ⟨request, startedAt, .fetching lock fetchedAt⟩ →
    (s.locks lock).holder = some id ∧ s.registry.get (cacheKey request) = some lock
  used : ∀ id call, s.calls id = some call → call.phase.lock < s.nextLock
  registered : ∀ key lock, s.registry.get key = some lock → lock < s.nextLock

section Locked

variable {p : ClientParams} {s s₁ s' : ConfigClient} {id lock startedAt fetchedAt : Nat}
  {request : ConfigRequest}

theorem Locked.start {now : Time} : Locked ({ now := now } : ConfigClient) where
  holds id request startedAt lock fetchedAt h := by cases h
  used id call h := by cases h
  registered key lock h := by cases h

theorem Locked.oneFetch (h : Locked s) : OneFetch s := by
  intro id id' request startedAt startedAt' lock lock' fetchedAt fetchedAt' hc hc'
  obtain ⟨hh, hr⟩ := h.holds id request startedAt lock fetchedAt hc
  obtain ⟨hh', hr'⟩ := h.holds id' request startedAt' lock' fetchedAt' hc'
  obtain rfl : lock = lock' := Option.some.inj (hr.symm.trans hr')
  exact Option.some.inj (hh.symm.trans hh')

/-- Fields the invariant does not read may change. -/
theorem Locked.congr (h : Locked s) (hcalls : s'.calls = s.calls) (hlocks : s'.locks = s.locks)
    (hreg : s'.registry = s.registry) (hnext : s'.nextLock = s.nextLock) : Locked s' where
  holds id request startedAt lock fetchedAt hc := by
    rw [hcalls] at hc
    rw [hlocks, hreg]
    exact h.holds id request startedAt lock fetchedAt hc
  used id call hc := by rw [hcalls] at hc; rw [hnext]; exact h.used id call hc
  registered key lock hr := by rw [hreg] at hr; rw [hnext]; exact h.registered key lock hr

/-- A step of the call `id` that rewrites its lock and keeps the registry: the other fetches hold
other locks, so the new state is as good as what the call does next. -/
theorem Locked.update {l : Lock} {call : Option Call} (h : Locked s)
    (hlock : ∀ id' request startedAt fetchedAt, id' ≠ id →
      s.calls id' = some ⟨request, startedAt, .fetching lock fetchedAt⟩ → l.holder = some id')
    (hnew : ∀ request startedAt lock' fetchedAt,
      call = some ⟨request, startedAt, .fetching lock' fetchedAt⟩ →
      lock' = lock ∧ l.holder = some id ∧ s.registry.get (cacheKey request) = some lock)
    (hused : ∀ c, call = some c → c.phase.lock < s.nextLock) :
    Locked ((s.setLock lock l).setCall id call) := by
  refine ⟨?_, ?_, h.registered⟩
  · intro id' request startedAt lock' fetchedAt hc
    simp only [ConfigClient.setCall, ConfigClient.setLock] at hc ⊢
    by_cases hid : id' = id
    · subst hid
      rw [Function.update_self] at hc
      obtain ⟨rfl, hh, hr⟩ := hnew request startedAt lock' fetchedAt hc
      rw [Function.update_self]
      exact ⟨hh, hr⟩
    · rw [Function.update_of_ne hid] at hc
      obtain ⟨hh, hr⟩ := h.holds id' request startedAt lock' fetchedAt hc
      refine ⟨?_, hr⟩
      by_cases hl : lock' = lock
      · subst hl
        rw [Function.update_self]
        exact hlock id' request startedAt fetchedAt hid hc
      · rw [Function.update_of_ne hl]
        exact hh
  · intro id' c hc
    simp only [ConfigClient.setCall, ConfigClient.setLock] at hc ⊢
    by_cases hid : id' = id
    · subst hid
      rw [Function.update_self] at hc
      exact hused c hc
    · rw [Function.update_of_ne hid] at hc
      exact h.used id' c hc

/-- The call ends and leaves the lock to no one. -/
theorem Locked.leave {l : Lock} (h : Locked s)
    (hlock : ∀ id' request startedAt fetchedAt, id' ≠ id →
      s.calls id' = some ⟨request, startedAt, .fetching lock fetchedAt⟩ → l.holder = some id') :
    Locked ((s.setLock lock l).setCall id none) :=
  h.update hlock (fun _ _ _ _ hc => by cases hc) (fun _ hc => by cases hc)

/-- Nobody fetches under a lock that is free. -/
theorem Locked.not_fetching (h : Locked s) (hfree : (s.locks lock).holder = none) (id' : Nat) :
    s.calls id' ≠ some ⟨request, startedAt, .fetching lock fetchedAt⟩ := by
  intro hc
  have := (h.holds id' request startedAt lock fetchedAt hc).1
  rw [hfree] at this
  cases this

/-- Nobody else fetches under the lock of a fetch. -/
theorem Locked.not_fetching_of_ne {id' startedAt' fetchedAt' : Nat} {request' : ConfigRequest}
    (h : Locked s) (hc : s.calls id = some ⟨request, startedAt, .fetching lock fetchedAt⟩)
    (hne : id' ≠ id) :
    s.calls id' ≠ some ⟨request', startedAt', .fetching lock fetchedAt'⟩ := by
  intro hc'
  have hh := (h.holds id request startedAt lock fetchedAt hc).1
  have hh' := (h.holds id' request' startedAt' lock fetchedAt' hc').1
  exact hne (Option.some.inj (hh'.symm.trans hh))

theorem Locked.enters (h : Locked s) (hfree : (s.locks lock).holder = none)
    (hused : lock < s.nextLock)
    (hreg : (∃ cache, getFromCache s.cache s.now (cacheKey request) = (none, cache)) →
      s.registry.get (cacheKey request) = some lock)
    (he : Enters p s id request startedAt lock s') : Locked s' := by
  have hother : ∀ (l : Lock) id' request startedAt fetchedAt, id' ≠ id →
      s.calls id' = some ⟨request, startedAt, .fetching lock fetchedAt⟩ → l.holder = some id' :=
    fun l id' _ _ _ _ hc => absurd hc (h.not_fetching hfree id')
  cases he with
  | hit _ _ => exact (h.leave (hother _)).congr rfl rfl rfl rfl
  | @rejected cache b e hm =>
    have hs : Locked { s with cache := cache, breaker := b } := h.congr rfl rfl rfl rfl
    exact (hs.leave (hother _)).congr rfl rfl rfl rfl
  | @fetch cache b hm =>
    have hs : Locked { s with cache := cache, breaker := b } := h.congr rfl rfl rfl rfl
    refine hs.update (hother _) ?_ ?_
    · intro _ _ _ _ hc
      cases hc
      exact ⟨rfl, rfl, hreg ⟨cache, hm⟩⟩
    · intro c hc
      cases hc
      exact hused

/-- The lock of a key is registered, new ones are free, and the invariant does not notice. -/
theorem Locked.lockOf {key : String} (h : Locked s) (hl : s.lockOf key = (lock, s₁)) :
    Locked s₁ ∧ s₁.registry.get key = some lock ∧ lock < s₁.nextLock := by
  simp only [ConfigClient.lockOf] at hl
  split at hl
  · rename_i hr
    cases hl
    exact ⟨h, hr, h.registered key _ hr⟩
  · rename_i hr
    cases hl
    refine ⟨⟨?_, ?_, ?_⟩, OrderedDict.get_set_self, Nat.lt_succ_self _⟩
    · intro id' request startedAt lock' fetchedAt hc
      obtain ⟨hh, hreg⟩ := h.holds id' request startedAt lock' fetchedAt hc
      have hne : lock' ≠ s.nextLock := Nat.ne_of_lt (h.used id' _ hc)
      have hkey : cacheKey request ≠ key := by
        rintro rfl
        rw [hr] at hreg
        cases hreg
      exact ⟨by simpa [Function.update_of_ne hne] using hh,
        by simpa [OrderedDict.get_set_of_ne hkey] using hreg⟩
    · intro id' c hc
      exact Nat.lt_succ_of_lt (h.used id' c hc)
    · intro key' lock' hr'
      by_cases hk : key' = key
      · subst hk
        rw [OrderedDict.get_set_self] at hr'
        cases hr'
        exact Nat.lt_succ_self _
      · rw [OrderedDict.get_set_of_ne hk] at hr'
        exact Nat.lt_succ_of_lt (h.registered key' lock' hr')

/-- A successful fetch takes the lock of its key out of the registry: no other fetch relies on it. -/
theorem Locked.unregister (h : Locked s)
    (hc : s.calls id = some ⟨request, startedAt, .fetching lock fetchedAt⟩) :
    Locked ((({ s with registry := s.registry.erase (cacheKey request) } : ConfigClient).setLock lock
      { s.locks lock with holder := none }).setCall id none) := by
  obtain ⟨hh, hr⟩ := h.holds id request startedAt lock fetchedAt hc
  have hended : Locked ((s.setLock lock { s.locks lock with holder := none }).setCall id none) :=
    h.leave (fun id' _ _ _ hne hc' => absurd hc' (h.not_fetching_of_ne hc hne))
  refine ⟨?_, hended.used, ?_⟩
  · intro id' request' startedAt' lock' fetchedAt' hc'
    obtain ⟨hh', hr'⟩ := hended.holds id' request' startedAt' lock' fetchedAt' hc'
    refine ⟨hh', ?_⟩
    have hkey : cacheKey request' ≠ cacheKey request := by
      intro hkey
      have hr'' : s.registry.get (cacheKey request') = some lock' := hr'
      rw [hkey, hr] at hr''
      cases hr''
      simp only [ConfigClient.setCall, ConfigClient.setLock, Function.update_self] at hh'
      cases hh'
    show (s.registry.erase (cacheKey request)).get (cacheKey request') = some lock'
    rw [OrderedDict.get_erase_of_ne hkey]
    exact hr'
  · intro key lock' hr'
    have : s.registry.get key = some lock' := by
      by_cases hk : key = cacheKey request
      · subst hk
        have hnone : (s.registry.erase (cacheKey request)).get (cacheKey request) = some lock' := hr'
        rw [OrderedDict.get_erase_self] at hnone
        cases hnone
      · have hsome : (s.registry.erase (cacheKey request)).get key = some lock' := hr'
        rwa [OrderedDict.get_erase_of_ne hk] at hsome
    exact h.registered key lock' this

theorem Locked.setWaiters (h : Locked s) (lock : Nat) (waiters : List Nat) :
    Locked (s.setLock lock { s.locks lock with waiters := waiters }) := by
  refine ⟨?_, h.used, h.registered⟩
  intro id' request startedAt lock' fetchedAt hc
  obtain ⟨hh, hr⟩ := h.holds id' request startedAt lock' fetchedAt hc
  refine ⟨?_, hr⟩
  simp only [ConfigClient.setLock]
  by_cases hl : lock' = lock
  · subst hl
    rw [Function.update_self]
    exact hh
  · rw [Function.update_of_ne hl]
    exact hh

theorem Locked.quit (h : Locked s) (id : Nat) : Locked (s.setCall id none) := by
  have hs : Locked ((s.setLock 0 (s.locks 0)).setCall id none) :=
    h.leave (fun id' request startedAt fetchedAt _ hc =>
      (h.holds id' request startedAt 0 fetchedAt hc).1)
  exact hs.congr rfl (by simp [ConfigClient.setLock, ConfigClient.setCall]) rfl rfl

/-- A live entry is a hit. -/
theorem getFromCache_of_live {cache : ConfigCache} {now : Time} {key : String}
    {entry : CachedConfig} (hget : cache.get key = some entry) (hlive : ¬ entry.expiresAt < now) :
    getFromCache cache now key = (some entry, cache) := by
  simp only [getFromCache, hget, if_neg hlive]

theorem Locked.wake {waiters : List Nat} (h : Locked s) (hok : Sheltered s (.wake id))
    (hc : s.calls id = some ⟨request, startedAt, .waiting lock⟩)
    (hl : s.locks lock = ⟨none, id :: waiters⟩)
    (he : Enters p (s.setLock lock ⟨none, waiters⟩) id request startedAt lock s') : Locked s' := by
  have hs : Locked (s.setLock lock ⟨none, waiters⟩) := by
    have := h.setWaiters lock waiters
    rwa [hl] at this
  have hused : lock < s.nextLock := h.used id _ hc
  refine hs.enters ?_ hused ?_ he
  · simp [ConfigClient.setLock]
  · rintro ⟨cache, hm⟩
    by_contra hne
    obtain ⟨entry, hget, hlive⟩ := hok id request startedAt lock rfl hc hne
    have hhit : getFromCache s.cache s.now (cacheKey request) = (none, cache) := hm
    rw [getFromCache_of_live hget hlive] at hhit
    cases hhit

theorem Locked.step {a : ConfigAct} (h : Locked s) (hok : Sheltered s a)
    (hs : s.step p a = some s') : Locked s' := by
  obtain ⟨s₁, hs₁, rfl⟩ := configStep_of_step hs
  suffices hl : Locked s₁ from hl.congr rfl rfl rfl rfl
  cases hs₁ with
  | advance _ => exact h.congr rfl rfl rfl rfl
  | startHit _ _ _ => exact (h.quit _).congr rfl rfl rfl rfl
  | @startEnter id lock request cache s₂ _ _ _ hl hfree he =>
    have hcache : Locked { s with cache := cache } := h.congr rfl rfl rfl rfl
    obtain ⟨hs₂, hreg, hused⟩ := hcache.lockOf hl
    exact hs₂.enters (by rw [hfree]) hused (fun _ => hreg) he
  | @startWait id lock request cache s₂ _ _ hl =>
    have hcache : Locked { s with cache := cache } := h.congr rfl rfl rfl rfl
    obtain ⟨hs₂, -, hused⟩ := hcache.lockOf hl
    refine hs₂.update ?_ ?_ ?_
    · intro id' request' startedAt' fetchedAt' _ hc
      exact (hs₂.holds id' request' startedAt' lock fetchedAt' hc).1
    · intro _ _ _ _ hc; cases hc
    · intro c hc; cases hc; exact hused
  | wake hc hl he => exact h.wake hok hc hl he
  | @failed _ id lock _ _ _ b _ hc =>
    have hb : Locked { s with breaker := b } := h.congr rfl rfl rfl rfl
    have hleft : Locked ((ConfigClient.setLock { s with breaker := b } lock
        { s.locks lock with holder := none }).setCall id none) :=
      hb.leave (fun id' _ _ _ hne hc' => absurd hc' (h.not_fetching_of_ne hc hne))
    exact hleft.congr rfl rfl rfl rfl
  | cached hc _ _ => exact (h.unregister hc).congr rfl rfl rfl rfl
  | @cancelWaiting id lock _ _ hc =>
    have hleft : Locked ((s.setLock lock { s.locks lock with
        waiters := (s.locks lock).waiters.erase id }).setCall id none) :=
      (h.setWaiters lock _).quit id
    exact hleft.congr rfl rfl rfl rfl
  | invalidate => exact h.congr rfl rfl rfl rfl
  | otherCall => exact h.congr rfl rfl rfl rfl

end Locked

/-- For every run of calls on any keys, with invalidations, evictions, expiries, cancellations and any
answers: if every call that wakes with a lock that is no longer registered for its key finds its
config in the cache, at most one fetch is in flight for each request at any moment. -/
theorem one_fetch_at_a_time (p : ClientParams) (now : Time) (acts : List ConfigAct)
    (s : ConfigClient) (hrun : Run (ConfigClient.step p) Sheltered { now := now } acts s) :
    OneFetch s :=
  (hrun.invariant (fun _ _ _ hi hok hs => Locked.step hi hok hs) Locked.start).oneFetch

/-- `Sheltered` as a check of one step. -/
def shelteredCheck (s : ConfigClient) : ConfigAct → Bool
  | .wake id =>
    match s.calls id with
    | some ⟨request, _, .waiting lock⟩ =>
      decide (s.registry.get (cacheKey request) = some lock) ||
        (s.cache.get (cacheKey request)).any (fun entry => !decide (entry.expiresAt < s.now))
    | _ => true
  | _ => true

theorem shelteredCheck_sound {s : ConfigClient} {a : ConfigAct} (h : shelteredCheck s a = true) :
    Sheltered s a := by
  rintro id request startedAt lock rfl hc hne
  simp only [shelteredCheck, hc, Bool.or_eq_true, decide_eq_true_eq] at h
  rcases h with h | h
  · exact absurd h hne
  · rw [Option.any_eq_true] at h
    obtain ⟨entry, hget, hlive⟩ := h
    exact ⟨entry, hget, by simpa using hlive⟩

/-- Call 1 waits for the fetch of call 0 and finds its config. -/
theorem waiter_finds_config : ∃ s,
    Run (ConfigClient.step demoClient) Sheltered { now := 0 }
      [.start 0 ⟨"t", "p", true⟩, .start 1 ⟨"t", "p", true⟩,
       .answer 0 demoAnswer, .wake 1, .start 2 ⟨"t", "q", true⟩] s ∧
    s.returned.map (fun r => r.entry.fetchedAt) = [0, 0] ∧ OneFetch s := by
  have hx : (exec (Run.guarded (ConfigClient.step demoClient) shelteredCheck) { now := 0 }
      [.start 0 ⟨"t", "p", true⟩, .start 1 ⟨"t", "p", true⟩,
       .answer 0 demoAnswer, .wake 1, .start 2 ⟨"t", "q", true⟩]).any
        (fun s => decide (s.returned.map (fun r => r.entry.fetchedAt) = [0, 0])) = true := by
    decide +kernel
  obtain ⟨s, hs, hret⟩ := exec_any hx
  have hrun : Run (ConfigClient.step demoClient) Sheltered { now := 0 } _ s :=
    Run.of_guarded (I := fun _ => True) (fun _ _ _ _ _ _ => trivial)
      (fun _ _ _ h => shelteredCheck_sound h) trivial hs
  exact ⟨s, hrun, of_decide_eq_true hret, one_fetch_at_a_time demoClient 0 _ s hrun⟩

/-- Call 1 waits for the fetch of call 0; the cache is invalidated before it wakes, so it fetches under
the lock that call 0 took out of the registry, while call 2 fetches under a new one. -/
theorem abandoned_lock_lets_two_fetch : ¬ ∀ (p : ClientParams) (now : Time)
    (acts : List ConfigAct) (s : ConfigClient),
    Run (ConfigClient.step p) (fun _ _ => True) { now := now } acts s → OneFetch s := by
  intro h
  have hx : (exec (ConfigClient.step demoClient) { now := 0 }
      [.start 0 ⟨"t", "p", true⟩, .start 1 ⟨"t", "p", true⟩,
       .answer 0 demoAnswer, .invalidate none none, .wake 1,
       .start 2 ⟨"t", "p", true⟩]).any (fun s =>
        decide (s.calls 1 = some ⟨⟨"t", "p", true⟩, 1, .fetching 0 4⟩ ∧
          s.calls 2 = some ⟨⟨"t", "p", true⟩, 5, .fetching 1 5⟩)) = true := by
    decide +kernel
  obtain ⟨s, hs, hcalls⟩ := exec_any hx
  obtain ⟨h₁, h₂⟩ := of_decide_eq_true hcalls
  have hone := h demoClient 0 _ s (Run.of_exec_all (fun _ _ _ => trivial) hs)
  exact absurd (hone 1 2 _ _ _ _ _ _ _ h₁ h₂) (by decide)

end Integrations
end TrShared
