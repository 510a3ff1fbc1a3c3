import TrShared.Machine.History
import TrShared.Machine.Run
import TrShared.Python.OrderedDict
import TrShared.RateLimiter.Algorithms

/-!
# TrShared.RateLimiter.MemoryFallback

`MemoryFallback` of `rate_limiter/memory_fallback.py`, and its agreement with the fixed window on
Redis. The answer of a check depends on the live bucket of its key only (`check_live`), and the bulk
cleanup removes no live bucket.

* `fallback_refines_fixed_window`: over every run of checks on any keys, started empty, both limiters
  give the same `allowed` and the same `remaining`. The simulation (`Matches`) ties a live bucket to
  a visible counter with the same end, whose count the bucket follows up to the limit.
-/

namespace TrShared
namespace RateLimiter

open Machine Python

structure Bucket where
  count : Int
  resetTime : Time
  deriving DecidableEq

structure MemoryFallback where
  buckets : OrderedDict String Bucket := {}
  cleanupThreshold : Int := 10000

namespace MemoryFallback

/-- `MemoryFallback(cleanup_threshold)`. -/
def init (cleanupThreshold : Int) : MemoryFallback := { cleanupThreshold := cleanupThreshold }

def cleanupExpired (m : MemoryFallback) (now : Time) : MemoryFallback :=
  { m with buckets := m.buckets.keep (fun _ b => !decide (b.resetTime < now)) }

/-- The periodic cleanup at the head of `check`. -/
def tidy (m : MemoryFallback) (now : Time) : MemoryFallback :=
  if m.cleanupThreshold < (m.buckets.size : Int) then m.cleanupExpired now else m

def setBucket (m : MemoryFallback) (key : String) (b : Bucket) : MemoryFallback :=
  { m with buckets := m.buckets.set key b }

/-- `None`, or a bucket whose time is up: the window starts again. -/
def restart (m : MemoryFallback) (now : Time) (key : String) (limit windowSeconds : Int) :
    RateLimitResult × MemoryFallback :=
  let resetTime := now + windowSeconds
  ({ allowed := true
     limit := limit
     remaining := max 0 (limit - 1)
     resetAt := truncate resetTime }, m.setBucket key ⟨1, resetTime⟩)

def check (m : MemoryFallback) (now : Time) (key : String) (limit windowSeconds : Int) :
    RateLimitResult × MemoryFallback :=
  let m := m.tidy now
  match m.buckets.get key with
  | none => m.restart now key limit windowSeconds
  | some bucket =>
    if bucket.resetTime < now then m.restart now key limit windowSeconds
    else if limit ≤ bucket.count then
      ({ allowed := false
         limit := limit
         remaining := 0
         resetAt := truncate bucket.resetTime
         retryAfter := max 1 (truncate (bucket.resetTime - now)) }, m)
    else
      ({ allowed := true
         limit := limit
         remaining := max 0 (limit - (bucket.count + 1))
         resetAt := truncate bucket.resetTime },
       m.setBucket key { bucket with count := bucket.count + 1 })

/-- The bucket of the key whose window has not passed. -/
def live (m : MemoryFallback) (now : Time) (key : String) : Option Bucket :=
  (m.buckets.get key).filter (fun b => decide (now ≤ b.resetTime))

variable {m : MemoryFallback} {now now' : Time} {key key' : String} {limit w : Int} {b : Bucket}

theorem live_eq_some : m.live now key = some b ↔ m.buckets.get key = some b ∧ now ≤ b.resetTime := by
  simp [live, Option.filter_eq_some_iff]

theorem tidy_live : (m.tidy now).live now key = m.live now key := by
  simp only [tidy]
  split
  · simp only [live, cleanupExpired, OrderedDict.get_keep, Option.filter_filter]
    congr 1
    funext b
    by_cases h : b.resetTime < now
    · simp [h, not_le.mpr h]
    · simp [h, not_lt.mp h]
  · rfl

theorem setBucket_live_self : (m.setBucket key b).live now key =
    if now ≤ b.resetTime then some b else none := by
  simp [live, setBucket, Option.filter_some]

theorem setBucket_live_of_ne (h : key' ≠ key) :
    (m.setBucket key b).live now key' = m.live now key' := by
  simp [live, setBucket, OrderedDict.get_set_of_ne h]

/-- Time takes buckets away and brings none. -/
theorem live_mono (h : now ≤ now') :
    m.live now' key = (m.live now key).filter (fun b => decide (now' ≤ b.resetTime)) := by
  simp only [live, Option.filter_filter]
  congr 1
  funext b
  by_cases hb : now' ≤ b.resetTime
  · simp [hb, le_trans h hb]
  · simp [hb]

/-- `check` in terms of the live bucket. -/
theorem check_live : m.check now key limit w =
    match m.live now key with
    | none => (m.tidy now).restart now key limit w
    | some bucket =>
      if limit ≤ bucket.count then
        ({ allowed := false
           limit := limit
           remaining := 0
           resetAt := truncate bucket.resetTime
           retryAfter := max 1 (truncate (bucket.resetTime - now)) }, m.tidy now)
      else
        ({ allowed := true
           limit := limit
           remaining := max 0 (limit - (bucket.count + 1))
           resetAt := truncate bucket.resetTime },
         (m.tidy now).setBucket key { bucket with count := bucket.count + 1 }) := by
  rw [← tidy_live (m := m), live, check]
  cases hb : (m.tidy now).buckets.get key with
  | none => rfl
  | some bucket =>
    by_cases hlt : bucket.resetTime < now
    · simp only [if_pos hlt, Option.filter_some, decide_eq_true_eq, if_neg (not_le.mpr hlt)]
    · simp only [if_neg hlt, Option.filter_some, decide_eq_true_eq, if_pos (not_lt.mp hlt)]

theorem restart_live_of_ne (h : key' ≠ key) :
    (m.restart now key limit w).2.live now key' = m.live now key' :=
  setBucket_live_of_ne h

/-- A check leaves the live buckets of the other keys alone. -/
theorem check_live_of_ne (h : key' ≠ key) :
    (m.check now key limit w).2.live now key' = m.live now key' := by
  rw [check_live]
  split
  · rw [restart_live_of_ne h, tidy_live]
  · split
    · exact tidy_live
    · rw [setBucket_live_of_ne h, tidy_live]

end MemoryFallback

/-! ## The fallback refines the fixed window -/

/-- The limit and the window of each key. -/
structure Limits where
  limit : String → Int
  window : String → Int
  one_le_limit : ∀ key, 1 ≤ limit key
  one_le_window : ∀ key, 1 ≤ window key

/-- The two limiters side by side, and what they answered. -/
structure BothRun where
  now : Time
  redis : Redis := {}
  memory : MemoryFallback := {}
  log : List (Except RedisError RateLimitResult × RateLimitResult) := []

inductive BothAct where
  | tick (dt : Time)
  | check (key : String)
  deriving DecidableEq

/-- The same check on both. -/
def BothRun.check (p : Limits) (s : BothRun) (key : String) : BothRun :=
  let (inMemory, memory) := s.memory.check s.now key (p.limit key) (p.window key)
  match fixedWindowCheck s.redis s.now s.now key (p.limit key) (p.window key) with
  | .ok (onRedis, redis) =>
    { s with redis := redis, memory := memory, log := s.log ++ [(.ok onRedis, inMemory)] }
  | .error e => { s with memory := memory, log := s.log ++ [(.error e, inMemory)] }

def BothRun.step (p : Limits) (s : BothRun) : BothAct → Option BothRun
  | .tick dt => if 0 ≤ dt then some { s with now := s.now + dt } else none
  | .check key => some (s.check p key)

/-- A bucket stands for a counter that ends with it and that it follows up to the limit. -/
def Matches (limit : Int) : Option Bucket → Option RedisEntry → Prop
  | none, none => True
  | some b, some e =>
    ∃ n, e = ⟨.counter n, some b.resetTime⟩ ∧ 1 ≤ n ∧ b.count = min n limit
  | _, _ => False

theorem Matches.filter {limit : Int} {b : Option Bucket} {e : Option RedisEntry} {now : Time}
    (h : Matches limit b e) :
    Matches limit (b.filter (fun b => decide (now ≤ b.resetTime)))
      (e.filter (RedisEntry.visible now)) := by
  cases b with
  | none =>
    cases e with
    | none => trivial
    | some e => exact h.elim
  | some b =>
    cases e with
    | none => exact h.elim
    | some e =>
      obtain ⟨n, rfl, hn, hc⟩ := h
      have hvis : RedisEntry.visible now ⟨.counter n, some b.resetTime⟩ =
          decide (now ≤ b.resetTime) := rfl
      rw [Option.filter_some, Option.filter_some, hvis]
      cases decide (now ≤ b.resetTime) with
      | true => exact ⟨n, rfl, hn, hc⟩
      | false => trivial

/-- The two answers to one check. -/
def SameAnswer (onRedis : Except RedisError RateLimitResult) (inMemory : RateLimitResult) : Prop :=
  ∃ result, onRedis = .ok result ∧ result.allowed = inMemory.allowed ∧
    result.remaining = inMemory.remaining

structure Simulates (p : Limits) (s : BothRun) : Prop where
  keys : ∀ key, Matches (p.limit key) (s.memory.live s.now key) (s.redis.find s.now key)
  answers : ∀ e ∈ s.log, SameAnswer e.1 e.2

section Simulation

variable {p : Limits} {s s' : BothRun}

theorem Simulates.start {now : Time} {threshold : Int} :
    Simulates p ({ now := now, memory := { cleanupThreshold := threshold } } : BothRun) where
  keys _ := trivial
  answers e he := by cases he

theorem Simulates.tick {dt : Time} (h : Simulates p s) (hdt : 0 ≤ dt) :
    Simulates p { s with now := s.now + dt } where
  keys key := by
    have hle : s.now ≤ s.now + dt := by linarith
    show Matches _ (s.memory.live (s.now + dt) key) (s.redis.find (s.now + dt) key)
    rw [MemoryFallback.live_mono hle, Redis.find_mono hle]
    exact (h.keys key).filter
  answers := h.answers

/-- One check, told by what it does to the key and by the two answers. -/
theorem Simulates.answered {key : String} {onRedis : RateLimitResult} {e : Option RedisEntry}
    (h : Simulates p s)
    (hr : fixedWindowCheck s.redis s.now s.now key (p.limit key) (p.window key) =
      .ok (onRedis, s.redis.put key e))
    (hm : Matches (p.limit key)
      ((s.memory.check s.now key (p.limit key) (p.window key)).2.live s.now key)
      (e.filter (RedisEntry.visible s.now)))
    (ha : onRedis.allowed =
      (s.memory.check s.now key (p.limit key) (p.window key)).1.allowed)
    (hn : onRedis.remaining =
      (s.memory.check s.now key (p.limit key) (p.window key)).1.remaining) :
    Simulates p (s.check p key) := by
  simp only [BothRun.check, hr]
  constructor
  · intro key'
    show Matches _ (MemoryFallback.live _ s.now key') ((s.redis.put key e).find s.now key')
    by_cases hk : key' = key
    · subst hk
      rw [Redis.find_put_self]
      exact hm
    · rw [MemoryFallback.check_live_of_ne hk, Redis.find_put_of_ne e hk]
      exact h.keys key'
  · intro x hx
    rcases mem_snoc hx with hx | rfl
    · exact h.answers x hx
    · exact ⟨onRedis, rfl, ha, hn⟩

/-- A key that is new to both gets a window that starts now. -/
theorem Simulates.checkNew {key : String} (h : Simulates p s)
    (hb : s.memory.live s.now key = none) (he : s.redis.find s.now key = none) :
    Simulates p (s.check p key) := by
  have hl := p.one_le_limit key
  have hw := p.one_le_window key
  have hc : s.memory.check s.now key (p.limit key) (p.window key) = _ := MemoryFallback.check_live
  rw [hb] at hc
  obtain ⟨result, hr, ha, hn⟩ := fixedWindowCheck_new he s.now (p.limit key) (p.window key)
  rw [if_neg (by omega)] at hr
  have hlater : s.now ≤ s.now + p.window key := by
    have : (0 : ℚ) ≤ p.window key := by exact_mod_cast (by omega : (0 : Int) ≤ p.window key)
    linarith
  refine h.answered hr ?_ ?_ ?_
  · rw [hc]
    simp only [MemoryFallback.restart, MemoryFallback.setBucket_live_self, if_pos hlater,
      Option.filter_some, RedisEntry.visible, decide_eq_true hlater, if_true]
    exact ⟨1, rfl, le_refl 1, by rw [min_eq_left hl]⟩
  · rw [ha, hc]
    simp [MemoryFallback.restart, hl]
  · rw [hn, hc]
    simp [MemoryFallback.restart]

/-- A live bucket beside its counter: below the limit both count on, at the limit the bucket stays
and only the counter goes on. -/
theorem Simulates.checkLive {key : String} {b : Bucket} {n : Int} (h : Simulates p s)
    (hb : s.memory.live s.now key = some b)
    (he : s.redis.find s.now key = some ⟨.counter n, some b.resetTime⟩) (hn1 : 1 ≤ n)
    (hcount : b.count = min n (p.limit key)) : Simulates p (s.check p key) := by
  have hc : s.memory.check s.now key (p.limit key) (p.window key) = _ := MemoryFallback.check_live
  rw [hb] at hc
  obtain ⟨result, hr, ha, hn⟩ := fixedWindowCheck_counter he hn1 s.now (p.limit key) (p.window key)
  have hlive := (MemoryFallback.live_eq_some.mp hb).2
  have hvis : RedisEntry.visible s.now ⟨.counter (n + 1), some b.resetTime⟩ = true :=
    decide_eq_true hlive
  by_cases hfull : p.limit key ≤ b.count
  · have hpast : p.limit key ≤ n := by
      rw [hcount] at hfull
      exact le_trans hfull (min_le_left _ _)
    simp only [if_pos hfull] at hc
    refine h.answered hr ?_ ?_ ?_
    · rw [hc, MemoryFallback.tidy_live, hb, Option.filter_some, if_pos hvis]
      refine ⟨n + 1, rfl, by omega, ?_⟩
      rw [hcount, min_eq_right hpast, min_eq_right (by omega)]
    · rw [ha, hc, decide_eq_false (by omega)]
    · rw [hn, hc, max_eq_left (by omega)]
  · have hless : n < p.limit key := by
      by_contra hge
      rw [hcount, min_eq_right (not_lt.mp hge)] at hfull
      exact hfull (le_refl _)
    have hbn : b.count = n := by rw [hcount, min_eq_left (le_of_lt hless)]
    simp only [if_neg hfull] at hc
    refine h.answered hr ?_ ?_ ?_
    · rw [hc, MemoryFallback.setBucket_live_self, if_pos hlive, Option.filter_some, if_pos hvis]
      refine ⟨n + 1, rfl, by omega, ?_⟩
      rw [min_eq_left (by omega), hbn]
    · rw [ha, hc, decide_eq_true (by omega)]
    · rw [hn, hc, hbn]

theorem Simulates.check (h : Simulates p s) (key : String) : Simulates p (s.check p key) := by
  have hkey := h.keys key
  cases hb : s.memory.live s.now key with
  | none =>
    cases he : s.redis.find s.now key with
    | none => exact h.checkNew hb he
    | some e => rw [hb, he] at hkey; exact hkey.elim
  | some b =>
    cases he : s.redis.find s.now key with
    | none => rw [hb, he] at hkey; exact hkey.elim
    | some e =>
      rw [hb, he] at hkey
      obtain ⟨n, rfl, hn1, hcount⟩ := hkey
      exact h.checkLive hb he hn1 hcount

theorem Simulates.step {a : BothAct} (h : Simulates p s) (hs : s.step p a = some s') :
    Simulates p s' := by
  cases a with
  | tick dt =>
    simp only [BothRun.step] at hs
    split at hs
    · cases hs; exact h.tick ‹_›
    · cases hs
  | check key =>
    simp only [BothRun.step, Option.some.injEq] at hs
    subst hs
    exact h.check key

end Simulation

/-- For every run of checks on any keys at non-decreasing times, with a limit and a window of at least
one for each key: the fallback, started empty with any cleanup threshold, and the fixed window on an
empty Redis give the same `allowed` and the same `remaining` at every step. -/
theorem fallback_refines_fixed_window (p : Limits) (now : Time) (threshold : Int)
    (acts : List BothAct) (s : BothRun)
    (hrun : Run (BothRun.step p) (fun _ _ => True)
      { now := now, memory := { cleanupThreshold := threshold } } acts s) :
    ∀ e ∈ s.log, SameAnswer e.1 e.2 :=
  (hrun.invariant (fun _ _ _ hi _ hs => Simulates.step hi hs) Simulates.start).answers

/-- One call in ten seconds for every key. -/
def oneInTen : Limits := ⟨fun _ => 1, fun _ => 10, fun _ => by decide, fun _ => by decide⟩

/-- The second call is blocked by both; after the window both let the next one through. -/
theorem both_block_the_second_call : ∃ s,
    exec (BothRun.step oneInTen) { now := 0, memory := { cleanupThreshold := 0 } }
      [.check "a", .tick 10, .check "a", .check "b", .tick 1, .check "a"] = some s ∧
    s.log.map (fun e => e.2.allowed) = [true, false, true, true] ∧
    ∀ e ∈ s.log, SameAnswer e.1 e.2 := by
  have hx : (exec (BothRun.step oneInTen) { now := 0, memory := { cleanupThreshold := 0 } }
      [.check "a", .tick 10, .check "a", .check "b", .tick 1, .check "a"]).any
        (fun s => decide (s.log.map (fun e => e.2.allowed) = [true, false, true, true])) = true := by
    decide +kernel
  obtain ⟨s, hs, hlog⟩ := exec_any hx
  exact ⟨s, hs, of_decide_eq_true hlog, fallback_refines_fixed_window oneInTen 0 0 _ s
    (Run.of_exec_all (fun _ _ _ => trivial) hs)⟩

end RateLimiter
end TrShared
