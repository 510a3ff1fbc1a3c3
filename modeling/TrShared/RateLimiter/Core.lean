import Mathlib
import TrShared.RateLimiter.MemoryFallback

/-!
# TrShared.RateLimiter.Core

`RateLimiter` of `rate_limiter/core.py`: `check` runs the algorithm for every window of a config,
with the fallback when Redis is missing or raises; `status` reads the keys of the windows without
writing. Each window has a key of its own, and what a check does there depends on what the key holds
and on the live bucket of the key (`checkWindow_answer`, `checkWindow_entry`).

* `status_agrees_iff`: after any history of checks, `status` right after a `check` agrees with it if
  and only if every window is readable: it counts with the fixed window and its key holds no sorted
  set, up to the cases listed in `Readable`.
* `status_misses_sliding_window`: `status` reads the sorted set of a sliding window with `GET` and
  leaves the window out.
-/

namespace TrShared
namespace RateLimiter

open Machine Python

inductive Algorithm where
  | fixedWindow
  | slidingWindow
  deriving DecidableEq, Repr

inductive FailMode where
  | failOpen
  | failClosed
  deriving DecidableEq, Repr

structure WindowConfig where
  limit : Int := 100
  windowSeconds : Int := 60
  deriving DecidableEq, Repr

structure RateLimitConfig where
  windows : List WindowConfig := [{}]
  algorithm : Algorithm := .fixedWindow
  failMode : FailMode := .failOpen
  deriving DecidableEq, Repr

structure RateLimitInfo where
  results : List RateLimitResult := []
  isBlocked : Bool := false
  deriving DecidableEq, Repr

/-- The limiter with its stores: `redis` is `none` when `_get_redis()` returns `None`, `memory` when
the memory fallback is disabled. -/
structure Limiter where
  redis : Option Redis
  memory : Option MemoryFallback

def windowKey (key : String) (window : WindowConfig) : String :=
  key ++ ":" ++ toString window.windowSeconds ++ "s"

/-- `algorithm.check(...)` at `now`, on both clocks. -/
def Algorithm.check (random : Nat) (now : Time) (r : Redis) (key : String) (window : WindowConfig) :
    Algorithm → Except RedisError (RateLimitResult × Redis)
  | .fixedWindow => fixedWindowCheck r now now key window.limit window.windowSeconds
  | .slidingWindow => slidingWindowCheck random r now now key window.limit window.windowSeconds

namespace Limiter

/-- What `_check_window` does without an answer from Redis. -/
def fallback (s : Limiter) (now : Time) (key : String) (window : WindowConfig) :
    FailMode → RateLimitResult × Limiter
  | .failClosed =>
    ({ allowed := false
       limit := window.limit
       remaining := 0
       resetAt := 0
       retryAfter := window.windowSeconds }, s)
  | .failOpen =>
    match s.memory with
    | some m =>
      let (result, m) := m.check now key window.limit window.windowSeconds
      (result, { s with memory := some m })
    | none =>
      ({ allowed := true, limit := window.limit, remaining := window.limit, resetAt := 0 }, s)

/-- `_check_window`. -/
def checkWindow (random : Nat) (now : Time) (key : String) (cfg : RateLimitConfig)
    (s : Limiter) (window : WindowConfig) : RateLimitResult × Limiter :=
  match s.redis with
  | some r =>
    match cfg.algorithm.check random now r (windowKey key window) window with
    | .ok (result, r) => (result, { s with redis := some r })
    | .error _ => s.fallback now (windowKey key window) window cfg.failMode
  | none => s.fallback now (windowKey key window) window cfg.failMode

def checkWindows (random : Nat) (now : Time) (key : String) (cfg : RateLimitConfig) :
    Limiter → List WindowConfig → List RateLimitResult × Limiter
  | s, [] => ([], s)
  | s, window :: windows =>
    let (result, s) := s.checkWindow random now key cfg window
    let (results, s) := checkWindows random now key cfg s windows
    (result :: results, s)

def check (random : Nat) (now : Time) (s : Limiter) (key : String) (cfg : RateLimitConfig) :
    RateLimitInfo × Limiter :=
  let (results, s) := checkWindows random now key cfg s cfg.windows
  ({ results := results, isBlocked := results.any (fun r => !r.allowed) }, s)

/-- One turn of the loop of `status`; an exception is logged and the window left out. -/
def statusWindow (now : Time) (r : Redis) (key : String) (window : WindowConfig) :
    Option RateLimitResult :=
  match r.get now (windowKey key window) with
  | .error _ => none
  | .ok value =>
    let count := value.getD 0
    let ttl := r.ttl now (windowKey key window)
    some { allowed := !decide (window.limit < count)
           limit := window.limit
           remaining := max 0 (window.limit - count)
           resetAt := truncate now + max ttl 1
           retryAfter := if window.limit < count then max ttl 1 else 0 }

/-- `status`, with the limiter afterwards. -/
def status (now : Time) (s : Limiter) (key : String) (cfg : RateLimitConfig) :
    RateLimitInfo × Limiter :=
  match s.redis with
  | none => ({}, s)
  | some r =>
    let results := cfg.windows.filterMap (statusWindow now r key)
    ({ results := results, isBlocked := results.any (fun r => !r.allowed) }, s)

end Limiter

/-! ## One window -/

/-- What a caller sees of a window: `allowed` and `remaining`. -/
def RateLimitResult.answer (r : RateLimitResult) : Bool × Int := (r.allowed, r.remaining)

/-- The answer that goes with a count. -/
def countAnswer (n limit : Int) : Bool × Int := (decide (n ≤ limit), max 0 (limit - n))

/-- The answer of the fallback: with `failOpen` the outer option is the memory fallback itself, the
inner one its live bucket for the key. -/
def fallbackAnswer (limit : Int) : FailMode → Option (Option Bucket) → Bool × Int
  | .failClosed, _ => (false, 0)
  | .failOpen, none => (true, limit)
  | .failOpen, some none => (true, max 0 (limit - 1))
  | .failOpen, some (some b) =>
    if limit ≤ b.count then (false, 0) else (true, max 0 (limit - (b.count + 1)))

/-- The live bucket of a key, as `fallbackAnswer` takes it. -/
def Limiter.bucket (s : Limiter) (now : Time) (key : String) : Option (Option Bucket) :=
  s.memory.map (fun m => m.live now key)

/-- The answer of a check on one window, from what its key holds and its live bucket. -/
def checkAnswer (random : Nat) (now : Time) (cfg : RateLimitConfig) (window : WindowConfig)
    (e : Option RedisEntry) (b : Option (Option Bucket)) : Bool × Int :=
  match cfg.algorithm, e with
  | .fixedWindow, none => countAnswer 1 window.limit
  | .fixedWindow, some ⟨.counter n, _⟩ => countAnswer (n + 1) window.limit
  | .fixedWindow, some ⟨.zset _, _⟩ => fallbackAnswer window.limit cfg.failMode b
  | .slidingWindow, some ⟨.counter _, _⟩ => fallbackAnswer window.limit cfg.failMode b
  | .slidingWindow, e =>
    countAnswer (windowEntries random (entriesOf e) now window.windowSeconds).length window.limit

/-- What the key of the window holds after the check. -/
def checkEntry (random : Nat) (now : Time) (cfg : RateLimitConfig) (window : WindowConfig)
    (e : Option RedisEntry) : Option RedisEntry :=
  match cfg.algorithm, e with
  | .fixedWindow, none =>
    if window.windowSeconds ≤ 0 then none
    else some ⟨.counter 1, some (now + window.windowSeconds)⟩
  | .fixedWindow, some ⟨.counter n, t⟩ => some ⟨.counter (n + 1), t⟩
  | .fixedWindow, some ⟨.zset z, t⟩ => some ⟨.zset z, t⟩
  | .slidingWindow, some ⟨.counter n, t⟩ => some ⟨.counter n, t⟩
  | .slidingWindow, e =>
    if window.windowSeconds ≤ 0 then none
    else some ⟨.zset (windowEntries random (entriesOf e) now window.windowSeconds),
      some (now + window.windowSeconds)⟩

/-- What `status` makes of the value under a key. -/
def statusAnswer (limit : Int) : Option RedisEntry → Option (Bool × Int)
  | none => some (countAnswer 0 limit)
  | some ⟨.counter n, _⟩ => some (countAnswer n limit)
  | some ⟨.zset _, _⟩ => none

/-- Every counter has counted something. -/
def Counting (r : Redis) : Prop := ∀ k n t, r.slot k = some ⟨.counter n, t⟩ → 1 ≤ n

section OneWindow

variable {random : Nat} {now : Time} {key k : String} {cfg : RateLimitConfig} {s : Limiter}
  {window : WindowConfig} {r : Redis}

theorem windowKey_inj {window' : WindowConfig} (h : windowKey key window = windowKey key window') :
    window.windowSeconds = window'.windowSeconds := by
  simp only [windowKey] at h
  have hl := congrArg String.toList h
  simp only [String.toList_append, List.append_cancel_right_eq, List.append_cancel_left_eq] at hl
  exact Int.repr_injective (String.toList_inj.mp hl)

/-- The counter under a key that a command finds has counted something. -/
theorem Counting.find {n : Int} {t : Option Time} (h : Counting r)
    (hf : r.find now k = some ⟨.counter n, t⟩) : 1 ≤ n :=
  h k n t (Redis.find_eq_some.mp hf).1

/-- A bounded time to live makes the key visible at the moment it is written. -/
theorem visible_put {w : Int} (v : RedisValue) (hw : ¬ w ≤ 0) :
    RedisEntry.visible now ⟨v, some (now + w)⟩ = true := by
  have : (0 : ℚ) ≤ w := by exact_mod_cast (by omega : (0 : Int) ≤ w)
  simp only [RedisEntry.visible, decide_eq_true_eq]
  linarith

/-- What a script leaves under a key it has given a time to live, as Redis shows it. -/
theorem filter_visible_put (w : Int) (v : RedisValue) :
    (if w ≤ 0 then none else some (⟨v, some (now + w)⟩ : RedisEntry)).filter (RedisEntry.visible now) =
      if w ≤ 0 then none else some ⟨v, some (now + w)⟩ := by
  split
  · rfl
  · rename_i hw
    rw [Option.filter_some, if_pos (visible_put v hw)]

/-- A run of an algorithm on the key answers and writes the key, or raises and leaves it to the
fallback. -/
def KeyChecked (random : Nat) (now : Time) (r : Redis) (k : String) (cfg : RateLimitConfig)
    (window : WindowConfig) (b : Option (Option Bucket))
    (outcome : Except RedisError (RateLimitResult × Redis)) : Prop :=
  (∃ result e, outcome = .ok (result, r.put k e) ∧
    result.answer = checkAnswer random now cfg window (r.find now k) b ∧
    e.filter (RedisEntry.visible now) = checkEntry random now cfg window (r.find now k) ∧
    ∀ n t, e = some ⟨.counter n, t⟩ → 1 ≤ n) ∨
  (∃ err, outcome = .error err ∧
    fallbackAnswer window.limit cfg.failMode b =
      checkAnswer random now cfg window (r.find now k) b ∧
    r.find now k = checkEntry random now cfg window (r.find now k))

theorem fixedWindow_checked (hc : Counting r) (ha : cfg.algorithm = .fixedWindow) (random : Nat)
    (now : Time) (k : String) (window : WindowConfig) (b : Option (Option Bucket)) :
    KeyChecked random now r k cfg window b
      (fixedWindowCheck r now now k window.limit window.windowSeconds) := by
  simp only [KeyChecked, checkAnswer, checkEntry, ha]
  rcases hf : r.find now k with _ | ⟨v, t⟩
  · obtain ⟨result, hr, hal, hrem⟩ := fixedWindowCheck_new hf now window.limit window.windowSeconds
    refine .inl ⟨result, _, hr, ?_, ?_, ?_⟩
    · rw [RateLimitResult.answer, hal, hrem]; rfl
    · exact filter_visible_put _ _
    · intro n t he
      split at he
      · cases he
      · cases he; exact le_refl 1
  · cases v with
    | counter n =>
      obtain ⟨result, hr, hal, hrem⟩ :=
        fixedWindowCheck_counter hf (hc.find hf) now window.limit window.windowSeconds
      refine .inl ⟨result, _, hr, ?_, ?_, ?_⟩
      · rw [RateLimitResult.answer, hal, hrem]; rfl
      · have hv : RedisEntry.visible now ⟨.counter (n + 1), t⟩ = true :=
          (Redis.find_eq_some.mp hf).2
        rw [Option.filter_some, if_pos hv]
      · intro m t' he
        have hn := hc.find hf
        cases he
        omega
    | zset z =>
      refine .inr ⟨.wrongType, ?_, rfl, rfl⟩
      rw [fixedWindowCheck, fixedWindowLua_zset hf]

/-- The sliding window on a key that holds no counter. -/
theorem slidingWindow_answers (random : Nat) (hnc : isCounter (r.find now k) = false)
    (window : WindowConfig) :
    ∃ result e, slidingWindowCheck random r now now k window.limit window.windowSeconds =
        .ok (result, r.put k e) ∧
      result.answer = countAnswer (windowEntries random (entriesOf (r.find now k)) now
        window.windowSeconds).length window.limit ∧
      e.filter (RedisEntry.visible now) = (if window.windowSeconds ≤ 0 then none
        else some ⟨.zset (windowEntries random (entriesOf (r.find now k)) now
          window.windowSeconds), some (now + window.windowSeconds)⟩) ∧
      ∀ n t, e = some ⟨.counter n, t⟩ → 1 ≤ n := by
  obtain ⟨result, hr, hal, hrem⟩ := slidingWindowCheck_ok rfl hnc rfl window.limit
  refine ⟨result, _, hr, ?_, ?_, ?_⟩
  · rw [RateLimitResult.answer, hal, hrem]; rfl
  · exact filter_visible_put _ _
  · intro n t he
    split at he <;> cases he

theorem slidingWindow_checked (ha : cfg.algorithm = .slidingWindow) (random : Nat) (now : Time)
    (r : Redis) (k : String) (window : WindowConfig) (b : Option (Option Bucket)) :
    KeyChecked random now r k cfg window b
      (slidingWindowCheck random r now now k window.limit window.windowSeconds) := by
  simp only [KeyChecked, checkAnswer, checkEntry, ha]
  have hok : isCounter (r.find now k) = false → _ :=
    fun hnc => slidingWindow_answers random hnc window
  rcases hf : r.find now k with _ | ⟨v, t⟩
  · rw [hf] at hok
    exact .inl (hok rfl)
  · cases v with
    | counter n =>
      refine .inr ⟨.wrongType, ?_, rfl, rfl⟩
      rw [slidingWindowCheck, slidingWindowLua_counter hf]
    | zset z =>
      rw [hf] at hok
      exact .inl (hok rfl)

/-- What `algorithm.check` does on the key of the window. -/
theorem algorithm_check (hc : Counting r) (random : Nat) (now : Time) (k : String)
    (cfg : RateLimitConfig) (window : WindowConfig) (b : Option (Option Bucket)) :
    KeyChecked random now r k cfg window b (cfg.algorithm.check random now r k window) := by
  cases ha : cfg.algorithm with
  | fixedWindow => exact fixedWindow_checked hc ha random now k window b
  | slidingWindow => exact slidingWindow_checked ha random now r k window b

theorem fallback_redis {fm : FailMode} : (s.fallback now k window fm).2.redis = s.redis := by
  cases fm with
  | failClosed => rfl
  | failOpen =>
    simp only [Limiter.fallback]
    split <;> rfl

theorem fallback_answer {fm : FailMode} : (s.fallback now k window fm).1.answer =
    fallbackAnswer window.limit fm (s.bucket now k) := by
  cases fm with
  | failClosed => rfl
  | failOpen =>
    simp only [Limiter.fallback, Limiter.bucket]
    cases hm : s.memory with
    | none => rfl
    | some m =>
      simp only [Option.map_some, MemoryFallback.check_live]
      cases hl : m.live now k with
      | none => rfl
      | some b =>
        simp only [fallbackAnswer]
        split <;> rfl

theorem fallback_bucket {fm : FailMode} {k' : String} (h : k' ≠ k) :
    (s.fallback now k window fm).2.bucket now k' = s.bucket now k' := by
  cases fm with
  | failClosed => rfl
  | failOpen =>
    simp only [Limiter.fallback]
    cases hm : s.memory with
    | none => simp only [Limiter.bucket, hm]
    | some m =>
      simp only [Limiter.bucket, hm, Option.map_some, MemoryFallback.check_live_of_ne h]

/-- One window of a check, as a change of its own key. -/
structure WindowChecked (random : Nat) (now : Time) (k : String) (cfg : RateLimitConfig)
    (window : WindowConfig) (r : Redis) (s : Limiter) (result : RateLimitResult) (s' : Limiter)
    (r' : Redis) : Prop where
  redis : s'.redis = some r'
  counting : Counting r'
  answer : result.answer = checkAnswer random now cfg window (r.find now k) (s.bucket now k)
  entry : r'.find now k = checkEntry random now cfg window (r.find now k)
  entries : ∀ k', k' ≠ k → r'.find now k' = r.find now k'
  buckets : ∀ k', k' ≠ k → s'.bucket now k' = s.bucket now k'

theorem Counting.put {e : Option RedisEntry} (h : Counting r)
    (he : ∀ n t, e = some ⟨.counter n, t⟩ → 1 ≤ n) : Counting (r.put k e) := by
  intro k' n t hs
  by_cases hk : k' = k
  · subst hk
    rw [Redis.put_slot_self] at hs
    exact he n t hs
  · rw [Redis.put_slot_of_ne e hk] at hs
    exact h k' n t hs

theorem checkWindow_checked (hr : s.redis = some r) (hc : Counting r) (random : Nat) (now : Time)
    (key : String) (cfg : RateLimitConfig) (window : WindowConfig) : ∃ r',
      WindowChecked random now (windowKey key window) cfg window r s
        (s.checkWindow random now key cfg window).1
        (s.checkWindow random now key cfg window).2 r' := by
  obtain ⟨result, e, hcheck, ha, he, hpos⟩ | ⟨err, hcheck, ha, he⟩ :=
    algorithm_check hc random now (windowKey key window) cfg window
      (s.bucket now (windowKey key window))
  · simp only [Limiter.checkWindow, hr, hcheck]
    exact ⟨_, rfl, hc.put hpos, ha, by rw [Redis.find_put_self, he],
      fun k' hk => Redis.find_put_of_ne e hk, fun k' _ => rfl⟩
  · simp only [Limiter.checkWindow, hr, hcheck]
    exact ⟨r, fallback_redis.trans hr, hc, fallback_answer.trans ha, he, fun k' _ => rfl,
      fun k' hk => fallback_bucket hk⟩

end OneWindow

/-! ## All windows -/

section AllWindows

variable {random : Nat} {now : Time} {key : String} {cfg : RateLimitConfig} {s : Limiter} {r : Redis}

/-- The windows of a check do not see each other: every answer, and every value that a key holds
afterwards, comes from what the key and its bucket were before the check. -/
theorem checkWindows_checked (random : Nat) (now : Time) (key : String) (cfg : RateLimitConfig)
    {windows : List WindowConfig} (hd : (windows.map WindowConfig.windowSeconds).Nodup)
    (hr : s.redis = some r) (hc : Counting r) : ∃ r',
    (Limiter.checkWindows random now key cfg s windows).2.redis = some r' ∧ Counting r' ∧
    (Limiter.checkWindows random now key cfg s windows).1.map RateLimitResult.answer =
      windows.map (fun w => checkAnswer random now cfg w (r.find now (windowKey key w))
        (s.bucket now (windowKey key w))) ∧
    (∀ w ∈ windows, r'.find now (windowKey key w) =
      checkEntry random now cfg w (r.find now (windowKey key w))) ∧
    (∀ k, (∀ w ∈ windows, k ≠ windowKey key w) → r'.find now k = r.find now k) := by
  induction windows generalizing s r with
  | nil => exact ⟨r, hr, hc, rfl, fun w hw => (by cases hw), fun k _ => rfl⟩
  | cons w windows ih =>
    rw [List.map_cons, List.nodup_cons] at hd
    obtain ⟨r₁, hw⟩ := checkWindow_checked hr hc random now key cfg w
    obtain ⟨r', hr', hc', hanswers, hentries, hothers⟩ := ih hd.2 hw.redis hw.counting
    have hne : ∀ w' ∈ windows, windowKey key w' ≠ windowKey key w := by
      intro w' hw' heq
      exact hd.1 (List.mem_map.mpr ⟨w', hw', windowKey_inj heq⟩)
    refine ⟨r', hr', hc', ?_, ?_, ?_⟩
    · simp only [Limiter.checkWindows, List.map_cons, hw.answer, hanswers, List.cons.injEq, true_and]
      refine List.map_congr_left ?_
      intro w' hw'
      rw [hw.entries _ (hne w' hw'), hw.buckets _ (hne w' hw')]
    · intro w' hw'
      rcases List.mem_cons.mp hw' with rfl | hw'
      · rw [hothers _ (fun w'' hw'' => (hne w'' hw'').symm), hw.entry]
      · rw [hentries w' hw', hw.entries _ (hne w' hw')]
    · intro k hk
      rw [hothers k (fun w' hw' => hk w' (List.mem_cons_of_mem w hw')),
        hw.entries k (hk w List.mem_cons_self)]

/-- Whatever its windows are, a check leaves Redis there and its counters counting. -/
theorem checkWindows_counting {windows : List WindowConfig} (hr : s.redis = some r)
    (hc : Counting r) : ∃ r', (Limiter.checkWindows random now key cfg s windows).2.redis = some r' ∧
      Counting r' := by
  induction windows generalizing s r with
  | nil => exact ⟨r, hr, hc⟩
  | cons w windows ih =>
    obtain ⟨r₁, hw⟩ := checkWindow_checked hr hc random now key cfg w
    exact ih hw.redis hw.counting

theorem map_eq_filterMap_iff {α β : Type} {f : α → β} {g : α → Option β} {l : List α} :
    l.map f = l.filterMap g ↔ ∀ x ∈ l, g x = some (f x) := by
  induction l with
  | nil => simp
  | cons x l ih =>
    rw [List.map_cons, List.filterMap_cons, List.forall_mem_cons]
    cases hg : g x with
    | none =>
      simp only [reduceCtorEq, false_and, iff_false]
      intro h
      have hlen := congrArg List.length h
      have hle := List.length_filterMap_le g l
      simp only [List.length_cons, List.length_map] at hlen
      omega
    | some y =>
      simp only [List.cons.injEq, Option.some.injEq, ih]
      exact and_congr_left (fun _ => eq_comm)

theorem statusWindow_answer (window : WindowConfig) :
    (Limiter.statusWindow now r key window).map RateLimitResult.answer =
      statusAnswer window.limit (r.find now (windowKey key window)) := by
  simp only [Limiter.statusWindow, Redis.get]
  have hnot : ∀ n : Int, (!decide (window.limit < n)) = decide (n ≤ window.limit) := by
    intro n
    rw [← decide_not, decide_eq_decide, not_lt]
  rcases r.find now (windowKey key window) with _ | ⟨v, t⟩
  · simp only [Option.map_some, RateLimitResult.answer, hnot]
    rfl
  · cases v with
    | counter n =>
      simp only [Option.map_some, RateLimitResult.answer, hnot]
      rfl
    | zset z => rfl

end AllWindows

/-! ## Reading a window back -/

/-- The fallback's answer is the one that goes with the count `n`. -/
def FallbackFits (limit n : Int) : FailMode → Option (Option Bucket) → Prop
  | .failClosed, _ => limit < n
  | .failOpen, none => False
  | .failOpen, some none => n = 1 ∧ 1 ≤ limit
  | .failOpen, some (some b) => if limit ≤ b.count then limit < n else n = b.count + 1

/-- What a window's key and bucket must be before the check for `status` to agree about the window.
The last case and the second one are about windows that Redis forgets at once. -/
def Readable (cfg : RateLimitConfig) (window : WindowConfig) (e : Option RedisEntry)
    (b : Option (Option Bucket)) : Prop :=
  match cfg.algorithm, e with
  | .fixedWindow, some ⟨.counter _, _⟩ => True
  | .fixedWindow, none => 0 < window.windowSeconds ∨ window.limit < 0
  | .fixedWindow, some ⟨.zset _, _⟩ => False
  | .slidingWindow, some ⟨.counter n, _⟩ => FallbackFits window.limit n cfg.failMode b
  | .slidingWindow, _ => window.windowSeconds ≤ 0 ∧ window.limit < 0

theorem countAnswer_eq_iff {n m limit : Int} : countAnswer n limit = countAnswer m limit ↔
    (n ≤ limit ↔ m ≤ limit) ∧ max 0 (limit - n) = max 0 (limit - m) := by
  simp only [countAnswer, Prod.mk.injEq, decide_eq_decide]

/-- A count of zero reads like a positive one only below a negative limit. -/
theorem countAnswer_zero_iff {n limit : Int} (hn : 1 ≤ n) :
    countAnswer 0 limit = countAnswer n limit ↔ limit < 0 := by
  rw [countAnswer_eq_iff]
  omega

theorem fallbackAnswer_iff {limit n : Int} {fm : FailMode} {b : Option (Option Bucket)}
    (hn : 1 ≤ n) : countAnswer n limit = fallbackAnswer limit fm b ↔ FallbackFits limit n fm b := by
  cases fm with
  | failClosed =>
    simp only [countAnswer, fallbackAnswer, FallbackFits, Prod.mk.injEq, decide_eq_false_iff_not]
    omega
  | failOpen =>
    rcases b with _ | _ | b
    · simp only [countAnswer, fallbackAnswer, FallbackFits, Prod.mk.injEq, decide_eq_true_eq,
        iff_false, not_and]
      intro hle
      omega
    · simp only [countAnswer, fallbackAnswer, FallbackFits, Prod.mk.injEq, decide_eq_true_eq]
      omega
    · simp only [countAnswer, fallbackAnswer, FallbackFits]
      by_cases hfull : limit ≤ b.count
      · simp only [if_pos hfull, Prod.mk.injEq, decide_eq_false_iff_not]
        omega
      · simp only [if_neg hfull, Prod.mk.injEq, decide_eq_true_eq]
        omega

theorem one_le_windowEntries {random : Nat} {z : List (Member × Time)} {now : Time} {w : Int} :
    (1 : Int) ≤ (windowEntries random z now w).length := by
  have hpos : 0 < (windowEntries random z now w).length := by
    simp only [windowEntries, zaddEntries]
    split
    · rename_i hany
      rw [List.length_map]
      obtain ⟨e, he, -⟩ := List.any_eq_true.mp hany
      exact List.length_pos_of_mem he
    · simp
  omega

theorem readable_iff {random : Nat} {now : Time} {cfg : RateLimitConfig} {window : WindowConfig}
    {e : Option RedisEntry} {b : Option (Option Bucket)}
    (hn : ∀ n t, e = some ⟨.counter n, t⟩ → 1 ≤ n) :
    statusAnswer window.limit (checkEntry random now cfg window e) =
        some (checkAnswer random now cfg window e b) ↔ Readable cfg window e b := by
  cases ha : cfg.algorithm with
  | fixedWindow =>
    simp only [checkEntry, checkAnswer, Readable, ha]
    rcases e with _ | ⟨v, t⟩
    · simp only
      by_cases hw : window.windowSeconds ≤ 0
      · rw [if_pos hw, statusAnswer, Option.some.injEq, countAnswer_zero_iff (le_refl 1)]
        omega
      · rw [if_neg hw, statusAnswer]
        simp only [true_iff]
        omega
    · cases v with
      | counter n => simp [statusAnswer]
      | zset z => simp [statusAnswer]
  | slidingWindow =>
    simp only [checkEntry, checkAnswer, Readable, ha]
    rcases e with _ | ⟨v, t⟩
    · simp only
      by_cases hw : window.windowSeconds ≤ 0
      · rw [if_pos hw, statusAnswer, Option.some.injEq, countAnswer_zero_iff one_le_windowEntries]
        simp [hw]
      · simp [statusAnswer, hw]
    · cases v with
      | counter n =>
        simp only [statusAnswer, Option.some.injEq]
        exact fallbackAnswer_iff (hn n t rfl)
      | zset z =>
        simp only
        by_cases hw : window.windowSeconds ≤ 0
        · rw [if_pos hw, statusAnswer, Option.some.injEq,
            countAnswer_zero_iff one_le_windowEntries]
          simp [hw]
        · simp [statusAnswer, hw]

/-! ## Status after a check -/

/-- The same verdict, and window by window the same `allowed` and `remaining`. -/
structure Agrees (checked status : RateLimitInfo) : Prop where
  isBlocked : checked.isBlocked = status.isBlocked
  windows : checked.results.map RateLimitResult.answer = status.results.map RateLimitResult.answer

instance (checked status : RateLimitInfo) : Decidable (Agrees checked status) :=
  decidable_of_iff (checked.isBlocked = status.isBlocked ∧
      checked.results.map RateLimitResult.answer = status.results.map RateLimitResult.answer)
    ⟨fun h => ⟨h.1, h.2⟩, fun h => ⟨h.isBlocked, h.windows⟩⟩

/-- What Redis shows under a key. -/
def Limiter.entry (s : Limiter) (now : Time) (key : String) : Option RedisEntry :=
  s.redis.bind (fun r => r.find now key)

theorem any_blocked (results : List RateLimitResult) :
    results.any (fun r => !r.allowed) =
      (results.map RateLimitResult.answer).any (fun a => !a.1) := by
  rw [List.any_map]
  rfl

theorem agrees_iff_readable {random : Nat} {now : Time} {s : Limiter} {r : Redis} {key : String}
    {cfg : RateLimitConfig} (hr : s.redis = some r) (hc : Counting r)
    (hd : (cfg.windows.map WindowConfig.windowSeconds).Nodup) :
    Agrees (s.check random now key cfg).1 ((s.check random now key cfg).2.status now key cfg).1 ↔
      ∀ w ∈ cfg.windows, Readable cfg w (s.entry now (windowKey key w))
        (s.bucket now (windowKey key w)) := by
  obtain ⟨r', hr', -, hanswers, hentries, -⟩ :=
    checkWindows_checked random now key cfg hd hr hc
  have hstatus : ((s.check random now key cfg).2.status now key cfg).1.results.map
      RateLimitResult.answer = cfg.windows.filterMap (fun w =>
        statusAnswer w.limit (checkEntry random now cfg w (r.find now (windowKey key w)))) := by
    simp only [Limiter.check, Limiter.status, hr', List.map_filterMap]
    refine List.filterMap_congr ?_
    intro w hw
    rw [statusWindow_answer, hentries w hw]
  have hwindows : (s.check random now key cfg).1.results.map RateLimitResult.answer =
      ((s.check random now key cfg).2.status now key cfg).1.results.map RateLimitResult.answer ↔
      ∀ w ∈ cfg.windows, Readable cfg w (s.entry now (windowKey key w))
        (s.bucket now (windowKey key w)) := by
    rw [hstatus]
    show (Limiter.checkWindows random now key cfg s cfg.windows).1.map _ = _ ↔ _
    rw [hanswers, map_eq_filterMap_iff]
    refine forall_congr' (fun w => imp_congr_right (fun _ => ?_))
    have hentry : s.entry now (windowKey key w) = r.find now (windowKey key w) := by
      simp [Limiter.entry, hr]
    rw [hentry]
    exact readable_iff (fun n t hf => hc.find hf)
  refine ⟨fun h => hwindows.mp h.windows, fun h => ⟨?_, hwindows.mpr h⟩⟩
  have hsame := hwindows.mpr h
  simp only [Limiter.check, Limiter.status, hr'] at hsame ⊢
  rw [any_blocked, any_blocked, hsame]

theorem status_state (now : Time) (s : Limiter) (key : String) (cfg : RateLimitConfig) :
    (s.status now key cfg).2 = s := by
  simp only [Limiter.status]
  split <;> rfl

/-- A history of checks. -/
structure LimiterRun where
  now : Time
  limiter : Limiter

inductive LimiterAct where
  | tick (dt : Time)
  | check (key : String) (cfg : RateLimitConfig)

def LimiterRun.step (random : Nat) (s : LimiterRun) : LimiterAct → Option LimiterRun
  | .tick dt => if 0 ≤ dt then some { s with now := s.now + dt } else none
  | .check key cfg => some { s with limiter := (s.limiter.check random s.now key cfg).2 }

theorem step_counting {random : Nat} {s s' : LimiterRun} {a : LimiterAct}
    (h : ∃ r, s.limiter.redis = some r ∧ Counting r) (hs : s.step random a = some s') :
    ∃ r, s'.limiter.redis = some r ∧ Counting r := by
  cases a with
  | tick dt =>
    simp only [LimiterRun.step] at hs
    split at hs
    · cases hs; exact h
    · cases hs
  | check key cfg =>
    simp only [LimiterRun.step, Option.some.injEq] at hs
    subst hs
    obtain ⟨r, hr, hc⟩ := h
    exact checkWindows_counting hr hc

/-- For both algorithms, every config with windows of distinct lengths, every key and every history of
checks on an empty Redis that stays available: `status` right after `check` reports the same verdict
and the same windows, and leaves the state as it is, if and only if every window was readable before
the check. -/
theorem status_agrees_iff (random : Nat) (memory : Option MemoryFallback) (now : Time)
    (acts : List LimiterAct) (s : LimiterRun)
    (hrun : Run (LimiterRun.step random) (fun _ _ => True)
      { now := now, limiter := ⟨some {}, memory⟩ } acts s)
    (key : String) (cfg : RateLimitConfig)
    (hd : (cfg.windows.map WindowConfig.windowSeconds).Nodup) :
    (Agrees (s.limiter.check random s.now key cfg).1
        ((s.limiter.check random s.now key cfg).2.status s.now key cfg).1 ∧
      ((s.limiter.check random s.now key cfg).2.status s.now key cfg).2 =
        (s.limiter.check random s.now key cfg).2) ↔
    ∀ w ∈ cfg.windows, Readable cfg w (s.limiter.entry s.now (windowKey key w))
      (s.limiter.bucket s.now (windowKey key w)) := by
  obtain ⟨r, hr, hc⟩ := hrun.invariant
    (I := fun s => ∃ r, s.limiter.redis = some r ∧ Counting r)
    (fun _ _ _ hi _ hs => step_counting hi hs) ⟨{}, rfl, fun k n t h => (by cases h)⟩
  rw [and_iff_left (status_state _ _ _ _)]
  exact agrees_iff_readable hr hc hd

/-- Two calls in ten seconds, five in a minute. -/
def twoWindows : RateLimitConfig := { windows := [⟨2, 10⟩, ⟨5, 60⟩] }

theorem fixed_windows_read_back : ∃ s,
    exec (LimiterRun.step 7) { now := 0, limiter := ⟨some {}, some {}⟩ }
      [.check "k" twoWindows, .tick 4, .check "k" twoWindows, .tick 4] = some s ∧
    Agrees (s.limiter.check 7 s.now "k" twoWindows).1
      ((s.limiter.check 7 s.now "k" twoWindows).2.status s.now "k" twoWindows).1 ∧
    (s.limiter.check 7 s.now "k" twoWindows).1.isBlocked = true ∧
    ∀ w ∈ twoWindows.windows, Readable twoWindows w (s.limiter.entry s.now (windowKey "k" w))
      (s.limiter.bucket s.now (windowKey "k" w)) := by
  have hx : (exec (LimiterRun.step 7) { now := 0, limiter := ⟨some {}, some {}⟩ }
      [.check "k" twoWindows, .tick 4, .check "k" twoWindows, .tick 4]).any (fun s =>
        decide (Agrees (s.limiter.check 7 s.now "k" twoWindows).1
          ((s.limiter.check 7 s.now "k" twoWindows).2.status s.now "k" twoWindows).1 ∧
        (s.limiter.check 7 s.now "k" twoWindows).1.isBlocked = true)) = true := by
    decide +kernel
  obtain ⟨s, hs, hp⟩ := exec_any hx
  obtain ⟨hagrees, hblocked⟩ := of_decide_eq_true hp
  have h := status_agrees_iff 7 (some {}) 0 _ s (Run.of_exec_all (fun _ _ _ => trivial) hs) "k"
    twoWindows (by decide)
  exact ⟨s, hs, hagrees, hblocked, h.mp ⟨hagrees, status_state _ _ _ _⟩⟩

/-- The first check of a sliding window is allowed with 99 calls left; `status` then reports no window
at all, because `GET` raises on the sorted set. -/
theorem status_misses_sliding_window : ¬ ∀ (random : Nat) (memory : Option MemoryFallback)
    (now : Time) (acts : List LimiterAct) (s : LimiterRun),
    Run (LimiterRun.step random) (fun _ _ => True)
      { now := now, limiter := ⟨some {}, memory⟩ } acts s →
    ∀ (key : String) (cfg : RateLimitConfig),
      (cfg.windows.map WindowConfig.windowSeconds).Nodup →
      Agrees (s.limiter.check random s.now key cfg).1
        ((s.limiter.check random s.now key cfg).2.status s.now key cfg).1 := by
  intro h
  have hagrees := h 7 none 0 [] _ .nil "k" { algorithm := .slidingWindow } (by decide)
  revert hagrees
  decide +kernel

end RateLimiter
end TrShared
