import Mathlib.Data.Int.Log
import TrShared.RateLimiter.Redis

/-!
# TrShared.RateLimiter.Algorithms

The two Lua scripts of `rate_limiter/lua_scripts.py`, as one atomic command each, and the algorithms
of `rate_limiter/algorithms.py` on top of them. A script is run at a moment of the server's clock;
the sliding window also gets the caller's timestamp.

* `fixedWindowLua_counter`, `fixedWindowLua_new`, `fixedWindowLua_zset` and
  `slidingWindowLua_ok`, `slidingWindowLua_counter` say what each script does to each kind of value.
-/

namespace TrShared
namespace RateLimiter

structure RateLimitResult where
  allowed : Bool
  limit : Int
  remaining : Int
  resetAt : Int
  retryAfter : Int := 0
  deriving DecidableEq, Repr

/-- `int(x)`: towards zero. -/
def truncate (x : ℚ) : Int := if 0 ≤ x then ⌊x⌋ else ⌈x⌉

/-- The nearest integer, ties to even. -/
def roundHalfEven (x : ℚ) : Int :=
  let d := x - ⌊x⌋
  if d < 1 / 2 ∨ (d = 1 / 2 ∧ ⌊x⌋ % 2 = 0) then ⌊x⌋ else ⌊x⌋ + 1

/-- The number that Lua's `..` prints (`%.14g`): 14 significant digits. -/
def sig14 (x : ℚ) : ℚ :=
  if x = 0 then 0
  else
    let scale : ℚ := 10 ^ (13 - Int.log 10 |x|)
    roundHalfEven (x * scale) / scale

/-- `FIXED_WINDOW_LUA`: the count, whether it is over the limit, and the time to live. -/
def fixedWindowLua (r : Redis) (clock : Time) (key : String) (limit ttl : Int) :
    Except RedisError ((Int × Int × Int) × Redis) :=
  match r.incr clock key with
  | .error e => .error e
  | .ok (count, r) =>
    let r := if count = 1 then r.expire clock key ttl else r
    .ok ((count, if limit < count then 1 else 0, r.ttl clock key), r)

/-- `SLIDING_WINDOW_LUA`: the count and whether it is over the limit. `random` is what
`math.random(1000000)` returns, the same on every run of the script. -/
def slidingWindowLua (random : Nat) (r : Redis) (clock : Time) (key : String) (now : Time)
    (windowSize limit : Int) : Except RedisError ((Int × Int) × Redis) := do
  let r ← r.zremrangebyscore clock key 0 (now - windowSize)
  let r ← r.zadd clock key now ⟨sig14 now, random⟩
  let count ← r.zcard clock key
  -- `math.ceil` changes nothing on a whole number of seconds
  let r := r.expire clock key windowSize
  return ((count, if limit < count then 1 else 0), r)

/-- `FixedWindowAlgorithm.check`; `now` is what `time.time()` returns after the script. -/
def fixedWindowCheck (r : Redis) (clock now : Time) (key : String) (limit windowSeconds : Int) :
    Except RedisError (RateLimitResult × Redis) :=
  match fixedWindowLua r clock key limit windowSeconds with
  | .error e => .error e
  | .ok ((count, isOver, ttl), r) =>
    .ok ({ allowed := !decide (isOver ≠ 0)
           limit := limit
           remaining := max 0 (limit - count)
           resetAt := truncate now + max ttl 1
           retryAfter := if isOver ≠ 0 then max 1 ttl else 0 }, r)

/-- `SlidingWindowAlgorithm.check`; `now` is what `time.time()` returned before the script. -/
def slidingWindowCheck (random : Nat) (r : Redis) (clock now : Time) (key : String)
    (limit windowSeconds : Int) : Except RedisError (RateLimitResult × Redis) :=
  match slidingWindowLua random r clock key now windowSeconds limit with
  | .error e => .error e
  | .ok ((count, isOver), r) =>
    .ok ({ allowed := !decide (isOver ≠ 0)
           limit := limit
           remaining := max 0 (limit - count)
           resetAt := truncate now + windowSeconds
           retryAfter := if isOver ≠ 0 then windowSeconds else 0 }, r)

/-! ## What the scripts do -/

section Scripts

variable {r : Redis} {clock now : Time} {key : String} {limit w : Int} {random : Nat}

/-- The entries of a sorted set that `ZREMRANGEBYSCORE key 0 hi` keeps. -/
def keptEntries (z : List (Member × Time)) (hi : Time) : List (Member × Time) :=
  z.filter (fun e => !decide (0 ≤ e.2 ∧ e.2 ≤ hi))

/-- The sorted set under the key; a key that is not there is an empty one. -/
def entriesOf : Option RedisEntry → List (Member × Time)
  | some ⟨.zset z, _⟩ => z
  | _ => []

def isCounter : Option RedisEntry → Bool
  | some ⟨.counter _, _⟩ => true
  | _ => false

/-- The entries after one run of the script at timestamp `now`. -/
def windowEntries (random : Nat) (z : List (Member × Time)) (now : Time) (w : Int) :
    List (Member × Time) :=
  zaddEntries (keptEntries z (now - w)) now ⟨sig14 now, random⟩

theorem fixedWindowLua_zset {z : List (Member × Time)} {t : Option Time}
    (h : r.find clock key = some ⟨.zset z, t⟩) :
    fixedWindowLua r clock key limit w = .error .wrongType := by
  simp [fixedWindowLua, Redis.incr, h]

theorem fixedWindowLua_counter {n : Int} {t : Option Time}
    (h : r.find clock key = some ⟨.counter n, t⟩) (hn : 1 ≤ n) {r' : Redis}
    (hr : r' = r.put key (some ⟨.counter (n + 1), t⟩)) :
    fixedWindowLua r clock key limit w =
      .ok ((n + 1, if limit < n + 1 then 1 else 0, r'.ttl clock key), r') := by
  have hne : n + 1 ≠ 1 := by omega
  subst hr
  simp only [fixedWindowLua, Redis.incr, h, if_neg hne]

theorem fixedWindowLua_new (h : r.find clock key = none) {r' : Redis}
    (hr : r' = r.put key (if w ≤ 0 then none else some ⟨.counter 1, some (clock + w)⟩)) :
    fixedWindowLua r clock key limit w =
      .ok ((1, if limit < 1 then 1 else 0, r'.ttl clock key), r') := by
  have hf : (r.put key (some ⟨.counter 1, none⟩)).find clock key = some ⟨.counter 1, none⟩ := by
    rw [Redis.find_put_self]; rfl
  subst hr
  simp only [fixedWindowLua, Redis.incr, h, if_true, Redis.expire_of_find hf, Redis.put_put]

/-- The algorithm on a counter: it counts on, also past the limit. -/
theorem fixedWindowCheck_counter {n : Int} {t : Option Time}
    (h : r.find clock key = some ⟨.counter n, t⟩) (hn : 1 ≤ n) (now : Time) (limit w : Int) :
    ∃ result, fixedWindowCheck r clock now key limit w =
        .ok (result, r.put key (some ⟨.counter (n + 1), t⟩)) ∧
      result.allowed = decide (n + 1 ≤ limit) ∧ result.remaining = max 0 (limit - (n + 1)) := by
  refine ⟨_, by rw [fixedWindowCheck, fixedWindowLua_counter h hn rfl], ?_, rfl⟩
  by_cases hle : n + 1 ≤ limit
  · simp [hle, not_lt.mpr hle]
  · simp [hle, not_le.mp hle]

theorem fixedWindowCheck_new (h : r.find clock key = none) (now : Time) (limit w : Int) :
    ∃ result, fixedWindowCheck r clock now key limit w =
        .ok (result, r.put key (if w ≤ 0 then none else some ⟨.counter 1, some (clock + w)⟩)) ∧
      result.allowed = decide (1 ≤ limit) ∧ result.remaining = max 0 (limit - 1) := by
  refine ⟨_, by rw [fixedWindowCheck, fixedWindowLua_new h rfl], ?_, rfl⟩
  by_cases hle : 1 ≤ limit
  · simp [hle, not_lt.mpr hle]
  · simp [hle, not_le.mp hle]

theorem slidingWindowLua_counter {n : Int} {t : Option Time}
    (h : r.find clock key = some ⟨.counter n, t⟩) :
    slidingWindowLua random r clock key now w limit = .error .wrongType := by
  simp only [slidingWindowLua, Redis.zremrangebyscore, h]
  rfl

theorem zcard_of_find {z : List (Member × Time)} {t : Option Time}
    (h : r.find clock key = some ⟨.zset z, t⟩) : r.zcard clock key = .ok z.length := by
  simp only [Redis.zcard, h]

/-- The script after its first command, on a key that holds the entries `z`. -/
theorem zadd_of_entries {e : Option RedisEntry} (he : r.find clock key = e)
    (hc : isCounter e = false) (score : Time) (m : Member) {z : List (Member × Time)}
    (hz : z = zaddEntries (entriesOf e) score m) : ∃ t,
    r.zadd clock key score m = .ok (r.put key (some ⟨.zset z, t⟩)) ∧
      RedisEntry.visible clock ⟨.zset z, t⟩ = true := by
  subst hz
  subst he
  cases hf : r.find clock key with
  | none =>
    refine ⟨none, ?_, rfl⟩
    simp only [Redis.zadd, hf]
    rfl
  | some e =>
    obtain ⟨v, t⟩ := e
    cases v with
    | counter n => rw [hf] at hc; cases hc
    | zset z =>
      refine ⟨t, ?_, (Redis.find_eq_some.mp hf).2⟩
      simp only [Redis.zadd, hf]
      rfl

/-- What `ZREMRANGEBYSCORE` leaves for the next command. -/
theorem zremrangebyscore_of_entries {e : Option RedisEntry} (he : r.find clock key = e)
    (hc : isCounter e = false) (hi : Time) : ∃ r', r.zremrangebyscore clock key 0 hi = .ok r' ∧
      isCounter (r'.find clock key) = false ∧
      entriesOf (r'.find clock key) = keptEntries (entriesOf e) hi ∧
      ∀ x, r'.put key x = r.put key x := by
  subst he
  cases hf : r.find clock key with
  | none =>
    refine ⟨r, ?_, ?_, ?_, fun _ => rfl⟩
    · simp only [Redis.zremrangebyscore, hf]
    · rw [hf]; rfl
    · rw [hf]; rfl
  | some e =>
    obtain ⟨v, t⟩ := e
    cases v with
    | counter n => rw [hf] at hc; cases hc
    | zset z =>
      have hv : RedisEntry.visible clock ⟨.zset (keptEntries z hi), t⟩ = true :=
        (Redis.find_eq_some.mp hf).2
      refine ⟨r.put key (if (keptEntries z hi).isEmpty then none
        else some ⟨.zset (keptEntries z hi), t⟩), ?_, ?_, ?_, fun x => Redis.put_put _ _⟩
      · simp only [Redis.zremrangebyscore, hf]; rfl
      · rw [Redis.find_put_self]
        split
        · rfl
        · rw [Option.filter_some, if_pos hv]; rfl
      · rw [Redis.find_put_self]
        split
        · rename_i hz
          exact (List.isEmpty_iff.mp hz).symm
        · rw [Option.filter_some, if_pos hv]; rfl

/-- One run of the sliding window script on a key that holds no counter. -/
theorem slidingWindowLua_ok {e : Option RedisEntry} (he : r.find clock key = e)
    (hc : isCounter e = false) {z : List (Member × Time)}
    (hz : z = windowEntries random (entriesOf e) now w) :
    slidingWindowLua random r clock key now w limit =
      .ok (((z.length : Int), if limit < (z.length : Int) then 1 else 0),
        r.put key (if w ≤ 0 then none else some ⟨.zset z, some (clock + w)⟩)) := by
  obtain ⟨r₁, h₁, hc₁, he₁, hput⟩ := zremrangebyscore_of_entries he hc (now - w)
  obtain ⟨t, h₂, hv⟩ := zadd_of_entries rfl hc₁ now ⟨sig14 now, random⟩
    (z := z) (by rw [hz, he₁]; rfl)
  have hfind : (r₁.put key (some ⟨.zset z, t⟩)).find clock key = some ⟨.zset z, t⟩ := by
    rw [Redis.find_put_self, Option.filter_some, if_pos hv]
  simp only [slidingWindowLua, h₁, h₂, bind, Except.bind, pure, Except.pure]
  rw [zcard_of_find hfind, Redis.expire_of_find hfind, Redis.put_put, hput]

/-- The same with the result of the algorithm: allowed while the entries do not pass the limit. -/
theorem slidingWindowCheck_ok {e : Option RedisEntry} (he : r.find clock key = e)
    (hc : isCounter e = false) {z : List (Member × Time)}
    (hz : z = windowEntries random (entriesOf e) now w) (limit : Int) :
    ∃ result, slidingWindowCheck random r clock now key limit w =
        .ok (result, r.put key (if w ≤ 0 then none else some ⟨.zset z, some (clock + w)⟩)) ∧
      result.allowed = decide ((z.length : Int) ≤ limit) ∧
      result.remaining = max 0 (limit - z.length) := by
  refine ⟨_, by rw [slidingWindowCheck, slidingWindowLua_ok he hc hz], ?_, rfl⟩
  by_cases hle : (z.length : Int) ≤ limit
  · simp [hle, not_lt.mpr hle]
  · simp [hle, not_le.mp hle]

end Scripts

end RateLimiter
end TrShared
