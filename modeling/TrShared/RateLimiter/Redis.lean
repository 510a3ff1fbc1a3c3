import Mathlib.Algebra.Order.Field.Rat
import Mathlib.Data.Rat.Floor
import Mathlib.Logic.Function.Basic
import Mathlib.Tactic.Linarith

/-!
# TrShared.RateLimiter.Redis

The part of Redis that the rate limiter uses: strings that hold a counter, sorted sets, and keys
that expire. A key with an expiry at `e` is visible at `t` iff `t ≤ e`; a command on a key of the
other type fails and changes nothing. Every command takes the moment it is run at on the server's
clock.

Every command writes with `put` to its own key only.
-/

namespace TrShared
namespace RateLimiter

/-- Seconds. -/
abbrev Time := ℚ

/-- What Redis answers when a key holds a value of the other type. -/
inductive RedisError where
  | wrongType
  deriving DecidableEq, Repr

/-- A member of a sorted set as the sliding window script writes it, `stamp .. ':' .. suffix`; two
texts are equal iff the printed numbers are. -/
structure Member where
  stamp : ℚ
  suffix : Nat
  deriving DecidableEq

inductive RedisValue where
  | counter (n : Int)
  | zset (entries : List (Member × Time))
  deriving DecidableEq

structure RedisEntry where
  value : RedisValue
  expireAt : Option Time
  deriving DecidableEq

structure Redis where
  slot : String → Option RedisEntry := fun _ => none

def RedisEntry.visible (now : Time) (e : RedisEntry) : Bool :=
  match e.expireAt with
  | some t => decide (now ≤ t)
  | none => true

namespace Redis

/-- What a command run at `now` finds under the key. -/
def find (r : Redis) (now : Time) (k : String) : Option RedisEntry :=
  (r.slot k).filter (RedisEntry.visible now)

def put (r : Redis) (k : String) (e : Option RedisEntry) : Redis :=
  ⟨Function.update r.slot k e⟩

def incr (r : Redis) (now : Time) (k : String) : Except RedisError (Int × Redis) :=
  match r.find now k with
  | some ⟨.counter n, t⟩ => .ok (n + 1, r.put k (some ⟨.counter (n + 1), t⟩))
  | some ⟨.zset _, _⟩ => .error .wrongType
  | none => .ok (1, r.put k (some ⟨.counter 1, none⟩))

/-- `EXPIRE`; a time to live that is not positive deletes the key. -/
def expire (r : Redis) (now : Time) (k : String) (ttl : Int) : Redis :=
  match r.find now k with
  | some e => if ttl ≤ 0 then r.put k none else r.put k (some { e with expireAt := some (now + ttl) })
  | none => r

/-- `TTL`, rounded to seconds; -1 without an expiry, -2 without the key. -/
def ttl (r : Redis) (now : Time) (k : String) : Int :=
  match r.find now k with
  | some ⟨_, some t⟩ => ⌊t - now + 1 / 2⌋
  | some ⟨_, none⟩ => -1
  | none => -2

def get (r : Redis) (now : Time) (k : String) : Except RedisError (Option Int) :=
  match r.find now k with
  | some ⟨.counter n, _⟩ => .ok (some n)
  | some ⟨.zset _, _⟩ => .error .wrongType
  | none => .ok none

/-- A sorted set that becomes empty is deleted. -/
def zremrangebyscore (r : Redis) (now : Time) (k : String) (lo hi : Time) :
    Except RedisError Redis :=
  match r.find now k with
  | some ⟨.zset z, t⟩ =>
    let z' := z.filter (fun e => !decide (lo ≤ e.2 ∧ e.2 ≤ hi))
    .ok (r.put k (if z'.isEmpty then none else some ⟨.zset z', t⟩))
  | some ⟨.counter _, _⟩ => .error .wrongType
  | none => .ok r

end Redis

/-- `ZADD` on the entries: a member that is there only gets the new score. -/
def zaddEntries (z : List (Member × Time)) (score : Time) (m : Member) : List (Member × Time) :=
  if z.any (fun e => e.1 == m) then z.map (fun e => if e.1 == m then (m, score) else e)
  else z ++ [(m, score)]

namespace Redis

def zadd (r : Redis) (now : Time) (k : String) (score : Time) (m : Member) :
    Except RedisError Redis :=
  match r.find now k with
  | some ⟨.zset z, t⟩ => .ok (r.put k (some ⟨.zset (zaddEntries z score m), t⟩))
  | some ⟨.counter _, _⟩ => .error .wrongType
  | none => .ok (r.put k (some ⟨.zset [(m, score)], none⟩))

def zcard (r : Redis) (now : Time) (k : String) : Except RedisError Int :=
  match r.find now k with
  | some ⟨.zset z, _⟩ => .ok z.length
  | some ⟨.counter _, _⟩ => .error .wrongType
  | none => .ok 0

variable {r : Redis} {now : Time} {k k' : String}

@[simp] theorem put_slot_self (e : Option RedisEntry) : (r.put k e).slot k = e := by
  simp [put]

theorem put_slot_of_ne (e : Option RedisEntry) (hne : k' ≠ k) :
    (r.put k e).slot k' = r.slot k' := by
  simp [put, hne]

@[simp] theorem find_put_self (e : Option RedisEntry) :
    (r.put k e).find now k = e.filter (RedisEntry.visible now) := by
  simp [find]

theorem find_eq_some {e : RedisEntry} :
    r.find now k = some e ↔ r.slot k = some e ∧ e.visible now = true := by
  simp [find, Option.filter_eq_some_iff]

@[simp] theorem put_put (e e' : Option RedisEntry) : (r.put k e).put k e' = r.put k e' := by
  simp [put]

theorem find_put_of_ne (e : Option RedisEntry) (hne : k' ≠ k) :
    (r.put k e).find now k' = r.find now k' := by
  simp only [find, put_slot_of_ne e hne]

/-- Time takes keys away and brings none. -/
theorem find_mono {now' : Time} (h : now ≤ now') :
    r.find now' k = (r.find now k).filter (RedisEntry.visible now') := by
  simp only [find, Option.filter_filter]
  congr 1
  funext e
  obtain ⟨v, t⟩ := e
  cases t with
  | none => rfl
  | some t =>
    simp only [RedisEntry.visible]
    by_cases ht : now' ≤ t
    · simp [ht, le_trans h ht]
    · simp [ht]

theorem expire_of_find {e : RedisEntry} (h : r.find now k = some e) (ttl : Int) :
    r.expire now k ttl =
      r.put k (if ttl ≤ 0 then none else some { e with expireAt := some (now + ttl) }) := by
  simp only [expire, h]
  split <;> rfl

end Redis
end RateLimiter
end TrShared
