import TrShared.Machine.Isolation
import TrShared.Machine.Shared
import TrShared.Monitoring.PathNormalizer
import TrShared.RateLimiter.Core

/-!
# TrShared.RateLimiter.Callers

All callers of a rate limiter together: any number of processes that share one Redis and have a memory
fallback each, and the calls of `check`, `status` and `reset` under any keys and with any configs, while
Redis comes and goes.

* `Linked`: what two stores that hold the same under one key look like after a command on that key.
* `callers_isolated`: what the calls under some keys get back is what they would get if there were no
  other calls.
* `counter_shared_iff`: which requests are counted together.
-/

namespace TrShared
namespace RateLimiter

open Machine Python

inductive Method where
  | check
  | status
  | reset
  deriving DecidableEq

/-- A call of a method of `RateLimiter`, and what happens around it. -/
structure Call where
  process : Nat
  method : Method
  key : String
  cfg : RateLimitConfig := {}
  now : Time
  random : Nat := 0
  /-- `_get_redis()` returns a client. -/
  connected : Bool := true
  /-- How the command for each window ends. -/
  reply : Nat → Reply := fun _ => .ok

inductive Answer where
  | info (info : RateLimitInfo)
  | deleted (deleted : Bool)
  deriving DecidableEq

/-- Redis, and the memory fallback of each process. -/
structure Fleet where
  redis : Redis := {}
  memory : Nat → Option MemoryFallback

/-- `DEL`. -/
def Redis.delete (r : Redis) (keys : List String) : Redis :=
  ⟨fun k => if k ∈ keys then none else r.slot k⟩

namespace Fleet

def limiter (s : Fleet) (process : Nat) (redis : Option Redis) : Limiter := ⟨redis, s.memory process⟩

/-- `_check_window`. A command that ends with an exception may have taken effect; the window is then
counted by the fallback as well. -/
def checkWindow (c : Call) (s : Fleet) (reply : Reply) (window : WindowConfig) :
    RateLimitResult × Fleet :=
  let asked := (s.limiter c.process (some s.redis)).checkWindow c.random c.now c.key c.cfg window
  let unasked := (s.limiter c.process none).checkWindow c.random c.now c.key c.cfg window
  let used := if reply.returned then asked else unasked
  (used.1, {
    redis := if reply.took then asked.2.redis.getD s.redis else s.redis
    memory := Function.update s.memory c.process used.2.memory })

def checkWindows (c : Call) : Fleet → Nat → List WindowConfig → List RateLimitResult × Fleet
  | s, _, [] => ([], s)
  | s, i, window :: windows =>
    let (result, s) := s.checkWindow c (if c.connected then c.reply i else .refused) window
    let (results, s) := checkWindows c s (i + 1) windows
    (result :: results, s)

/-- `check`. -/
def check (c : Call) (s : Fleet) : Answer × Fleet :=
  let (results, s) := s.checkWindows c 0 c.cfg.windows
  (.info { results := results, isBlocked := results.any (fun r => !r.allowed) }, s)

/-- `status`. -/
def status (c : Call) (s : Fleet) : Answer × Fleet :=
  if !c.connected then (.info {}, s)
  else
    let results := c.cfg.windows.zipIdx.filterMap (fun e =>
      if (c.reply e.2).returned then Limiter.statusWindow c.now s.redis c.key e.1 else none)
    (.info { results := results, isBlocked := results.any (fun r => !r.allowed) }, s)

/-- `reset`. -/
def reset (c : Call) (s : Fleet) : Answer × Fleet :=
  let keys := c.cfg.windows.map (windowKey c.key)
  let reply := if c.connected then c.reply 0 else .refused
  (.deleted (reply.returned && keys.any (fun k => (s.redis.find c.now k).isSome)),
    { s with redis := if reply.took then s.redis.delete keys else s.redis })

def step (s : Fleet) (c : Call) : Answer × Fleet :=
  match c.method with
  | .check => s.check c
  | .status => s.status c
  | .reset => s.reset c

end Fleet

/-! ## Commands on one key -/

/-- How two runs of a command end alike. -/
def Alike {α : Type} (P : α → α → Prop) : Except RedisError α → Except RedisError α → Prop
  | .ok x, .ok y => P x y
  | .error e, .error e' => e = e'
  | _, _ => False

section Alike

variable {α β : Type} {P : α → α → Prop} {Q : β → β → Prop} {x y : Except RedisError α}

theorem Alike.cases (h : Alike P x y) :
    (∃ e, x = .error e ∧ y = .error e) ∨ ∃ a b, x = .ok a ∧ y = .ok b ∧ P a b := by
  cases x with
  | error e =>
    cases y with
    | error e' => exact .inl ⟨e, rfl, congrArg _ (Eq.symm h)⟩
    | ok b => exact h.elim
  | ok a =>
    cases y with
    | error e' => exact h.elim
    | ok b => exact .inr ⟨a, b, rfl, rfl, h⟩

theorem Alike.bind {f g : α → Except RedisError β} (h : Alike P x y)
    (hf : ∀ a b, P a b → Alike Q (f a) (g b)) : Alike Q (x >>= f) (y >>= g) := by
  rcases h.cases with ⟨e, rfl, rfl⟩ | ⟨a, b, rfl, rfl, hab⟩
  · rfl
  · exact hf a b hab

end Alike

/-- `a` and `b` come from `r` and `r₂` by the same writes to `k`. -/
structure Linked (now : Time) (k : String) (r r₂ a b : Redis) : Prop where
  same : a.find now k = b.find now k
  left : ∀ k', k' ≠ k → a.find now k' = r.find now k'
  right : ∀ k', k' ≠ k → b.find now k' = r₂.find now k'

section Commands

variable {now : Time} {k : String} {r r₂ a b : Redis}

theorem Linked.refl (h : r.find now k = r₂.find now k) : Linked now k r r₂ r r₂ :=
  ⟨h, fun _ _ => rfl, fun _ _ => rfl⟩

theorem Linked.put (h : Linked now k r r₂ a b) (e : Option RedisEntry) :
    Linked now k r r₂ (a.put k e) (b.put k e) where
  same := by rw [Redis.find_put_self, Redis.find_put_self]
  left k' hk := (Redis.find_put_of_ne e hk).trans (h.left k' hk)
  right k' hk := (Redis.find_put_of_ne e hk).trans (h.right k' hk)

/-- A value with the store it is returned with. -/
def LinkedWith {α : Type} (now : Time) (k : String) (r r₂ : Redis) (x y : α × Redis) : Prop :=
  x.1 = y.1 ∧ Linked now k r r₂ x.2 y.2

theorem Linked.incr (h : Linked now k r r₂ a b) :
    Alike (LinkedWith now k r r₂) (a.incr now k) (b.incr now k) := by
  unfold Redis.incr
  rw [h.same]
  split
  · exact ⟨rfl, h.put _⟩
  · rfl
  · exact ⟨rfl, h.put _⟩

theorem Linked.expire (h : Linked now k r r₂ a b) (ttl : Int) :
    Linked now k r r₂ (a.expire now k ttl) (b.expire now k ttl) := by
  unfold Redis.expire
  rw [h.same]
  split
  · split
    · exact h.put _
    · exact h.put _
  · exact h

theorem Linked.ttl (h : Linked now k r r₂ a b) : a.ttl now k = b.ttl now k := by
  unfold Redis.ttl
  rw [h.same]

theorem Linked.zremrangebyscore (h : Linked now k r r₂ a b) (lo hi : Time) :
    Alike (Linked now k r r₂) (a.zremrangebyscore now k lo hi) (b.zremrangebyscore now k lo hi) := by
  unfold Redis.zremrangebyscore
  rw [h.same]
  split
  · exact h.put _
  · rfl
  · exact h

theorem Linked.zadd (h : Linked now k r r₂ a b) (score : Time) (m : Member) :
    Alike (Linked now k r r₂) (a.zadd now k score m) (b.zadd now k score m) := by
  unfold Redis.zadd
  rw [h.same]
  split
  · exact h.put _
  · rfl
  · exact h.put _

theorem Linked.zcard (h : Linked now k r r₂ a b) : Alike Eq (a.zcard now k) (b.zcard now k) := by
  unfold Redis.zcard
  rw [h.same]
  split <;> rfl

theorem fixedWindowLua_linked (h : r.find now k = r₂.find now k) (limit ttl : Int) :
    Alike (LinkedWith now k r r₂) (fixedWindowLua r now k limit ttl)
      (fixedWindowLua r₂ now k limit ttl) := by
  have hbind : ∀ x : Redis, fixedWindowLua x now k limit ttl = x.incr now k >>= fun e =>
      let x := if e.1 = 1 then e.2.expire now k ttl else e.2
      .ok ((e.1, if limit < e.1 then 1 else 0, x.ttl now k), x) := by
    intro x
    unfold fixedWindowLua
    cases x.incr now k <;> rfl
  rw [hbind, hbind]
  refine (Linked.refl h).incr.bind (fun x y hxy => ?_)
  obtain ⟨hcount, hlinked⟩ := hxy
  have hexpired : Linked now k r r₂ (if x.1 = 1 then x.2.expire now k ttl else x.2)
      (if y.1 = 1 then y.2.expire now k ttl else y.2) := by
    rw [hcount]
    split
    · exact hlinked.expire ttl
    · exact hlinked
  exact ⟨by rw [hexpired.ttl, hcount], hexpired⟩

theorem slidingWindowLua_linked (h : r.find now k = r₂.find now k) (random : Nat) (stamp : Time)
    (windowSize limit : Int) :
    Alike (LinkedWith now k r r₂) (slidingWindowLua random r now k stamp windowSize limit)
      (slidingWindowLua random r₂ now k stamp windowSize limit) := by
  unfold slidingWindowLua
  refine ((Linked.refl h).zremrangebyscore _ _).bind (fun a b hab => ?_)
  refine (hab.zadd _ _).bind (fun a b hab => ?_)
  refine hab.zcard.bind (fun n m hnm => ?_)
  exact ⟨by rw [hnm], hab.expire _⟩

/-- `algorithm.check` sees of Redis what is under its key, and changes only that. -/
theorem algorithm_linked (h : r.find now k = r₂.find now k) (random : Nat) (algorithm : Algorithm)
    (window : WindowConfig) :
    Alike (LinkedWith now k r r₂) (algorithm.check random now r k window)
      (algorithm.check random now r₂ k window) := by
  cases algorithm with
  | fixedWindow =>
    show Alike _ (fixedWindowCheck ..) (fixedWindowCheck ..)
    unfold fixedWindowCheck
    rcases (fixedWindowLua_linked h window.limit window.windowSeconds).cases with
      ⟨e, hx, hy⟩ | ⟨⟨⟨count, isOver, ttl⟩, a⟩, ⟨_, b⟩, hx, hy, rfl, hlinked⟩
    · rw [hx, hy]
      rfl
    · rw [hx, hy]
      exact ⟨rfl, hlinked⟩
  | slidingWindow =>
    show Alike _ (slidingWindowCheck ..) (slidingWindowCheck ..)
    unfold slidingWindowCheck
    rcases (slidingWindowLua_linked h random now window.windowSeconds window.limit).cases with
      ⟨e, hx, hy⟩ | ⟨⟨⟨count, isOver⟩, a⟩, ⟨_, b⟩, hx, hy, rfl, hlinked⟩
    · rw [hx, hy]
      rfl
    · rw [hx, hy]
      exact ⟨rfl, hlinked⟩

end Commands

/-! ## One window -/

/-- What two checks of the window of `k` make of two limiters that one of them cannot tell apart. -/
structure CheckedAlike (now : Time) (k : String) (l l₂ : Limiter)
    (x y : RateLimitResult × Limiter) : Prop where
  result : x.1 = y.1
  bucket : x.2.bucket now k = y.2.bucket now k
  left : ∀ k', k' ≠ k → x.2.bucket now k' = l.bucket now k'
  right : ∀ k', k' ≠ k → y.2.bucket now k' = l₂.bucket now k'

section Window

variable {now : Time} {k : String} {l l₂ : Limiter}

theorem MemoryFallback.check_same {m m₂ : MemoryFallback} (h : m.live now k = m₂.live now k)
    (limit w : Int) :
    (m.check now k limit w).1 = (m₂.check now k limit w).1 ∧
      (m.check now k limit w).2.live now k = (m₂.check now k limit w).2.live now k := by
  rw [check_live, check_live, h]
  cases m₂.live now k with
  | none => exact ⟨rfl, setBucket_live_self.trans setBucket_live_self.symm⟩
  | some b =>
    dsimp only
    split
    · exact ⟨rfl, tidy_live.trans (h.trans tidy_live.symm)⟩
    · exact ⟨rfl, setBucket_live_self.trans setBucket_live_self.symm⟩

theorem fallback_alike (h : l.bucket now k = l₂.bucket now k) (window : WindowConfig) (fm : FailMode) :
    CheckedAlike now k l l₂ (l.fallback now k window fm) (l₂.fallback now k window fm) := by
  have hsame : (l.fallback now k window fm).1 = (l₂.fallback now k window fm).1 ∧
      (l.fallback now k window fm).2.bucket now k = (l₂.fallback now k window fm).2.bucket now k := by
    cases fm with
    | failClosed => exact ⟨rfl, h⟩
    | failOpen =>
      unfold Limiter.fallback
      unfold Limiter.bucket at h ⊢
      cases hm : l.memory with
      | none =>
        cases hm₂ : l₂.memory with
        | none => exact ⟨rfl, by rw [hm, hm₂]⟩
        | some m₂ => rw [hm, hm₂] at h; cases h
      | some m =>
        cases hm₂ : l₂.memory with
        | none => rw [hm, hm₂] at h; cases h
        | some m₂ =>
          rw [hm, hm₂] at h
          obtain ⟨hresult, hlive⟩ :=
            MemoryFallback.check_same (Option.some.inj h) window.limit window.windowSeconds
          exact ⟨hresult, congrArg some hlive⟩
  exact ⟨hsame.1, hsame.2, fun _ hk => fallback_bucket hk, fun _ hk => fallback_bucket hk⟩

/-- `_check_window` with a client. -/
theorem asked_alike {r r₂ : Redis} {key : String} {window : WindowConfig}
    (hk : k = windowKey key window) (hredis : r.find now k = r₂.find now k)
    (hl : l.redis = some r) (hl₂ : l₂.redis = some r₂) (hbucket : l.bucket now k = l₂.bucket now k)
    (random : Nat) (cfg : RateLimitConfig) :
    CheckedAlike now k l l₂ (l.checkWindow random now key cfg window)
        (l₂.checkWindow random now key cfg window) ∧
      Linked now k r r₂ ((l.checkWindow random now key cfg window).2.redis.getD r)
        ((l₂.checkWindow random now key cfg window).2.redis.getD r₂) := by
  subst hk
  unfold Limiter.checkWindow
  rw [hl, hl₂]
  dsimp only
  rcases (algorithm_linked hredis random cfg.algorithm window).cases with
    ⟨e, hx, hy⟩ | ⟨⟨result, a⟩, ⟨_, b⟩, hx, hy, rfl, hlinked⟩
  · rw [hx, hy]
    refine ⟨fallback_alike hbucket window cfg.failMode, ?_⟩
    dsimp only
    rw [fallback_redis, fallback_redis, hl, hl₂]
    exact .refl hredis
  · rw [hx, hy]
    exact ⟨⟨rfl, hbucket, fun _ _ => rfl, fun _ _ => rfl⟩, hlinked⟩

theorem unasked_alike {key : String} {window : WindowConfig} (hk : k = windowKey key window)
    (hl : l.redis = none) (hl₂ : l₂.redis = none) (hbucket : l.bucket now k = l₂.bucket now k)
    (random : Nat) (cfg : RateLimitConfig) :
    CheckedAlike now k l l₂ (l.checkWindow random now key cfg window)
      (l₂.checkWindow random now key cfg window) := by
  subst hk
  unfold Limiter.checkWindow
  rw [hl, hl₂]
  exact fallback_alike hbucket window cfg.failMode

end Window

/-! ## The fleet -/

def Fleet.bucket (s : Fleet) (process : Nat) (now : Time) (k : String) : Option (Option Bucket) :=
  (s.memory process).map (fun m => m.live now k)

/-- What a call can see of the window of `k`. -/
structure Same (now : Time) (k : String) (s s₂ : Fleet) : Prop where
  redis : s.redis.find now k = s₂.redis.find now k
  bucket : ∀ process, s.bucket process now k = s₂.bucket process now k

/-- What it can see of the windows of some keys. -/
def Agree (mine : String → Bool) (now : Time) (s s₂ : Fleet) : Prop :=
  ∀ key window, mine key = true → Same now (windowKey key window) s s₂

section Fleet

variable {now now' : Time} {k key : String} {s s₂ s₃ s' s₂' : Fleet} {c : Call} {mine : String → Bool}

theorem Same.refl (s : Fleet) : Same now k s s := ⟨rfl, fun _ => rfl⟩

theorem Same.symm (h : Same now k s s₂) : Same now k s₂ s :=
  ⟨h.redis.symm, fun process => (h.bucket process).symm⟩

theorem Same.trans (h : Same now k s s₂) (h' : Same now k s₂ s₃) : Same now k s s₃ :=
  ⟨h.redis.trans h'.redis, fun process => (h.bucket process).trans (h'.bucket process)⟩

theorem Same.later (h : Same now k s s₂) (hle : now ≤ now') : Same now' k s s₂ where
  redis := by rw [Redis.find_mono hle, Redis.find_mono hle, h.redis]
  bucket process := by
    have hfades : ∀ x : Fleet, x.bucket process now' k =
        (x.bucket process now k).map (fun b => b.filter (fun b => decide (now' ≤ b.resetTime))) := by
      intro x
      unfold Fleet.bucket
      rw [Option.map_map]
      refine congrArg (Option.map · _) (funext (fun m => ?_))
      exact MemoryFallback.live_mono hle
    rw [hfades, hfades, h.bucket]

/-- The end of a window's key has no colon. -/
theorem colon_notMem (n : Int) : ':' ∉ (toString n ++ "s").toList := by
  have hdigits : ∀ n : Nat, ':' ∉ (Nat.repr n).toList := by
    intro n hmem
    rw [Nat.toList_repr] at hmem
    have hdigit := Nat.isDigit_of_mem_toDigits (b := 10) (by decide) (by decide) hmem
    cases hdigit
  intro hmem
  rw [String.toList_append, List.mem_append] at hmem
  rcases hmem with hmem | hmem
  · cases n with
    | ofNat n => exact hdigits n hmem
    | negSucc n =>
      have hminus : (toString (Int.negSucc n)).toList = '-' :: (Nat.repr (n + 1)).toList :=
        String.toList_append
      rw [hminus] at hmem
      rcases List.mem_cons.1 hmem with hmem | hmem
      · cases hmem
      · exact hdigits (n + 1) hmem
  · exact absurd hmem (by decide)

/-- Two windows with the same key are of the same call key. -/
theorem windowKey_eq {key' : String} {window window' : WindowConfig}
    (h : windowKey key window = windowKey key' window') : key = key' := by
  have htext : ∀ (key : String) (w : WindowConfig),
      (windowKey key w).toList = key.toList ++ ':' :: (toString w.windowSeconds ++ "s").toList := by
    intro key w
    simp [windowKey]
  have hlast : (toString window.windowSeconds ++ "s").toList =
      (toString window'.windowSeconds ++ "s").toList := by
    rw [← afterLast_append (colon_notMem window.windowSeconds), ← htext, h, htext,
      afterLast_append (colon_notMem window'.windowSeconds)]
  have hkeys := congrArg String.toList h
  rw [htext, htext, hlast, List.append_cancel_right_eq] at hkeys
  exact String.toList_inj.1 hkeys

/-- What a call does to two fleets that agree on the window of `k`. -/
structure Changed (now : Time) (k : String) (s s₂ s' s₂' : Fleet) : Prop where
  same : Same now k s' s₂'
  left : ∀ k', k' ≠ k → Same now k' s' s
  right : ∀ k', k' ≠ k → Same now k' s₂' s₂

/-- The parts of a changed fleet. -/
theorem changed_of {process : Nat} {a b : Redis} {x y : RateLimitResult × Limiter} {r r₂ : Option Redis}
    (h : Same now k s s₂) (hlinked : Linked now k s.redis s₂.redis a b)
    (halike : CheckedAlike now k (s.limiter process r) (s₂.limiter process r₂) x y) :
    Changed now k s s₂ ⟨a, Function.update s.memory process x.2.memory⟩
      ⟨b, Function.update s₂.memory process y.2.memory⟩ := by
  -- the memory of the process is that of its limiter, the others have theirs
  have hbucket : ∀ (f : Fleet) (z : Limiter) (d : Redis) (k' : String) (p : Nat),
      Fleet.bucket ⟨d, Function.update f.memory process z.memory⟩ p now k' =
        if p = process then z.bucket now k' else f.bucket p now k' := by
    intro f z d k' p
    unfold Fleet.bucket
    by_cases hp : p = process
    · subst hp
      rw [if_pos rfl]
      exact congrArg (Option.map _) (Function.update_self ..)
    · rw [if_neg hp]
      exact congrArg (Option.map _) (Function.update_of_ne hp ..)
  refine ⟨⟨hlinked.same, fun p => ?_⟩, fun k' hk => ⟨hlinked.left k' hk, fun p => ?_⟩,
    fun k' hk => ⟨hlinked.right k' hk, fun p => ?_⟩⟩
  · rw [hbucket, hbucket, halike.bucket, h.bucket p]
  · rw [hbucket]
    split
    · rename_i hp
      rw [hp]
      exact halike.left k' hk
    · rfl
  · rw [hbucket]
    split
    · rename_i hp
      rw [hp]
      exact halike.right k' hk
    · rfl

theorem checkWindow_changed {window : WindowConfig} (h : Same c.now (windowKey c.key window) s s₂)
    (reply : Reply) :
    (s.checkWindow c reply window).1 = (s₂.checkWindow c reply window).1 ∧
      Changed c.now (windowKey c.key window) s s₂ (s.checkWindow c reply window).2
        (s₂.checkWindow c reply window).2 := by
  have hbucket := h.bucket c.process
  have hclient : ∀ f : Fleet, (f.limiter c.process (some f.redis)).redis = some f.redis := fun _ => rfl
  have hnone : ∀ f : Fleet, (f.limiter c.process none).redis = none := fun _ => rfl
  obtain ⟨hasked, hlinked⟩ := asked_alike rfl h.redis (hclient s) (hclient s₂) hbucket c.random c.cfg
  have hunasked := unasked_alike rfl (hnone s) (hnone s₂) hbucket c.random c.cfg
  cases reply with
  | ok => exact ⟨hasked.result, changed_of h hlinked hasked⟩
  | lost => exact ⟨hunasked.result, changed_of h hlinked hunasked⟩
  | refused => exact ⟨hunasked.result, changed_of h (.refl h.redis) hunasked⟩

/-- The windows of a call under a key that is `mine`. -/
theorem checkWindows_mine (hkey : mine c.key = true) (h : Agree mine c.now s s₂) (i : Nat)
    (windows : List WindowConfig) :
    (s.checkWindows c i windows).1 = (s₂.checkWindows c i windows).1 ∧
      Agree mine c.now (s.checkWindows c i windows).2 (s₂.checkWindows c i windows).2 := by
  induction windows generalizing s s₂ i with
  | nil => exact ⟨rfl, h⟩
  | cons window windows ih =>
    obtain ⟨hresult, hchanged⟩ :=
      checkWindow_changed (h c.key window hkey) (if c.connected then c.reply i else .refused)
    have hnext : Agree mine c.now (s.checkWindow c (if c.connected then c.reply i else .refused) window).2
        (s₂.checkWindow c (if c.connected then c.reply i else .refused) window).2 := by
      intro key w hmine
      by_cases hk : windowKey key w = windowKey c.key window
      · rw [hk]
        exact hchanged.same
      · exact (hchanged.left _ hk).trans ((h key w hmine).trans (hchanged.right _ hk).symm)
    obtain ⟨hresults, hafter⟩ := ih hnext (i + 1)
    exact ⟨congrArg₂ List.cons hresult hresults, hafter⟩

/-- The windows of another call. -/
theorem checkWindows_other (hkey : mine c.key = false) (i : Nat) (windows : List WindowConfig) :
    Agree mine c.now (s.checkWindows c i windows).2 s := by
  induction windows generalizing s i with
  | nil => exact fun _ _ _ => .refl s
  | cons window windows ih =>
    intro key w hmine
    refine (ih (i + 1) key w hmine).trans ?_
    refine (checkWindow_changed (.refl s) _).2.left _ (fun hk => ?_)
    rw [windowKey_eq hk, hkey] at hmine
    cases hmine

theorem statusWindow_same {r r₂ : Redis} {window : WindowConfig}
    (h : r.find now (windowKey key window) = r₂.find now (windowKey key window)) :
    Limiter.statusWindow now r key window = Limiter.statusWindow now r₂ key window := by
  unfold Limiter.statusWindow Redis.get Redis.ttl
  rw [h]

/-- `reset` changes Redis only, and there the keys of its windows. -/
theorem reset_find (c : Call) (s : Fleet) : ((s.reset c).2.redis).find now k =
    if (if c.connected then c.reply 0 else .refused).took = true ∧
      k ∈ c.cfg.windows.map (windowKey c.key) then none else s.redis.find now k := by
  unfold Fleet.reset Redis.delete
  dsimp only
  by_cases htook : (if c.connected then c.reply 0 else .refused).took = true
  · rw [if_pos htook]
    unfold Redis.find
    dsimp only
    by_cases hk : k ∈ c.cfg.windows.map (windowKey c.key)
    · rw [if_pos hk, if_pos ⟨htook, hk⟩]
      rfl
    · rw [if_neg hk, if_neg (fun h => hk h.2)]
  · rw [if_neg htook, if_neg (fun h => htook h.1)]

theorem step_mine (hkey : mine c.key = true) (h : Agree mine c.now s s₂) :
    (s.step c).1 = (s₂.step c).1 ∧ Agree mine c.now (s.step c).2 (s₂.step c).2 := by
  unfold Fleet.step
  cases c.method with
  | check =>
    obtain ⟨hresults, hafter⟩ := checkWindows_mine hkey h 0 c.cfg.windows
    refine ⟨?_, hafter⟩
    show Answer.info _ = Answer.info _
    rw [hresults]
  | status =>
    have hresults : c.cfg.windows.zipIdx.filterMap (fun e => if (c.reply e.2).returned then
          Limiter.statusWindow c.now s.redis c.key e.1 else none) =
        c.cfg.windows.zipIdx.filterMap (fun e => if (c.reply e.2).returned then
          Limiter.statusWindow c.now s₂.redis c.key e.1 else none) := by
      refine List.filterMap_congr (fun e _ => ?_)
      rw [statusWindow_same (h c.key e.1 hkey).redis]
    dsimp only
    unfold Fleet.status
    split
    · exact ⟨rfl, h⟩
    · rw [hresults]
      exact ⟨rfl, h⟩
  | reset =>
    have hany : ((c.cfg.windows.map (windowKey c.key)).any (fun k => (s.redis.find c.now k).isSome)) =
        ((c.cfg.windows.map (windowKey c.key)).any (fun k => (s₂.redis.find c.now k).isSome)) := by
      rw [List.any_map, List.any_map]
      refine congrArg (List.any c.cfg.windows) (funext (fun w => ?_))
      exact congrArg Option.isSome (h c.key w hkey).redis
    refine ⟨?_, fun key w hmine => ⟨?_, (h key w hmine).bucket⟩⟩
    · show Answer.deleted _ = Answer.deleted _
      rw [hany]
    · rw [reset_find, reset_find, (h key w hmine).redis]

theorem step_other (hkey : mine c.key = false) : Agree mine c.now (s.step c).2 s := by
  unfold Fleet.step
  cases c.method with
  | check => exact checkWindows_other hkey 0 c.cfg.windows
  | status =>
    dsimp only
    unfold Fleet.status
    split
    · exact fun _ _ _ => .refl s
    · exact fun _ _ _ => .refl s
  | reset =>
    intro key w hmine
    refine ⟨?_, fun _ => rfl⟩
    rw [reset_find, if_neg]
    intro hmem
    obtain ⟨w', _, hk⟩ := List.mem_map.1 hmem.2
    rw [← windowKey_eq hk, hkey] at hmine
    cases hmine

theorem fleet_unwinding (mine : String → Bool) :
    Unwinding Fleet.step Call.now (fun c => mine c.key) (Agree mine) where
  later hle h := fun key w hmine => (h key w hmine).later hle
  same hkey h := step_mine hkey h
  other hkey h := fun key w hmine => (step_other hkey key w hmine).trans (h key w hmine)

/-- The calls under some keys get the answers that they would get if there were no other calls: whatever
the configs, the processes, the state that the fleet starts in and the failures of Redis are. -/
theorem callers_isolated (mine : String → Bool) (s : Fleet) (calls : List Call)
    (hclock : calls.Pairwise (fun c c' => c.now ≤ c'.now)) :
    (answers Fleet.step s calls).filter (fun e => mine e.1.key) =
      answers Fleet.step s (calls.filter (fun c => mine c.key)) := by
  cases calls with
  | nil => rfl
  | cons c calls =>
    refine (fleet_unwinding mine).answers (t := c.now) (fun _ _ _ => .refl s) ?_ hclock
    intro c' hc'
    rcases List.mem_cons.1 hc' with rfl | hc'
    · exact le_refl _
    · exact (List.pairwise_cons.1 hclock).1 c' hc'

end Fleet

def onceAMinute : RateLimitConfig := { windows := [{ limit := 1, windowSeconds := 60 }] }

/-- `a` is limited in spite of the calls for `b`, and by both processes. -/
def neighbours : List Call :=
  [⟨0, .check, "a", onceAMinute, 0, 0, true, fun _ => .ok⟩,
    ⟨0, .check, "b", onceAMinute, 1, 0, true, fun _ => .lost⟩,
    ⟨1, .check, "a", onceAMinute, 2, 0, true, fun _ => .ok⟩,
    ⟨0, .reset, "b", onceAMinute, 3, 0, true, fun _ => .ok⟩,
    ⟨1, .check, "a", onceAMinute, 4, 0, false, fun _ => .ok⟩,
    ⟨1, .check, "b", onceAMinute, 5, 0, true, fun _ => .ok⟩]

theorem neighbours_unseen :
    (answers Fleet.step ⟨{}, fun _ => some (.init 0)⟩ neighbours).filter (fun e => e.1.key == "a") =
      answers Fleet.step ⟨{}, fun _ => some (.init 0)⟩ (neighbours.filter (fun c => c.key == "a")) ∧
    (answers Fleet.step ⟨{}, fun _ => some (.init 0)⟩ neighbours).map (fun e => (e.1.key, e.2)) =
      [("a", .info ⟨[⟨true, 1, 0, 60, 0⟩], false⟩), ("b", .info ⟨[⟨true, 1, 0, 61, 0⟩], false⟩),
        ("a", .info ⟨[⟨false, 1, 0, 60, 58⟩], true⟩), ("b", .deleted true),
        ("a", .info ⟨[⟨true, 1, 0, 64, 0⟩], false⟩), ("b", .info ⟨[⟨true, 1, 0, 65, 0⟩], false⟩)] := by
  constructor
  · exact callers_isolated (fun key => key == "a") _ neighbours (by decide +kernel)
  · decide +kernel

/-! ## Whose key it is -/

section Keys

open Monitoring

/-- `RateLimiter.build_key`. -/
def buildKey (keyPrefix scope identifier endpoint : Text) : Text :=
  let normalized := if endpoint ≠ text "*" then normalizePath endpoint else text "*"
  List.intercalate (text ":")
    ([keyPrefix, text "rl", scope, identifier, normalized].filter (fun p => decide (p ≠ [])))

theorem segments_of_star {first : Text} {segments : List Text} (hfirst : slash ∉ first)
    (hsegments : ∀ w ∈ segments, slash ∉ w) (h : joinSegments first segments = text "*") :
    first = text "*" ∧ segments = [] :=
  joinSegments_inj hfirst (by decide) hsegments (by simp) (by rw [h]; rfl)

/-- Requests to one endpoint share a window, whatever the ids in their paths are. -/
theorem buildKey_eq_of_same {path path' : Text} (h : SameButIds path path')
    (keyPrefix scope identifier : Text) :
    buildKey keyPrefix scope identifier path = buildKey keyPrefix scope identifier path' := by
  have hstar : path = text "*" ↔ path' = text "*" := by
    obtain ⟨hfirst, hsegments, hsegments', hsame⟩ := h
    constructor
    · intro h
      obtain ⟨rfl, rfl⟩ := segments_of_star hfirst hsegments h
      cases hsame
      rfl
    · intro h
      obtain ⟨rfl, rfl⟩ := segments_of_star hfirst hsegments' h
      cases hsame
      rfl
  rw [buildKey, buildKey]
  simp only [ne_eq, hstar, normalizePath_eq_of_same h]

theorem normalizePath_slash (rest : Text) : ∃ rest', normalizePath (slash :: rest) = slash :: rest' := by
  obtain ⟨first, segments, hpath, hfirst, hsegments⟩ := exists_segments (slash :: rest)
  cases first with
  | cons c first =>
    cases hpath
    exact absurd List.mem_cons_self hfirst
  | nil =>
    cases segments with
    | nil => cases hpath
    | cons w segments =>
      rw [hpath, normalizePath_join hfirst hsegments]
      exact ⟨_, rfl⟩

theorem buildKey_path (keyPrefix scope caller rest : Text) :
    buildKey keyPrefix scope caller (slash :: rest) = List.intercalate (text ":")
      ([keyPrefix, text "rl", scope, caller, normalizePath (slash :: rest)].filter
        (fun p => decide (p ≠ []))) := by
  have hstar : slash :: rest ≠ text "*" := by
    intro h
    have hhead := congrArg List.head? h
    cases hhead
  unfold buildKey
  rw [if_pos hstar]

/-- The key of a request, from its first part on. -/
theorem buildKey_eq {scope caller : Text} (keyPrefix rest : Text) (hscope : scope ≠ [])
    (hcaller : caller ≠ []) :
    buildKey keyPrefix scope caller (slash :: rest) =
      (if keyPrefix = [] then [] else keyPrefix ++ [colon]) ++ (text "rl" ++ colon :: (scope ++ colon ::
        (caller ++ colon :: normalizePath (slash :: rest)))) := by
  obtain ⟨rest', hrest⟩ := normalizePath_slash rest
  rw [buildKey_path, hrest]
  by_cases hp : keyPrefix = []
  · simp [hp, hscope, hcaller, List.intercalate, colon, text, codePoint]
  · simp [hp, hscope, hcaller, List.intercalate, colon, text, codePoint]

/-- A colon before a slash ends a text in which there is none. -/
theorem colon_slash_inj {a b rest rest' : Text} (ha : ¬ [colon, slash] <:+: a)
    (hb : ¬ [colon, slash] <:+: b)
    (h : a ++ colon :: slash :: rest = b ++ colon :: slash :: rest') : a = b ∧ rest = rest' := by
  -- the longer text would have them where the shorter one ends
  have hlonger : ∀ {a b x rest rest' : Text}, ¬ [colon, slash] <:+: b → b = a ++ x →
      colon :: slash :: rest = x ++ colon :: slash :: rest' → x = [] := by
    intro a b x rest rest' hb hx hrest
    cases x with
    | nil => rfl
    | cons c x =>
      cases x with
      | nil =>
        rw [List.singleton_append, List.cons.injEq, List.cons.injEq] at hrest
        exact absurd hrest.2.1 (by decide)
      | cons d x =>
        rw [List.cons_append, List.cons_append, List.cons.injEq, List.cons.injEq] at hrest
        obtain ⟨rfl, rfl, _⟩ := hrest
        exact absurd ⟨a, x, by rw [hx, List.append_assoc]; rfl⟩ hb
  have hempty : a = b := by
    rcases List.append_eq_append_iff.1 h with ⟨x, hx, hrest⟩ | ⟨x, hx, hrest⟩
    · rw [hx, hlonger hb hx hrest, List.append_nil]
    · rw [hx, hlonger ha hx hrest, List.append_nil]
  subst hempty
  have hrest := List.append_cancel_left h
  rw [List.cons.injEq, List.cons.injEq] at hrest
  exact ⟨rfl, hrest.2.2⟩

/-- A scope as services write it, and a caller, such as a user's id or an IP address, that has no colon
before a slash. -/
structure Named (scope caller : Text) : Prop where
  scope_ne : scope ≠ []
  scope_plain : colon ∉ scope
  caller_ne : caller ≠ []
  caller_plain : ¬ [colon, slash] <:+: caller

/-- Two requests have the same key only if they come from the same caller, in the same scope, and their
paths are the same up to ids. -/
theorem key_shared_iff (keyPrefix : Text) {scope scope' caller caller' rest rest' : Text}
    (h : Named scope caller) (h' : Named scope' caller') :
    buildKey keyPrefix scope caller (slash :: rest) = buildKey keyPrefix scope' caller' (slash :: rest') ↔
      scope = scope' ∧ caller = caller' ∧ normalizePath (slash :: rest) = normalizePath (slash :: rest') := by
  rw [buildKey_eq keyPrefix rest h.scope_ne h.caller_ne,
    buildKey_eq keyPrefix rest' h'.scope_ne h'.caller_ne]
  constructor
  · intro heq
    have hrest := List.append_cancel_left (List.append_cancel_left heq)
    rw [List.cons.injEq] at hrest
    have hparts := congrArg (partition colon) hrest.2
    rw [partition_append h.scope_plain, partition_append h'.scope_plain, Prod.mk.injEq] at hparts
    obtain ⟨hscope, hcaller⟩ := hparts
    obtain ⟨path, hpath⟩ := normalizePath_slash rest
    obtain ⟨path', hpath'⟩ := normalizePath_slash rest'
    rw [hpath, hpath'] at hcaller ⊢
    obtain ⟨hsame, hrest⟩ := colon_slash_inj h.caller_plain h'.caller_plain hcaller
    exact ⟨hscope, hsame, by rw [hrest]⟩
  · intro heq
    obtain ⟨rfl, rfl, hpath⟩ := heq
    rw [hpath]

/-- The key under which a window is counted, as `windowKey` makes it of any `str`. -/
def counterKey (key : Text) (window : WindowConfig) : Text :=
  key ++ text (":" ++ toString window.windowSeconds ++ "s")

theorem text_windowKey (key : String) (window : WindowConfig) :
    text (windowKey key window) = counterKey (text key) window := by
  simp [windowKey, counterKey, text, String.toList_append]

theorem counterKey_eq (key : Text) (window : WindowConfig) :
    counterKey key window = key ++ colon :: text (toString window.windowSeconds ++ "s") := by
  simp [counterKey, text, colon, String.toList_append]

theorem counterKey_inj {key key' : Text} {window window' : WindowConfig} :
    counterKey key window = counterKey key' window' ↔
      key = key' ∧ window.windowSeconds = window'.windowSeconds := by
  have hcolon : ∀ n : Int, colon ∉ text (toString n ++ "s") := by
    intro n h
    obtain ⟨c, hc, hcolon⟩ := List.mem_map.1 h
    rw [codePoint_injective hcolon] at hc
    exact colon_notMem n hc
  constructor
  · intro h
    have hlast : text (toString window.windowSeconds ++ "s") =
        text (toString window'.windowSeconds ++ "s") := by
      rw [← afterLast_append (hcolon window.windowSeconds), ← counterKey_eq key, h, counterKey_eq,
        afterLast_append (hcolon window'.windowSeconds)]
    rw [counterKey_eq, counterKey_eq, hlast, List.append_cancel_right_eq] at h
    have hseconds := congrArg String.toList (text_injective hlast)
    simp only [String.toList_append, List.append_cancel_right_eq] at hseconds
    exact ⟨h, Int.repr_injective (String.toList_inj.1 hseconds)⟩
  · intro h
    rw [counterKey, counterKey, h.1, h.2]

/-- Two requests are counted together only if they come from the same caller, in the same scope, their
paths are the same up to ids, and their windows have the same length. -/
theorem counter_shared_iff (keyPrefix : Text) {scope scope' caller caller' rest rest' : Text}
    (h : Named scope caller) (h' : Named scope' caller') (window window' : WindowConfig) :
    counterKey (buildKey keyPrefix scope caller (slash :: rest)) window =
        counterKey (buildKey keyPrefix scope' caller' (slash :: rest')) window' ↔
      scope = scope' ∧ caller = caller' ∧
      normalizePath (slash :: rest) = normalizePath (slash :: rest') ∧
      window.windowSeconds = window'.windowSeconds := by
  rw [counterKey_inj, key_shared_iff keyPrefix h h']
  simp only [and_assoc]

/-- Callers of two addresses, on the path of one endpoint. -/
theorem counter_shared_addresses :
    counterKey (buildKey (text "dev") (text "api") (text "::1") (text "/leads/7")) {} ≠
        counterKey (buildKey (text "dev") (text "api") (text "::2") (text "/leads/7")) {} ∧
      counterKey (buildKey (text "dev") (text "api") (text "::1") (text "/leads/7")) {} =
        counterKey (buildKey (text "dev") (text "api") (text "::1") (text "/leads/8")) ⟨5, 60⟩ := by
  have hone : Named (text "api") (text "::1") := ⟨by decide, by decide, by decide, by decide⟩
  have htwo : Named (text "api") (text "::2") := ⟨by decide, by decide, by decide, by decide⟩
  have hpath : normalizePath (text "/leads/7") = normalizePath (text "/leads/8") := by decide +kernel
  refine ⟨fun h => ?_, (counter_shared_iff (text "dev") hone hone _ _).2 ⟨rfl, rfl, hpath, rfl⟩⟩
  exact absurd ((counter_shared_iff (text "dev") hone htwo _ _).1 h).2.1 (by decide)

/-- With a colon before a slash in a caller, a request of another caller can have its key. -/
example : buildKey (text "dev") (text "api") (text "a:/x") (text "/y") =
    buildKey (text "dev") (text "api") (text "a") (text "/x:/y") := by decide +kernel

end Keys

end RateLimiter
end TrShared
