import TrShared.Machine.FixedWindow
import TrShared.Machine.Shared
import TrShared.RateLimiter.Core

/-!
# TrShared.RateLimiter.Failover

`RateLimiter._check_window` while Redis comes and goes: any number of processes with one Redis and a
memory fallback each. A check that Redis does not answer may have been counted there all the same.

* `failover_bound`: of each window key, Redis and every process let fewer than twice the limit through
  in any interval of the window's length, and so all of them together at most that for Redis and for
  each process that fell back.
* `two_windows_meet`: the bound is reached.
-/

namespace TrShared
namespace RateLimiter

open Machine Python

abbrev Pid := Nat

structure FailoverRun where
  now : Time
  redis : Redis := {}
  memory : Pid → MemoryFallback := fun _ => {}
  /-- The calls that were let through: the key, the process if its own counter did it, and when. -/
  log : List (String × Option Pid × Time) := []

inductive FailoverAct where
  | tick (dt : Time)
  | check (pid : Pid) (key : String) (reply : Reply)
  deriving DecidableEq

/-- `_check_window` of a fixed window with `FailMode.OPEN`; `key` is its `window_key`. -/
def FailoverRun.check (p : Limits) (s : FailoverRun) (pid : Pid) (key : String) (reply : Reply) :
    FailoverRun :=
  let script := fixedWindowCheck s.redis s.now s.now key (p.limit key) (p.window key)
  let redis :=
    match script with
    | .ok (_, redis) => if reply.took then redis else s.redis
    | .error _ => s.redis
  match reply.returned, script with
  | true, .ok (result, _) =>
    { s with redis := redis
             log := if result.allowed then s.log ++ [(key, none, s.now)] else s.log }
  | _, _ =>
    let (result, memory) := (s.memory pid).check s.now key (p.limit key) (p.window key)
    { s with redis := redis
             memory := Function.update s.memory pid memory
             log := if result.allowed then s.log ++ [(key, some pid, s.now)] else s.log }

def FailoverRun.step (p : Limits) (s : FailoverRun) : FailoverAct → Option FailoverRun
  | .tick dt => if 0 ≤ dt then some { s with now := s.now + dt } else none
  | .check pid key reply => some (s.check p pid key reply)

/-- When a counter let calls for the key through. -/
def timesOf (log : List (String × Option Pid × Time)) (key : String) (via : Option Pid) : List Time :=
  (log.filter (fun e => decide (e.1 = key ∧ e.2.1 = via))).map (fun e => e.2.2)

/-- The calls for the key that were let through in the window's length after `a`. -/
def FailoverRun.allowedAfter (p : Limits) (s : FailoverRun) (key : String) (a : Time) : Nat :=
  s.log.countP (fun e => decide (e.1 = key ∧ a < e.2.2 ∧ e.2.2 ≤ a + p.window key))

/-! ## The counters -/

/-- The count and the end of a counter on Redis. -/
def redisCount : Option RedisEntry → Option (Int × Time)
  | some ⟨.counter n, some t⟩ => some (n, t)
  | _ => none

def bucketCount (b : Bucket) : Int × Time := (b.count, b.resetTime)

/-- What the counter of the key has at the moment: of Redis, or of a process. -/
def FailoverRun.kept (s : FailoverRun) (key : String) : Option Pid → Option (Int × Time)
  | none => redisCount (s.redis.find s.now key)
  | some pid => ((s.memory pid).live s.now key).map bucketCount

/-- A value of the fixed window on Redis. -/
def Counts (e : RedisEntry) : Prop := ∃ n t, 1 ≤ n ∧ e = ⟨.counter n, some t⟩

section Counters

variable {r : Redis} {now now' : Time} {key : String} {log : List Time} {limit w : Int}

theorem redisCount_visible {e : Option RedisEntry} (h : ∀ e', e = some e' → Counts e') :
    redisCount (e.filter (RedisEntry.visible now)) =
      (redisCount e).filter (fun c => decide (now ≤ c.2)) := by
  cases e with
  | none => rfl
  | some e =>
    obtain ⟨n, t, -, rfl⟩ := h e rfl
    by_cases hle : now ≤ t
    · simp [redisCount, RedisEntry.visible, Option.filter_some, hle]
    · simp [redisCount, RedisEntry.visible, Option.filter_some, hle]

theorem live_visible (m : MemoryFallback) (h : now ≤ now') :
    (m.live now' key).map bucketCount =
      ((m.live now key).map bucketCount).filter (fun c => decide (now' ≤ c.2)) := by
  rw [MemoryFallback.live_mono h]
  cases m.live now key with
  | none => rfl
  | some b =>
    simp only [Option.map_some, Option.filter_some, bucketCount]
    split <;> rfl

/-- One run of the script: the count goes up, and the caller may not learn of it. -/
theorem redis_counter (hl : 1 ≤ limit) (hw : 1 ≤ w)
    (hc : ∀ e, r.find now key = some e → Counts e)
    (h : WindowCounter limit.toNat (w : Time) now log (redisCount (r.find now key))) :
    ∃ result e, fixedWindowCheck r now now key limit w = .ok (result, r.put key (some e)) ∧
      Counts e ∧
      WindowCounter limit.toNat (w : Time) now log (redisCount ((r.put key (some e)).find now key)) ∧
      WindowCounter limit.toNat (w : Time) now (if result.allowed then log ++ [now] else log)
        (redisCount ((r.put key (some e)).find now key)) := by
  have hw0 : (0 : Time) ≤ w := by exact_mod_cast (by omega : (0 : Int) ≤ w)
  have hend : now ≤ now + (w : Time) := by linarith
  cases hf : r.find now key with
  | none =>
    rw [hf] at h
    obtain ⟨result, hr, ha, -⟩ := fixedWindowCheck_new hf now limit w
    rw [if_neg (by omega)] at hr
    have hkept : redisCount ((r.put key (some ⟨.counter 1, some (now + w)⟩)).find now key) =
        some (1, now + (w : Time)) := by
      simp [redisCount, Option.filter_some, RedisEntry.visible, hend]
    refine ⟨result, _, hr, ⟨1, _, le_refl 1, rfl⟩, ?_, ?_⟩
    · rw [hkept]
      exact h.restart hw0
    · rw [hkept, ha, decide_eq_true hl, if_pos rfl]
      exact h.restartAllow hw0
  | some e =>
    obtain ⟨n, t, hn, rfl⟩ := hc e hf
    rw [hf] at h
    have hlive : now ≤ t := of_decide_eq_true (Redis.find_eq_some.1 hf).2
    obtain ⟨result, hr, ha, -⟩ := fixedWindowCheck_counter hf hn now limit w
    have hkept : redisCount ((r.put key (some ⟨.counter (n + 1), some t⟩)).find now key) =
        some (n + 1, t) := by
      simp [redisCount, Option.filter_some, RedisEntry.visible, hlive]
    refine ⟨result, _, hr, ⟨n + 1, t, by omega, rfl⟩, ?_, ?_⟩
    · rw [hkept]
      exact h.ahead (by omega)
    · rw [hkept, ha]
      by_cases hle : n + 1 ≤ limit
      · rw [decide_eq_true hle, if_pos rfl]
        exact h.allow hlive (by omega)
      · rw [decide_eq_false hle, if_neg (by decide)]
        exact h.ahead (by omega)

/-- One check on the memory fallback. -/
theorem memory_counter {m : MemoryFallback} (hw : 1 ≤ w)
    (h : WindowCounter limit.toNat (w : Time) now log ((m.live now key).map bucketCount)) :
    WindowCounter limit.toNat (w : Time) now
      (if (m.check now key limit w).1.allowed then log ++ [now] else log)
      (((m.check now key limit w).2.live now key).map bucketCount) := by
  have hw0 : (0 : Time) ≤ w := by exact_mod_cast (by omega : (0 : Int) ≤ w)
  rw [MemoryFallback.check_live]
  cases hb : m.live now key with
  | none =>
    rw [hb] at h
    have hend : now ≤ now + (w : Time) := by linarith
    simp only [MemoryFallback.restart, if_true, MemoryFallback.setBucket_live_self, if_pos hend,
      Option.map_some, bucketCount]
    exact h.restartAllow hw0
  | some b =>
    rw [hb] at h
    have hlive : now ≤ b.resetTime := (MemoryFallback.live_eq_some.1 hb).2
    by_cases hfull : limit ≤ b.count
    · simp only [if_pos hfull, Bool.false_eq_true, if_false, MemoryFallback.tidy_live, hb]
      exact h
    · simp only [if_neg hfull, if_true, MemoryFallback.setBucket_live_self, if_pos hlive,
        Option.map_some, bucketCount]
      exact h.allow hlive (by omega)

end Counters

/-! ## The calls of one counter -/

section Times

variable {log : List (String × Option Pid × Time)} {key key' : String} {via via' : Option Pid}
  {t a : Time}

theorem timesOf_snoc : timesOf (log ++ [(key, via, t)]) key' via' =
    timesOf log key' via' ++ if key = key' ∧ via = via' then [t] else [] := by
  rw [timesOf, timesOf, List.filter_append, List.map_append]
  congr 1
  by_cases h : key = key' ∧ via = via'
  · simp [h]
  · rw [if_neg h, List.filter_singleton, decide_eq_false h]
    rfl

/-- The log after a check that the counter `via` of `key` answered. -/
theorem timesOf_answered (allowed : Bool) :
    timesOf (if allowed then log ++ [(key, via, t)] else log) key' via' =
      if key = key' ∧ via = via' then
        if allowed then timesOf log key' via' ++ [t] else timesOf log key' via'
      else timesOf log key' via' := by
  cases allowed with
  | false => simp
  | true =>
    rw [if_pos rfl, timesOf_snoc]
    split
    · rfl
    · exact List.append_nil _

theorem within_timesOf (b : Time) : within (timesOf log key via) a b =
    log.countP (fun e => decide (e.1 = key ∧ e.2.1 = via ∧ a < e.2.2 ∧ e.2.2 ≤ b)) := by
  rw [within, timesOf, List.countP_map, List.countP_filter]
  refine List.countP_congr (fun e _ => ?_)
  simp only [Function.comp_apply, Bool.and_eq_true, decide_eq_true_eq]
  tauto

end Times

/-! ## Every run -/

/-- Redis does not answer only the processes of the list. -/
def FailoverAct.FallsBackIn (pids : List Pid) : FailoverAct → Prop
  | .check pid _ reply => reply.returned = false → pid ∈ pids
  | .tick _ => True

instance FailoverAct.FallsBackIn.decidable (pids : List Pid) (a : FailoverAct) :
    Decidable (a.FallsBackIn pids) :=
  match a with
  | .check pid _ reply => inferInstanceAs (Decidable (reply.returned = false → pid ∈ pids))
  | .tick _ => isTrue trivial

def FailoverRun.start (now : Time) (threshold : Pid → Int) : FailoverRun :=
  { now := now, memory := fun pid => .init (threshold pid) }

structure FailoverCounted (p : Limits) (pids : List Pid) (s : FailoverRun) : Prop where
  counts : ∀ key e, s.redis.slot key = some e → Counts e
  window : ∀ key via, WindowCounter (p.limit key).toNat (p.window key : Time) s.now
    (timesOf s.log key via) (s.kept key via)
  from_memory : ∀ e ∈ s.log, ∀ pid, e.2.1 = some pid → pid ∈ pids

section Step

variable {p : Limits} {pids : List Pid} {s s' : FailoverRun}

theorem FailoverCounted.start (now : Time) (threshold : Pid → Int) :
    FailoverCounted p pids (.start now threshold) where
  counts key e he := by cases he
  window key via := by
    have hl : 0 < (p.limit key).toNat := by
      have hl := p.one_le_limit key
      omega
    cases via with
    | none => exact .empty hl
    | some pid => exact .empty hl
  from_memory e he := by cases he

theorem FailoverCounted.tick {dt : Time} (h : FailoverCounted p pids s) (hdt : 0 ≤ dt) :
    FailoverCounted p pids { s with now := s.now + dt } where
  counts := h.counts
  from_memory := h.from_memory
  window key via := by
    have hle : s.now ≤ s.now + dt := by linarith
    have hlater := ((h.window key via).later hle).expire
    have hkept : FailoverRun.kept { s with now := s.now + dt } key via =
        (s.kept key via).filter (fun c => decide (s.now + dt ≤ c.2)) := by
      cases via with
      | some pid => exact live_visible (s.memory pid) hle
      | none =>
        show redisCount (s.redis.find (s.now + dt) key) = _
        rw [Redis.find_mono hle, redisCount_visible]
        · rfl
        · intro e he
          exact h.counts key e (Redis.find_eq_some.1 he).1
    rw [hkept]
    exact hlater

/-- What a check does: one counter answers, and Redis may have counted without saying so. -/
structure Checked (p : Limits) (s s' : FailoverRun) (key : String) (via : Option Pid)
    (allowed : Bool) : Prop where
  now : s'.now = s.now
  log : s'.log = if allowed then s.log ++ [(key, via, s.now)] else s.log
  counts : ∀ key e, s'.redis.slot key = some e → Counts e
  other : ∀ key' via', key' ≠ key → s'.kept key' via' = s.kept key' via'
  quiet : ∀ via', via' ≠ via → WindowCounter (p.limit key).toNat (p.window key : Time) s.now
    (timesOf s.log key via') (s'.kept key via')
  answered : WindowCounter (p.limit key).toNat (p.window key : Time) s.now
    (if allowed then timesOf s.log key via ++ [s.now] else timesOf s.log key via) (s'.kept key via)

theorem FailoverCounted.checked {key : String} {via : Option Pid} {allowed : Bool}
    (h : FailoverCounted p pids s) (hc : Checked p s s' key via allowed)
    (hvia : ∀ pid, via = some pid → pid ∈ pids) :
    FailoverCounted p pids s' where
  counts := hc.counts
  from_memory e he := by
    rw [hc.log] at he
    cases allowed with
    | false => exact h.from_memory e he
    | true =>
      rcases mem_snoc he with he | rfl
      · exact h.from_memory e he
      · exact hvia
  window key' via' := by
    rw [hc.now, hc.log, timesOf_answered]
    by_cases hk : key = key'
    · subst hk
      by_cases hv : via = via'
      · subst hv
        rw [if_pos ⟨rfl, rfl⟩]
        exact hc.answered
      · rw [if_neg (fun hb => hv hb.2)]
        exact hc.quiet via' (Ne.symm hv)
    · rw [if_neg (fun hb => hk hb.1), hc.other key' via' (Ne.symm hk)]
      exact h.window key' via'

theorem counts_put {r : Redis} {key : String} {e : RedisEntry}
    (h : ∀ key e, r.slot key = some e → Counts e) (he : Counts e) (key' : String) (e' : RedisEntry)
    (hs : (r.put key (some e)).slot key' = some e') : Counts e' := by
  by_cases hk : key' = key
  · subst hk
    rw [Redis.put_slot_self, Option.some.injEq] at hs
    rwa [← hs]
  · rw [Redis.put_slot_of_ne _ hk] at hs
    exact h key' e' hs

/-- Redis answers. -/
theorem FailoverCounted.onRedis (h : FailoverCounted p pids s) (pid : Pid) (key : String) :
    ∃ allowed, Checked p s (s.check p pid key .ok) key none allowed := by
  obtain ⟨result, e, hr, he, _, hallowed⟩ := redis_counter (p.one_le_limit key) (p.one_le_window key)
    (fun e he => h.counts key e (Redis.find_eq_some.1 he).1) (h.window key none)
  have hs' : s.check p pid key .ok = { s with
      redis := s.redis.put key (some e)
      log := if result.allowed then s.log ++ [(key, none, s.now)] else s.log } := by
    simp [FailoverRun.check, hr, Reply.took, Reply.returned]
  rw [hs']
  refine ⟨result.allowed, rfl, rfl, counts_put h.counts he, ?_, ?_, hallowed⟩
  · intro key' via' hk
    cases via' with
    | none =>
      show redisCount ((s.redis.put key (some e)).find s.now key') = _
      rw [Redis.find_put_of_ne _ hk]
      rfl
    | some pid' => rfl
  · intro via' hv
    cases via' with
    | none => exact (hv rfl).elim
    | some pid' => exact h.window key (some pid')

/-- The process falls back on its own counter, whether Redis has counted or not. -/
theorem FailoverCounted.onMemory (h : FailoverCounted p pids s) (pid : Pid) (key : String) {reply : Reply}
    (hlost : reply.returned = false) :
    ∃ allowed, Checked p s (s.check p pid key reply) key (some pid) allowed := by
  obtain ⟨result, e, hr, he, hcounted, _⟩ := redis_counter (p.one_le_limit key) (p.one_le_window key)
    (fun e he => h.counts key e (Redis.find_eq_some.1 he).1) (h.window key none)
  set memory := (s.memory pid).check s.now key (p.limit key) (p.window key) with hmemory
  have hs' : s.check p pid key reply = { s with
      redis := if reply.took then s.redis.put key (some e) else s.redis
      memory := Function.update s.memory pid memory.2
      log := if memory.1.allowed then s.log ++ [(key, some pid, s.now)] else s.log } := by
    simp [FailoverRun.check, hr, hlost, hmemory]
  rw [hs']
  refine ⟨memory.1.allowed, rfl, rfl, ?_, ?_, ?_, ?_⟩
  · dsimp only
    split
    · exact counts_put h.counts he
    · exact h.counts
  · intro key' via' hk
    cases via' with
    | none =>
      show redisCount (Redis.find (if _ then _ else _) s.now key') = _
      split
      · rw [Redis.find_put_of_ne _ hk]
        rfl
      · rfl
    | some pid' =>
      show ((Function.update s.memory pid memory.2 pid').live s.now key').map bucketCount = _
      rcases update_cases s.memory pid memory.2 pid' with ⟨rfl, hu⟩ | ⟨_, hu⟩
      · rw [hu, hmemory, MemoryFallback.check_live_of_ne hk]
        rfl
      · rw [hu]
        rfl
  · intro via' hv
    cases via' with
    | none =>
      show WindowCounter _ _ _ _ (redisCount (Redis.find (if _ then _ else _) s.now key))
      split
      · exact hcounted
      · exact h.window key none
    | some pid' =>
      have hne : pid' ≠ pid := fun hp => hv (congrArg some hp)
      show WindowCounter _ _ _ _ (((Function.update s.memory pid memory.2 pid').live s.now key).map
        bucketCount)
      rw [Function.update_of_ne hne]
      exact h.window key (some pid')
  · show WindowCounter _ _ _ _ (((Function.update s.memory pid memory.2 pid).live s.now key).map
      bucketCount)
    rw [Function.update_self, hmemory]
    exact memory_counter (p.one_le_window key) (h.window key (some pid))

theorem FailoverCounted.step {a : FailoverAct} (h : FailoverCounted p pids s) (ha : a.FallsBackIn pids)
    (hs : s.step p a = some s') :
    FailoverCounted p pids s' := by
  cases a with
  | tick dt =>
    simp only [FailoverRun.step] at hs
    split at hs
    · cases hs
      exact h.tick ‹_›
    · cases hs
  | check pid key reply =>
    simp only [FailoverRun.step, Option.some.injEq] at hs
    subst hs
    cases hreply : reply.returned with
    | true =>
      obtain rfl : reply = .ok := by cases reply <;> simp_all [Reply.returned]
      obtain ⟨allowed, hc⟩ := h.onRedis pid key
      exact h.checked hc (fun _ hv => by cases hv)
    | false =>
      obtain ⟨allowed, hc⟩ := h.onMemory pid key hreply
      exact h.checked hc (fun _ hv => by cases hv; exact ha hreply)

end Step

/-! ## The bound -/

/-- For every run of checks by any processes, with Redis reached or not and its answers lost or not,
at any moments: of each key, Redis and each process let at most `2 * limit - 1` calls through in any
interval of the window's length, and all together at most that for Redis and for each process that was
without an answer. -/
theorem failover_bound (p : Limits) (now : Time) (threshold : Pid → Int) (pids : List Pid)
    (acts : List FailoverAct) (s : FailoverRun)
    (hrun : Run (FailoverRun.step p) (fun _ a => a.FallsBackIn pids) (.start now threshold) acts s)
    (key : String) (a : Time) :
    (∀ via, within (timesOf s.log key via) a (a + p.window key) ≤ 2 * (p.limit key).toNat - 1) ∧
    s.allowedAfter p key a ≤ (2 * (p.limit key).toNat - 1) * (1 + pids.length) := by
  have hc : FailoverCounted p pids s :=
    hrun.invariant (fun _ _ _ hi ha hs => hi.step ha hs) (FailoverCounted.start now threshold)
  have hvia : ∀ via, within (timesOf s.log key via) a (a + p.window key) ≤
      2 * (p.limit key).toNat - 1 := fun via => Nat.le_sub_one_of_lt ((hc.window key via).bound a)
  refine ⟨hvia, ?_⟩
  have htotal : s.allowedAfter p key a ≤
      (2 * (p.limit key).toNat - 1) * ((none : Option Pid) :: pids.map some).length := by
    refine countP_le_mul (q := fun via e => decide (e.1 = key ∧ e.2.1 = via ∧ a < e.2.2 ∧
      e.2.2 ≤ a + p.window key)) (fun e he hin => ?_) (fun via _ => ?_)
    · obtain ⟨hk, hin⟩ := of_decide_eq_true hin
      refine ⟨e.2.1, ?_, decide_eq_true ⟨hk, rfl, hin⟩⟩
      cases hv : e.2.1 with
      | none => exact List.mem_cons_self
      | some pid =>
        exact List.mem_cons_of_mem _ (List.mem_map_of_mem (hc.from_memory e he pid hv))
    · rw [← within_timesOf]
      exact hvia via
  rw [List.length_cons, List.length_map, Nat.add_comm pids.length 1] at htotal
  exact htotal

def twoInTen : Limits := { oneInTen with limit := fun _ => 2, one_le_limit := fun _ => by decide }

/-- Redis and a process that falls back start a window each at 0 and at 11. -/
def windowsMeet : List FailoverAct :=
  [.check 0 "a" .ok, .check 1 "a" .refused, .tick 10, .check 0 "a" .ok, .check 1 "a" .refused,
    .tick 1, .check 0 "a" .ok, .check 0 "a" .ok, .check 1 "a" .refused, .check 1 "a" .lost]

/-- The bound is reached: six calls are let through after 1 and up to 11. -/
theorem two_windows_meet : ∃ s,
    Run (FailoverRun.step twoInTen) (fun _ a => a.FallsBackIn [1]) (.start 0 (fun _ => 10000))
      windowsMeet s ∧
    s.allowedAfter twoInTen "a" 1 = 6 ∧
    s.allowedAfter twoInTen "a" 1 ≤ (2 * (twoInTen.limit "a").toNat - 1) * (1 + [1].length) := by
  have hx : (exec (FailoverRun.step twoInTen) (.start 0 (fun _ => 10000)) windowsMeet).any
      (fun s => decide (s.allowedAfter twoInTen "a" 1 = 6)) = true := by
    decide +kernel
  have hall : ∀ a ∈ windowsMeet, a.FallsBackIn [1] := by decide
  obtain ⟨s, hs, hcount⟩ := exec_any hx
  have hrun : Run (FailoverRun.step twoInTen) (fun _ a => a.FallsBackIn [1])
      (.start 0 (fun _ => 10000)) windowsMeet s := Run.of_exec_all (fun a ha _ => hall a ha) hs
  exact ⟨s, hrun, of_decide_eq_true hcount, (failover_bound twoInTen 0 _ [1] _ s hrun "a" 1).2⟩

end RateLimiter
end TrShared
