import TrShared.Machine.History
import TrShared.Machine.Run
import TrShared.RateLimiter.Algorithms

/-!
# TrShared.RateLimiter.SlidingWindow

`SlidingWindowAlgorithm.check` over whole runs on one key. Redis runs the calls in the order of their
timestamps; its own clock, by which keys expire, moves on independently.

The script counts members of a set, so the bound needs every call of a window to leave a member of
its own.

* `sliding_window_bound`: in every run in which no call prints the same timestamp as a call still in
  its window, and no key expires with entries of the window in it, any interval of a window's
  length has at most `limit` allowed calls.
* `close_calls_pass_the_limit`: two calls within the same tenth of a millisecond are one member.
-/

namespace TrShared
namespace RateLimiter

open Machine

structure WindowParams where
  key : String
  limit : Int
  windowSeconds : Int
  /-- What `math.random(1000000)` returns after the reseeding before every run of a script. -/
  random : Nat

structure WindowRun where
  redis : Redis := {}
  /-- Redis's clock. -/
  clock : Time
  /-- The timestamp of the last call. -/
  last : Time
  /-- The calls so far: the timestamp, and whether the call was allowed. -/
  log : List (Time × Bool) := []

inductive WindowAct where
  | pass (dt : Time)
  | check (now : Time)
  deriving DecidableEq

def WindowRun.step (p : WindowParams) (s : WindowRun) : WindowAct → Option WindowRun
  | .pass dt => if 0 ≤ dt then some { s with clock := s.clock + dt } else none
  | .check now =>
    if s.last ≤ now then
      match slidingWindowCheck p.random s.redis s.clock now p.key p.limit p.windowSeconds with
      | .ok (result, r) =>
        some { s with redis := r, last := now, log := s.log ++ [(now, result.allowed)] }
      | .error _ => some { s with last := now }
    else none

/-- The allowed calls with timestamps in `(t - w, t]`. -/
def WindowRun.allowedIn (s : WindowRun) (w : Int) (t : Time) : Nat :=
  s.log.countP (fun e => e.2 && decide (t - w < e.1 ∧ e.1 ≤ t))

/-- What the bound asks of a call at `now`: every entry that the key holds from the window is still
visible, and its member is not the one this call writes. -/
def Fresh (p : WindowParams) (s : WindowRun) (a : WindowAct) : Prop :=
  ∀ now, a = .check now → ∀ entry, s.redis.slot p.key = some entry →
    ∀ e ∈ entriesOf (some entry), now - p.windowSeconds < e.2 →
      entry.visible s.clock = true ∧ e.1 ≠ ⟨sig14 now, p.random⟩

/-! ## Counting members -/

/-- The entries with a score after `x`. -/
def laterThan (z : List (Member × Time)) (x : Time) : Nat := z.countP (fun e => decide (x < e.2))

theorem laterThan_le_length (z : List (Member × Time)) (x : Time) : laterThan z x ≤ z.length :=
  List.countP_le_length

theorem laterThan_append (z z' : List (Member × Time)) (x : Time) :
    laterThan (z ++ z') x = laterThan z x + laterThan z' x :=
  List.countP_append

theorem laterThan_kept {z : List (Member × Time)} {hi x : Time} (h : hi ≤ x) :
    laterThan (keptEntries z hi) x = laterThan z x := by
  simp only [laterThan, keptEntries, List.countP_filter]
  refine List.countP_congr ?_
  intro e _
  simp only [Bool.and_eq_true, decide_eq_true_eq, Bool.not_eq_true', decide_eq_false_iff_not,
    not_and, not_le, and_iff_left_iff_imp]
  intro hx _
  linarith

/-- Giving a member a score after `x` loses none of the other entries after `x`. -/
theorem laterThan_rescore {z : List (Member × Time)} {m : Member} {score x : Time}
    (hx : x < score) (hm : ∀ e ∈ z, x < e.2 → e.1 ≠ m) :
    laterThan (z.map (fun e => if e.1 == m then (m, score) else e)) x =
      laterThan z x + z.countP (fun e => e.1 == m) := by
  induction z with
  | nil => rfl
  | cons e z ih =>
    have ih := ih (fun e' he' => hm e' (List.mem_cons_of_mem e he'))
    simp only [laterThan] at ih
    simp only [laterThan, List.map_cons, List.countP_cons, ih]
    by_cases he : e.1 = m
    · have hle : ¬ x < e.2 := fun hlt => hm e (by simp) hlt he
      simp only [he, beq_self_eq_true, if_true, hx, hle, decide_true, decide_false,
        Bool.false_eq_true, if_false]
      omega
    · have hb : (e.1 == m) = false := by simpa using he
      simp only [hb, Bool.false_eq_true, if_false]
      omega

/-- A member of its own adds one to every count that looks back no further than the window. -/
theorem laterThan_zadd {z : List (Member × Time)} {m : Member} {score x : Time}
    (hx : x < score) (hm : ∀ e ∈ z, x < e.2 → e.1 ≠ m) :
    laterThan z x + 1 ≤ laterThan (zaddEntries z score m) x := by
  simp only [zaddEntries]
  split
  · rename_i hany
    rw [laterThan_rescore hx hm]
    have hpos : 0 < z.countP (fun e => e.1 == m) := by
      rw [List.countP_pos_iff]
      simpa using hany
    omega
  · rw [laterThan_append]
    simp [laterThan, hx]

/-! ## The invariant -/

/-- The calls after `x`. -/
def callsAfter (log : List (Time × Bool)) (x : Time) : Nat := log.countP (fun e => decide (x < e.1))

/-- Every call of the last window has left a member, and the bound holds so far. -/
structure Counted (p : WindowParams) (s : WindowRun) : Prop where
  past : ∀ e ∈ s.log, e.1 ≤ s.last
  sorted : isCounter (s.redis.slot p.key) = false
  members : ∀ x, s.last - p.windowSeconds ≤ x →
    callsAfter s.log x ≤ laterThan (entriesOf (s.redis.slot p.key)) x
  bound : ∀ t, (s.allowedIn p.windowSeconds t : Int) ≤ p.limit

section Counted

variable {p : WindowParams} {s s' : WindowRun} {now : Time}

theorem callsAfter_snoc (log : List (Time × Bool)) (now x : Time) (b : Bool) :
    callsAfter (log ++ [(now, b)]) x = callsAfter log x + if x < now then 1 else 0 := by
  simp [callsAfter, List.countP_append, List.countP_cons]

theorem callsAfter_eq_zero {log : List (Time × Bool)} {x : Time} (h : ∀ e ∈ log, e.1 ≤ x) :
    callsAfter log x = 0 := by
  rw [callsAfter, List.countP_eq_zero]
  intro e he
  simpa using h e he

theorem Counted.start {clock last : Time} (hl : 1 ≤ p.limit) :
    Counted p ({ clock := clock, last := last } : WindowRun) where
  past e he := by cases he
  sorted := rfl
  members x _ := Nat.le_refl 0
  bound t := by
    show (0 : Int) ≤ p.limit
    omega

/-- What the script finds under the key, and how it counts what the key holds. -/
theorem Fresh.entries (hf : Fresh p s (.check now)) {x : Time}
    (hx : now - p.windowSeconds ≤ x) :
    laterThan (entriesOf (s.redis.slot p.key)) x =
      laterThan (entriesOf (s.redis.find s.clock p.key)) x ∧
    ∀ e ∈ entriesOf (s.redis.find s.clock p.key), x < e.2 → e.1 ≠ ⟨sig14 now, p.random⟩ := by
  cases hs : s.redis.slot p.key with
  | none =>
    simp [Redis.find, hs, entriesOf]
  | some entry =>
    have hfresh := hf now rfl entry hs
    cases hv : entry.visible s.clock with
    | true =>
      have hfind := Redis.find_eq_some.mpr ⟨hs, hv⟩
      rw [hfind]
      exact ⟨rfl, fun e he hxe => (hfresh e he (by linarith)).2⟩
    | false =>
      -- an expired key holds nothing of the window
      have hnone : s.redis.find s.clock p.key = none := by simp [Redis.find, hs, hv]
      rw [hnone]
      refine ⟨?_, fun e he => by cases he⟩
      rw [laterThan, List.countP_eq_zero.mpr]
      · rfl
      · intro e he
        simp only [decide_eq_true_eq]
        intro hxe
        have := (hfresh e he (by linarith)).1
        rw [hv] at this
        cases this

theorem isCounter_find {r : Redis} {k : String} {clock : Time} (h : isCounter (r.slot k) = false) :
    isCounter (r.find clock k) = false := by
  simp only [Redis.find]
  cases hs : r.slot k with
  | none => rfl
  | some entry =>
    rw [hs] at h
    rw [Option.filter_some]
    split
    · exact h
    · rfl

/-- The call at `now` leaves a member for itself and keeps those of its window. -/
theorem Counted.counts (h : Counted p s) (hf : Fresh p s (.check now)) (hnow : s.last ≤ now)
    {z : List (Member × Time)}
    (hz : z = windowEntries p.random (entriesOf (s.redis.find s.clock p.key)) now p.windowSeconds)
    {x : Time} (hx : now - p.windowSeconds ≤ x) (hlt : x < now) :
    callsAfter s.log x + 1 ≤ laterThan z x := by
  obtain ⟨heq, hm⟩ := hf.entries hx
  have hold : callsAfter s.log x ≤ laterThan (entriesOf (s.redis.slot p.key)) x :=
    h.members x (by linarith)
  rw [heq, ← laterThan_kept hx] at hold
  have hadd := laterThan_zadd (z := keptEntries (entriesOf (s.redis.find s.clock p.key))
      (now - p.windowSeconds)) (m := ⟨sig14 now, p.random⟩) hlt
    (fun e he => hm e (List.mem_of_mem_filter he))
  rw [hz]
  exact le_trans (Nat.add_le_add_right hold 1) hadd

theorem allowedIn_snoc {r : Redis} {w : Int} {t : Time} {b : Bool} :
    WindowRun.allowedIn { s with redis := r, last := now, log := s.log ++ [(now, b)] } w t =
      s.allowedIn w t + if b = true ∧ t - w < now ∧ now ≤ t then 1 else 0 := by
  simp [WindowRun.allowedIn, List.countP_append, List.countP_cons]

/-- Calls allowed in a window that ends later are calls after the start of this one. -/
theorem allowedIn_le_callsAfter {w : Int} {t x : Time} (hx : x ≤ t - w) :
    s.allowedIn w t ≤ callsAfter s.log x := by
  refine List.countP_mono_left ?_
  intro e _
  simp only [Bool.and_eq_true, decide_eq_true_eq, and_imp]
  intro _ hlt _
  linarith

theorem Counted.check {z : List (Member × Time)} {result : RateLimitResult} (h : Counted p s)
    (hf : Fresh p s (.check now)) (hnow : s.last ≤ now)
    (hz : z = windowEntries p.random (entriesOf (s.redis.find s.clock p.key)) now p.windowSeconds)
    (ha : result.allowed = decide ((z.length : Int) ≤ p.limit)) :
    Counted p { s with
      redis := s.redis.put p.key (if p.windowSeconds ≤ 0 then none
        else some ⟨.zset z, some (s.clock + p.windowSeconds)⟩)
      last := now
      log := s.log ++ [(now, result.allowed)] } := by
  have hpast : ∀ e ∈ s.log ++ [(now, result.allowed)], e.1 ≤ now := by
    intro e he
    rcases mem_snoc he with he | rfl
    · exact le_trans (h.past e he) hnow
    · exact le_refl now
  refine ⟨hpast, ?_, ?_, ?_⟩
  · rw [Redis.put_slot_self]
    split <;> rfl
  · intro x hx
    by_cases hlt : x < now
    · have hw : ¬ p.windowSeconds ≤ 0 := by
        intro hw
        have : (p.windowSeconds : ℚ) ≤ 0 := by exact_mod_cast hw
        change now - p.windowSeconds ≤ x at hx
        linarith
      rw [Redis.put_slot_self, if_neg hw, callsAfter_snoc, if_pos hlt]
      exact h.counts hf hnow hz hx hlt
    · rw [callsAfter_eq_zero (fun e he => le_trans (hpast e he) (not_lt.mp hlt))]
      exact Nat.zero_le _
  · intro t
    rw [allowedIn_snoc]
    split
    · rename_i hin
      obtain ⟨hallowed, hlo, hhi⟩ := hin
      -- everything counted at `t` was counted by this call, which passed
      rw [ha, decide_eq_true_eq] at hallowed
      have hcount := h.counts hf hnow hz (x := t - p.windowSeconds) (by linarith) hlo
      have hlen := laterThan_le_length z (t - p.windowSeconds)
      have hle := allowedIn_le_callsAfter (s := s) (w := p.windowSeconds) (t := t) (le_refl _)
      omega
    · simpa using h.bound t

theorem Counted.step {a : WindowAct} (h : Counted p s) (hf : Fresh p s a)
    (hs : s.step p a = some s') : Counted p s' := by
  cases a with
  | pass dt =>
    simp only [WindowRun.step] at hs
    split at hs
    · cases hs; exact ⟨h.past, h.sorted, h.members, h.bound⟩
    · cases hs
  | check now =>
    simp only [WindowRun.step] at hs
    split at hs
    · rename_i hnow
      obtain ⟨result, hcheck, ha, -⟩ := slidingWindowCheck_ok rfl (isCounter_find h.sorted) rfl
        p.limit
      rw [hcheck] at hs
      cases hs
      exact h.check hf hnow rfl ha
    · cases hs

end Counted

/-- For every key, limit and window, and every run of calls with non-decreasing timestamps: if no call
prints the same timestamp as a call of its window whose entry the key still holds, and the key does
not expire on Redis's clock with entries of the window in it, at most `limit` calls are allowed in
any interval `(t - w, t]`. -/
theorem sliding_window_bound (p : WindowParams) (hl : 1 ≤ p.limit) (clock last : Time)
    (acts : List WindowAct) (s : WindowRun)
    (hrun : Run (WindowRun.step p) (Fresh p) { clock := clock, last := last } acts s) (t : Time) :
    (s.allowedIn p.windowSeconds t : Int) ≤ p.limit :=
  (hrun.invariant (fun _ _ _ hi hok hs => Counted.step hi hok hs) (Counted.start hl)).bound t

/-- `Fresh` as a check of one step. -/
def freshCheck (p : WindowParams) (s : WindowRun) : WindowAct → Bool
  | .pass _ => true
  | .check now =>
    match s.redis.slot p.key with
    | none => true
    | some entry => (entriesOf (some entry)).all (fun e =>
        !decide (now - p.windowSeconds < e.2) ||
          (entry.visible s.clock && decide (e.1 ≠ ⟨sig14 now, p.random⟩)))

theorem freshCheck_sound {p : WindowParams} {s : WindowRun} {a : WindowAct}
    (h : freshCheck p s a = true) : Fresh p s a := by
  rintro now rfl entry hs e he hlt
  simp only [freshCheck, hs, List.all_eq_true] at h
  have := h e he
  simpa [hlt] using this

def twoAMinute : WindowParams := ⟨"k", 2, 60, 7⟩

/-- Three calls a second apart: the third is over the limit of two. -/
theorem third_call_blocked : ∃ s,
    Run (WindowRun.step twoAMinute) (Fresh twoAMinute) { clock := 100, last := 100 }
      [.check 100, .pass 1, .check 101, .pass 1, .check 102] s ∧
    s.log.map Prod.snd = [true, true, false] ∧
    ∀ t, (s.allowedIn twoAMinute.windowSeconds t : Int) ≤ twoAMinute.limit := by
  have hx : (exec (Run.guarded (WindowRun.step twoAMinute) (freshCheck twoAMinute))
      { clock := 100, last := 100 } [.check 100, .pass 1, .check 101, .pass 1, .check 102]).any
        (fun s => decide (s.log.map Prod.snd = [true, true, false])) = true := by
    decide +kernel
  obtain ⟨s, hs, hlog⟩ := exec_any hx
  have hrun : Run (WindowRun.step twoAMinute) (Fresh twoAMinute) _ _ s :=
    Run.of_guarded (I := fun _ => True) (fun _ _ _ _ _ _ => trivial)
      (fun _ _ _ h => freshCheck_sound h) trivial hs
  exact ⟨s, hrun, of_decide_eq_true hlog,
    sliding_window_bound twoAMinute (by decide) 100 100 _ s hrun⟩

/-- With a limit of one, two calls 20 microseconds apart are both allowed: their timestamps print as
the same 14 digits, so the second only gives the first one's member a new score. -/
theorem close_calls_pass_the_limit : ¬ ∀ (p : WindowParams) (clock last : Time)
    (acts : List WindowAct) (s : WindowRun), 1 ≤ p.limit →
      Run (WindowRun.step p) (fun _ _ => True) { clock := clock, last := last } acts s →
      ∀ t, (s.allowedIn p.windowSeconds t : Int) ≤ p.limit := by
  intro h
  have hx : (exec (WindowRun.step ⟨"k", 1, 60, 7⟩) { clock := 1700000000, last := 1700000000 }
      [.check (1700000000 + 1 / 100000), .check (1700000000 + 3 / 100000)]).any
        (fun s => decide (s.allowedIn 60 1700000001 = 2)) = true := by
    decide +kernel
  obtain ⟨s, hs, hcount⟩ := exec_any hx
  have hle := h ⟨"k", 1, 60, 7⟩ _ _ _ s (by decide) (Run.of_exec_all (fun _ _ _ => trivial) hs)
    1700000001
  rw [of_decide_eq_true hcount] at hle
  exact absurd hle (by decide)

end RateLimiter
end TrShared
