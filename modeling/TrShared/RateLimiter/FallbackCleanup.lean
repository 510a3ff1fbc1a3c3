import TrShared.RateLimiter.MemoryFallback

/-!
# TrShared.RateLimiter.FallbackCleanup

The bulk cleanup of `MemoryFallback`, over whole traces of checks. Two fallbacks that differ in their
threshold hold different buckets, but at any moment the same live ones (`SameLive`), and an answer
depends on nothing else.

* `cleanup_invisible_and_effective`: a trace gets the same answers under every threshold, and a check
  leaves at most one bucket more than the larger of the threshold and the number of live buckets.
-/

namespace TrShared
namespace RateLimiter

open Machine Python

namespace MemoryFallback

/-- The number of keys whose bucket is not expired. -/
def unexpired (m : MemoryFallback) (now : Time) : Nat :=
  (m.buckets.keep (fun _ b => decide (now ≤ b.resetTime))).size

/-- The same live buckets, whatever else is stored. -/
def SameLive (m m' : MemoryFallback) (now : Time) : Prop :=
  ∀ key, m.live now key = m'.live now key

variable {m m' : MemoryFallback} {now now' : Time} {key : String} {limit w : Int}

theorem SameLive.later (h : SameLive m m' now) (hle : now ≤ now') : SameLive m m' now' := by
  intro key
  rw [live_mono hle, live_mono hle, h key]

/-- An answer depends on the live bucket of the key only. -/
theorem SameLive.answer (h : SameLive m m' now) :
    (m.check now key limit w).1 = (m'.check now key limit w).1 := by
  rw [check_live, check_live, h key]
  cases m'.live now key with
  | none => rfl
  | some b =>
    by_cases hfull : limit ≤ b.count
    · simp only [if_pos hfull]
    · simp only [if_neg hfull]

theorem SameLive.check (h : SameLive m m' now) :
    SameLive (m.check now key limit w).2 (m'.check now key limit w).2 now := by
  intro key'
  by_cases hk : key' = key
  · subst hk
    rw [check_live, check_live, h key']
    cases hb : m'.live now key' with
    | none => simp only [restart, setBucket_live_self]
    | some b =>
      by_cases hfull : limit ≤ b.count
      · simp only [if_pos hfull, tidy_live, h key', hb]
      · simp only [if_neg hfull, setBucket_live_self]
  · rw [check_live_of_ne hk, check_live_of_ne hk]
    exact h key'

/-! ## The number of buckets -/

@[simp] theorem tidy_cleanupThreshold : (m.tidy now).cleanupThreshold = m.cleanupThreshold := by
  simp only [tidy]
  split <;> rfl

@[simp] theorem check_cleanupThreshold :
    (m.check now key limit w).2.cleanupThreshold = m.cleanupThreshold := by
  rw [check_live]
  split
  · simp [restart, setBucket]
  · split <;> simp [setBucket]

/-- What the cleanup keeps are the unexpired buckets. -/
theorem cleanupExpired_size : (m.cleanupExpired now).buckets.size = m.unexpired now := by
  have hsame : (fun (_ : String) (b : Bucket) => !decide (b.resetTime < now)) =
      fun _ b => decide (now ≤ b.resetTime) := by
    funext _ b
    rw [← decide_not, decide_eq_decide]
    exact not_lt
  rw [unexpired, ← hsame]
  rfl

theorem tidy_size : ((m.tidy now).buckets.size : Int) ≤
    max m.cleanupThreshold (m.unexpired now) := by
  by_cases hbig : m.cleanupThreshold < (m.buckets.size : Int)
  · simp only [tidy, if_pos hbig, cleanupExpired_size]
    exact le_max_right _ _
  · simp only [tidy, if_neg hbig]
    exact le_trans (not_lt.mp hbig) (le_max_left _ _)

/-- A check stores at most one bucket, after the cleanup. -/
theorem check_size_le : (m.check now key limit w).2.buckets.size ≤ (m.tidy now).buckets.size + 1 := by
  rw [check_live]
  split
  · exact OrderedDict.size_set_le
  · split
    · exact Nat.le_succ _
    · exact OrderedDict.size_set_le

end MemoryFallback

/-! ## Traces -/

/-- A fallback at a moment, and what it answered. -/
structure FallbackRun where
  now : Time
  memory : MemoryFallback := {}
  log : List RateLimitResult := []

inductive FallbackAct where
  | tick (dt : Time)
  | check (key : String) (limit windowSeconds : Int)
  deriving DecidableEq

def FallbackRun.check (s : FallbackRun) (key : String) (limit windowSeconds : Int) : FallbackRun :=
  let (result, memory) := s.memory.check s.now key limit windowSeconds
  { s with memory := memory, log := s.log ++ [result] }

def FallbackRun.step (s : FallbackRun) : FallbackAct → Option FallbackRun
  | .tick dt => if 0 ≤ dt then some { s with now := s.now + dt } else none
  | .check key limit windowSeconds => some (s.check key limit windowSeconds)

/-- A fallback that was just made. -/
def FallbackRun.start (now : Time) (threshold : Int) : FallbackRun :=
  { now := now, memory := .init threshold }

/-- Two traces that no answer tells apart. -/
structure SameAnswers (s s' : FallbackRun) : Prop where
  now : s.now = s'.now
  log : s.log = s'.log
  live : s.memory.SameLive s'.memory s.now

section Traces

variable {s s₁ s' : FallbackRun} {a : FallbackAct}

theorem SameAnswers.step (h : SameAnswers s s') (hs : s.step a = some s₁) :
    ∃ s₁', s'.step a = some s₁' ∧ SameAnswers s₁ s₁' := by
  cases a with
  | tick dt =>
    simp only [FallbackRun.step] at hs
    split at hs
    · rename_i hdt
      cases hs
      refine ⟨{ s' with now := s'.now + dt }, by simp only [FallbackRun.step, if_pos hdt], ?_⟩
      exact ⟨by rw [h.now], h.log, h.live.later (by linarith)⟩
    · cases hs
  | check key limit w =>
    simp only [FallbackRun.step, Option.some.injEq] at hs
    subst hs
    refine ⟨s'.check key limit w, rfl, h.now, ?_, ?_⟩
    · have hanswer : (s.memory.check s.now key limit w).1 = (s'.memory.check s.now key limit w).1 :=
        h.live.answer
      simp only [FallbackRun.check, h.log, ← h.now, hanswer]
    · have hlive : MemoryFallback.SameLive (s.memory.check s.now key limit w).2
          (s'.memory.check s.now key limit w).2 s.now := h.live.check
      simp only [FallbackRun.check, ← h.now]
      exact hlive

/-- The other fallback takes the same trace. -/
theorem SameAnswers.run {ok : FallbackRun → FallbackAct → Prop} {acts : List FallbackAct}
    (hrun : Run FallbackRun.step ok s acts s₁) (h : SameAnswers s s') :
    ∃ s₁', Run FallbackRun.step (fun _ _ => True) s' acts s₁' ∧ SameAnswers s₁ s₁' := by
  induction hrun generalizing s' with
  | nil => exact ⟨s', .nil, h⟩
  | cons _ hs _ ih =>
    obtain ⟨s₂, hs₂, h₂⟩ := h.step hs
    obtain ⟨s₃, hrun₃, h₃⟩ := ih h₂
    exact ⟨s₃, .cons trivial hs₂ hrun₃, h₃⟩

theorem FallbackRun.step_cleanupThreshold (hs : s.step a = some s₁) :
    s₁.memory.cleanupThreshold = s.memory.cleanupThreshold := by
  cases a with
  | tick dt =>
    simp only [FallbackRun.step] at hs
    split at hs
    · cases hs; rfl
    · cases hs
  | check key limit w =>
    simp only [FallbackRun.step, Option.some.injEq] at hs
    subst hs
    exact MemoryFallback.check_cleanupThreshold

end Traces

/-- For every trace of checks on any keys, with any limits and windows, at non-decreasing times: every
other threshold gives the same answers, and right after a further check the number of stored buckets
is at most one more than the threshold or than the number of buckets unexpired at that check. -/
theorem cleanup_invisible_and_effective (now : Time) (threshold : Int) (acts : List FallbackAct)
    (s : FallbackRun)
    (hrun : Run FallbackRun.step (fun _ _ => True) (FallbackRun.start now threshold) acts s) :
    (∀ threshold' : Int, ∃ s', Run FallbackRun.step (fun _ _ => True)
      (FallbackRun.start now threshold') acts s' ∧ s'.log = s.log) ∧
    ∀ (key : String) (limit w : Int), ((s.check key limit w).memory.buckets.size : Int) ≤
      max threshold (s.memory.unexpired s.now) + 1 := by
  constructor
  · intro threshold'
    have hstart : SameAnswers (FallbackRun.start now threshold) (FallbackRun.start now threshold') :=
      ⟨rfl, rfl, fun _ => rfl⟩
    obtain ⟨s', hrun', h⟩ := SameAnswers.run hrun hstart
    exact ⟨s', hrun', h.log.symm⟩
  · intro key limit w
    have hthreshold : s.memory.cleanupThreshold = threshold :=
      hrun.invariant (I := fun s => s.memory.cleanupThreshold = threshold)
        (fun _ _ _ hi _ hs => (FallbackRun.step_cleanupThreshold hs).trans hi) rfl
    have hone : ((s.memory.check s.now key limit w).2.buckets.size : Int) ≤
        (s.memory.tidy s.now).buckets.size + 1 := by
      exact_mod_cast MemoryFallback.check_size_le
    have htidy : ((s.memory.tidy s.now).buckets.size : Int) ≤
        max s.memory.cleanupThreshold (s.memory.unexpired s.now) := MemoryFallback.tidy_size
    rw [hthreshold] at htidy
    calc ((s.check key limit w).memory.buckets.size : Int)
        ≤ (s.memory.tidy s.now).buckets.size + 1 := hone
      _ ≤ max threshold (s.memory.unexpired s.now) + 1 := by linarith

/-- Two buckets are expired at the third check: a threshold of one makes it remove them. -/
theorem cleanup_removes_two_buckets : ∃ s,
    exec FallbackRun.step (FallbackRun.start 0 1)
      [.check "a" 1 10, .check "b" 1 0, .tick 11] = some s ∧
    s.memory.unexpired s.now = 0 ∧
    (∀ threshold' : Int, ∃ s', Run FallbackRun.step (fun _ _ => True) (FallbackRun.start 0 threshold')
      [.check "a" 1 10, .check "b" 1 0, .tick 11] s' ∧ s'.log = s.log) ∧
    ((s.check "c" 1 10).memory.buckets.size : Int) ≤
      max (1 : Int) (s.memory.unexpired s.now) + 1 := by
  have hx : (exec FallbackRun.step (FallbackRun.start 0 1)
      [.check "a" 1 10, .check "b" 1 0, .tick 11]).any
        (fun s => decide (s.memory.unexpired s.now = 0)) = true := by
    decide +kernel
  obtain ⟨s, hs, hzero⟩ := exec_any hx
  have h := cleanup_invisible_and_effective 0 1 _ s (Run.of_exec_all (fun _ _ _ => trivial) hs)
  exact ⟨s, hs, of_decide_eq_true hzero, h.1, h.2 "c" 1 10⟩

end RateLimiter
end TrShared
