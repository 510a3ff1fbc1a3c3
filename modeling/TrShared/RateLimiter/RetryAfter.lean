import Mathlib.Tactic.Ring
import TrShared.RateLimiter.MemoryFallback

/-!
# TrShared.RateLimiter.RetryAfter

Whether a blocked caller that waits for `retry_after` seconds is let through, for the fixed and the
sliding window on Redis and for the in-memory fallback, at exact times and with commands that take
none.

The three round the wait differently. The sliding window answers with the whole window, after which
every entry of the set is out. The fixed window answers with `TTL`, rounded to the nearest second, and
the fallback with the rest of the window cut down to whole seconds; a counter is still there at its
expiry and a bucket at its end, so the wait has to pass them.

* `retry_after_honest_iff`: in every reachable state, waiting is enough exactly when the wait is not
  rounded down (`RoundsUp`).
-/

namespace TrShared
namespace RateLimiter

open Machine

inductive LimiterKind where
  | fixedWindow
  | slidingWindow
  | memory
  deriving DecidableEq

structure LimiterWorld where
  now : Time
  redis : Redis := {}
  memory : MemoryFallback := {}

inductive CheckAct where
  | tick (dt : Time)
  | check (limiter : LimiterKind) (key : String) (limit windowSeconds : Int)
  deriving DecidableEq

/-- A limit and a window of at least one. -/
def CheckAct.Proper : CheckAct → Prop
  | .tick _ => True
  | .check _ _ limit windowSeconds => 1 ≤ limit ∧ 1 ≤ windowSeconds

def CheckAct.Touches (key : String) : CheckAct → Prop
  | .tick _ => False
  | .check _ key' _ _ => key' = key

namespace LimiterWorld

/-- One check; the two Redis algorithms may fail on a key of the other's type. -/
def check (random : Nat) (s : LimiterWorld) (limiter : LimiterKind) (key : String)
    (limit windowSeconds : Int) : Except RedisError RateLimitResult × LimiterWorld :=
  match limiter with
  | .fixedWindow =>
    match fixedWindowCheck s.redis s.now s.now key limit windowSeconds with
    | .ok (result, redis) => (.ok result, { s with redis := redis })
    | .error e => (.error e, s)
  | .slidingWindow =>
    match slidingWindowCheck random s.redis s.now s.now key limit windowSeconds with
    | .ok (result, redis) => (.ok result, { s with redis := redis })
    | .error e => (.error e, s)
  | .memory =>
    let (result, memory) := s.memory.check s.now key limit windowSeconds
    (.ok result, { s with memory := memory })

def step (random : Nat) (s : LimiterWorld) : CheckAct → Option LimiterWorld
  | .tick dt => if 0 ≤ dt then some { s with now := s.now + dt } else none
  | .check limiter key limit windowSeconds =>
    some (s.check random limiter key limit windowSeconds).2

def start (now : Time) (threshold : Int) : LimiterWorld :=
  { now := now, memory := .init threshold }

/-- A blocked check answered with `retry_after = r`; if nothing touches the key until `r` seconds
later, the same check is then allowed. -/
def Honest (random : Nat) (s : LimiterWorld) (limiter : LimiterKind) (key : String)
    (limit windowSeconds : Int) : Prop :=
  ∀ result s₁, s.check random limiter key limit windowSeconds = (.ok result, s₁) →
    result.allowed = false →
    ∀ acts s₂, Run (step random) (fun _ a => a.Proper ∧ ¬ a.Touches key) s₁ acts s₂ →
      s₂.now = s.now + result.retryAfter →
      ∃ result', (s₂.check random limiter key limit windowSeconds).1 = .ok result' ∧
        result'.allowed = true

/-- The state in which the wait is not rounded down: for the counter of a fixed window that is used
up, less than a second is left or the fraction of a second is at least a half; for a bucket that is
used up, less than a second is left. -/
def RoundsUp (s : LimiterWorld) (limiter : LimiterKind) (key : String) (limit : Int) : Prop :=
  match limiter with
  | .fixedWindow => ∀ n t, s.redis.find s.now key = some ⟨.counter n, some t⟩ → limit ≤ n →
      t - s.now < 1 ∨ 1 / 2 ≤ Int.fract (t - s.now)
  | .slidingWindow => True
  | .memory => ∀ b, s.memory.live s.now key = some b → limit ≤ b.count →
      b.resetTime - s.now < 1

end LimiterWorld

/-! ## What Redis holds -/

/-- Counters count calls and expire; entries of a sorted set carry a time that has passed. -/
def EntryKept (now : Time) : Option RedisEntry → Prop
  | none => True
  | some ⟨.counter n, some _⟩ => 1 ≤ n
  | some ⟨.counter _, none⟩ => False
  | some ⟨.zset z, _⟩ => ∀ e ∈ z, 0 ≤ e.2 ∧ e.2 ≤ now

structure LimiterKept (s : LimiterWorld) : Prop where
  clock : 0 ≤ s.now
  entries : ∀ key, EntryKept s.now (s.redis.slot key)

/-- What a run that does not touch the key leaves of it. -/
structure LimiterFrame (key : String) (s s' : LimiterWorld) : Prop where
  clock : s.now ≤ s'.now
  slot : s'.redis.slot key = s.redis.slot key
  live : s'.memory.live s'.now key = s.memory.live s'.now key

section Entries

variable {e : Option RedisEntry} {now now' : Time}

theorem EntryKept.later (h : EntryKept now e) (hle : now ≤ now') : EntryKept now' e := by
  cases e with
  | none => trivial
  | some e =>
    obtain ⟨v, t⟩ := e
    cases v with
    | counter n =>
      cases t with
      | none => exact h
      | some t => exact h
    | zset z =>
      intro x hx
      exact ⟨(h x hx).1, le_trans (h x hx).2 hle⟩

theorem EntryKept.filter {p : RedisEntry → Bool} (h : EntryKept now e) :
    EntryKept now (e.filter p) := by
  cases e with
  | none => trivial
  | some e =>
    rw [Option.filter_some]
    split
    · exact h
    · trivial

theorem mem_zaddEntries {z : List (Member × Time)} {score : Time} {m : Member} {x : Member × Time}
    (h : x ∈ zaddEntries z score m) : x ∈ z ∨ x = (m, score) := by
  simp only [zaddEntries] at h
  split at h
  · obtain ⟨y, hy, rfl⟩ := List.mem_map.mp h
    split
    · exact .inr rfl
    · exact .inl hy
  · simpa using h

/-- The entries a script leaves at `now` carry times up to `now`. -/
theorem EntryKept.window (h : EntryKept now e) (h0 : 0 ≤ now) (random : Nat) (w : Int)
    {x : Member × Time} (hx : x ∈ windowEntries random (entriesOf e) now w) :
    0 ≤ x.2 ∧ x.2 ≤ now := by
  rcases mem_zaddEntries hx with hx | rfl
  · have hmem : x ∈ entriesOf e := List.mem_of_mem_filter hx
    cases e with
    | none => cases hmem
    | some e =>
      obtain ⟨v, t⟩ := e
      cases v with
      | counter n => cases hmem
      | zset z => exact h x hmem
  · exact ⟨h0, le_refl _⟩

end Entries

namespace LimiterWorld

section Steps

variable {random : Nat} {s s' : LimiterWorld} {limiter : LimiterKind} {key : String} {limit w : Int}

/-- What a check can do: fail, write the key on Redis, or use the buckets. -/
theorem check_cases (random : Nat) (limiter : LimiterKind) (key : String) (limit : Int)
    (h : LimiterKept s) (hw : 1 ≤ w) :
    (∃ e, s.check random limiter key limit w = (.error e, s)) ∨
    (∃ result e, s.check random limiter key limit w =
        (.ok result, { s with redis := s.redis.put key e }) ∧ EntryKept s.now e) ∨
    (s.check random limiter key limit w = (.ok (s.memory.check s.now key limit w).1,
        { s with memory := (s.memory.check s.now key limit w).2 })) := by
  have hkept : EntryKept s.now (s.redis.find s.now key) := (h.entries key).filter
  have hpos : ¬ w ≤ 0 := by omega
  cases limiter with
  | fixedWindow =>
    simp only [check]
    cases he : s.redis.find s.now key with
    | none =>
      obtain ⟨result, hr, -, -⟩ := fixedWindowCheck_new he s.now limit w
      rw [if_neg hpos] at hr
      exact .inr (.inl ⟨result, some ⟨.counter 1, some (s.now + w)⟩, by rw [hr], le_refl _⟩)
    | some e =>
      obtain ⟨v, t⟩ := e
      rw [he] at hkept
      cases v with
      | counter n =>
        cases t with
        | none => exact hkept.elim
        | some t =>
          have hn : 1 ≤ n := hkept
          obtain ⟨result, hr, -, -⟩ := fixedWindowCheck_counter he hn s.now limit w
          have hn' : 1 ≤ n + 1 := by omega
          exact .inr (.inl ⟨result, some ⟨.counter (n + 1), some t⟩, by rw [hr], hn'⟩)
      | zset z =>
        refine .inl ⟨.wrongType, ?_⟩
        simp only [fixedWindowCheck, fixedWindowLua_zset he]
  | slidingWindow =>
    simp only [check]
    cases hc : isCounter (s.redis.find s.now key) with
    | false =>
      obtain ⟨result, hr, -, -⟩ :=
        @slidingWindowCheck_ok s.redis s.now s.now key w random _ rfl hc _ rfl limit
      rw [if_neg hpos] at hr
      refine .inr (.inl ⟨result, _, by rw [hr], ?_⟩)
      exact fun x hx => hkept.window h.clock random w hx
    | true =>
      refine .inl ⟨.wrongType, ?_⟩
      cases he : s.redis.find s.now key with
      | none => rw [he] at hc; cases hc
      | some e =>
        obtain ⟨v, t⟩ := e
        cases v with
        | counter n => simp only [slidingWindowCheck, slidingWindowLua_counter he]
        | zset z => rw [he] at hc; cases hc
  | memory => exact .inr (.inr rfl)

theorem kept_check (h : LimiterKept s) (hw : 1 ≤ w) :
    LimiterKept (s.check random limiter key limit w).2 := by
  rcases check_cases random limiter key limit h hw with ⟨e, hc⟩ | ⟨result, e, hc, he⟩ | hc
  · rw [hc]
    exact h
  · rw [hc]
    refine ⟨h.clock, ?_⟩
    intro key'
    by_cases hk : key' = key
    · subst hk
      simpa using he
    · simpa [Redis.put_slot_of_ne e hk] using h.entries key'
  · rw [hc]
    exact ⟨h.clock, h.entries⟩

theorem kept_step {a : CheckAct} (h : LimiterKept s) (ha : a.Proper)
    (hs : s.step random a = some s') : LimiterKept s' := by
  cases a with
  | tick dt =>
    simp only [step] at hs
    split at hs
    · rename_i hdt
      cases hs
      have h0 := h.clock
      refine ⟨?_, ?_⟩
      · show 0 ≤ s.now + dt
        linarith
      · exact fun key => (h.entries key).later (by show s.now ≤ s.now + dt; linarith)
    · cases hs
  | check limiter key limit w =>
    simp only [step, Option.some.injEq] at hs
    subst hs
    exact kept_check h ha.2

theorem kept_start {now : Time} {threshold : Int} (h0 : 0 ≤ now) :
    LimiterKept (start now threshold) where
  clock := h0
  entries _ := trivial

end Steps

/-! ## The key between the two checks -/

section Frame

variable {random : Nat} {s s' s'' : LimiterWorld} {key : String}

theorem frame_trans (h : LimiterFrame key s s') (h' : LimiterFrame key s' s'') :
    LimiterFrame key s s'' where
  clock := le_trans h.clock h'.clock
  slot := h'.slot.trans h.slot
  live := by
    rw [h'.live, MemoryFallback.live_mono h'.clock, h.live, ← MemoryFallback.live_mono h'.clock]

/-- A check of another key. -/
theorem frame_check {limiter : LimiterKind} {key' : String} {limit w : Int} (h : LimiterKept s)
    (hw : 1 ≤ w) (hk : key ≠ key') :
    LimiterFrame key s (s.check random limiter key' limit w).2 := by
  rcases check_cases random limiter key' limit h hw with ⟨e, hc⟩ | ⟨result, e, hc, -⟩ | hc
  · rw [hc]
    exact ⟨le_refl _, rfl, rfl⟩
  · rw [hc]
    exact ⟨le_refl _, Redis.put_slot_of_ne e hk, rfl⟩
  · rw [hc]
    exact ⟨le_refl _, rfl, MemoryFallback.check_live_of_ne hk⟩

theorem frame_step {a : CheckAct} (h : LimiterKept s) (ha : a.Proper ∧ ¬ a.Touches key)
    (hs : s.step random a = some s') : LimiterFrame key s s' := by
  cases a with
  | tick dt =>
    simp only [step] at hs
    split at hs
    · rename_i hdt
      cases hs
      exact ⟨by show s.now ≤ s.now + dt; linarith, rfl, rfl⟩
    · cases hs
  | check limiter key' limit w =>
    simp only [step, Option.some.injEq] at hs
    subst hs
    exact frame_check h ha.1.2 (fun hk => ha.2 hk.symm)

theorem frame_run {acts : List CheckAct} (h : LimiterKept s)
    (hrun : Run (step random) (fun _ a => a.Proper ∧ ¬ a.Touches key) s acts s') :
    LimiterFrame key s s' :=
  hrun.relation (I := LimiterKept) (R := LimiterFrame key) (fun _ => ⟨le_refl _, rfl, rfl⟩)
    frame_trans (fun _ _ _ hi ha hs => kept_step hi ha.1 hs)
    (fun _ _ _ hi ha hs => frame_step hi ha hs) h

/-- Waiting is such a run. -/
theorem wait_run {r : Int} (hr : 0 ≤ r) :
    Run (step random) (fun _ a => a.Proper ∧ ¬ a.Touches key) s [.tick r]
      { s with now := s.now + r } := by
  have hr' : (0 : ℚ) ≤ r := by exact_mod_cast hr
  refine .single ⟨trivial, fun h => h⟩ ?_
  simp only [step, if_pos hr']

end Frame

/-! ## The three limiters -/

section Honesty

variable {random : Nat} {s : LimiterWorld} {key : String} {limit w : Int}

/-- A rest of `d` seconds, rounded to the nearest second and at least one. -/
theorem lt_max_round_iff (d : ℚ) :
    d < (max 1 ⌊d + 1 / 2⌋ : Int) ↔ d < 1 ∨ 1 / 2 ≤ Int.fract d := by
  have hfract := Int.floor_add_fract d
  have hlt := Int.fract_lt_one d
  have hnonneg := Int.fract_nonneg d
  rw [Int.cast_max, lt_max_iff, Int.cast_one]
  by_cases hhalf : 1 / 2 ≤ Int.fract d
  · have hfloor : ⌊d + 1 / 2⌋ = ⌊d⌋ + 1 := by
      rw [Int.floor_eq_iff]
      push_cast
      constructor <;> linarith
    rw [hfloor]
    push_cast
    constructor
    · exact fun _ => .inr hhalf
    · exact fun _ => .inr (by linarith)
  · have hfloor : ⌊d + 1 / 2⌋ = ⌊d⌋ := by
      rw [Int.floor_eq_iff]
      constructor <;> linarith
    rw [hfloor]
    constructor
    · rintro (h | h)
      · exact .inl h
      · exact absurd h (not_lt.mpr (Int.floor_le d))
    · rintro (h | h)
      · exact .inl h
      · exact absurd h hhalf

/-- The same with the rest cut down. -/
theorem lt_max_truncate_iff {d : ℚ} (hd : 0 ≤ d) : d < (max 1 (truncate d) : Int) ↔ d < 1 := by
  rw [truncate, if_pos hd, Int.cast_max, lt_max_iff, Int.cast_one]
  constructor
  · rintro (h | h)
    · exact h
    · exact absurd h (not_lt.mpr (Int.floor_le d))
  · exact .inl

theorem honest_of_allowed {limiter : LimiterKind}
    (h : ∀ result s₁, s.check random limiter key limit w = (.ok result, s₁) →
      result.allowed = true) : Honest random s limiter key limit w := by
  intro result s₁ hc hb
  rw [h result s₁ hc] at hb
  cases hb

/-- After a blocked check only the state at the end of the wait counts. -/
theorem honest_iff_of_blocked {limiter : LimiterKind} {result : RateLimitResult} {s₁ : LimiterWorld}
    {P : Prop} (hc : s.check random limiter key limit w = (.ok result, s₁))
    (hb : result.allowed = false) (hkept : LimiterKept s₁) (hnow : s₁.now = s.now)
    (hr : 0 ≤ result.retryAfter)
    (hnext : ∀ s₂, LimiterFrame key s₁ s₂ → s₂.now = s.now + result.retryAfter →
      ((∃ result', (s₂.check random limiter key limit w).1 = .ok result' ∧
        result'.allowed = true) ↔ P)) :
    Honest random s limiter key limit w ↔ P := by
  constructor
  · intro h
    have hrun : Run (step random) (fun _ a => a.Proper ∧ ¬ a.Touches key) s₁ _ _ := wait_run hr
    have hend : s₁.now + (result.retryAfter : ℚ) = s.now + result.retryAfter := by rw [hnow]
    exact (hnext _ (frame_run hkept hrun) hend).mp (h result s₁ hc hb _ _ hrun hend)
  · intro hp result' s' hc' _ acts s₂ hrun hend
    rw [hc] at hc'
    cases hc'
    exact (hnext s₂ (frame_run hkept hrun) hend).mpr hp

/-! ### The fixed window -/

theorem fixedWindowCheck_blocked {r : Redis} {clock now t : Time} {n : Int}
    (h : r.find clock key = some ⟨.counter n, some t⟩) (hn : 1 ≤ n) (hfull : limit ≤ n) :
    ∃ result, fixedWindowCheck r clock now key limit w =
        .ok (result, r.put key (some ⟨.counter (n + 1), some t⟩)) ∧
      result.allowed = false ∧ result.retryAfter = max 1 ⌊t - clock + 1 / 2⌋ := by
  have hvis : RedisEntry.visible clock ⟨.counter (n + 1), some t⟩ = true :=
    (Redis.find_eq_some.mp h).2
  have hpast : limit < n + 1 := by omega
  have hfind : (r.put key (some ⟨.counter (n + 1), some t⟩)).find clock key =
      some ⟨.counter (n + 1), some t⟩ := by
    rw [Redis.find_put_self, Option.filter_some, if_pos hvis]
  refine ⟨_, by rw [fixedWindowCheck, fixedWindowLua_counter h hn rfl], ?_, ?_⟩
  · simp [hpast]
  · simp only [if_pos hpast, Redis.ttl, hfind]
    rfl

/-- A counter that is used up lets the next call through iff it has expired by then. -/
theorem fixedWindow_next {s₂ : LimiterWorld} {n : Int} {t : Time} (hl : 1 ≤ limit)
    (hslot : s₂.redis.slot key = some ⟨.counter n, some t⟩) (hn : 1 ≤ n) (hfull : limit ≤ n) :
    (∃ result', (s₂.check random .fixedWindow key limit w).1 = .ok result' ∧
      result'.allowed = true) ↔ t < s₂.now := by
  by_cases hgone : t < s₂.now
  · have hf : s₂.redis.find s₂.now key = none := by
      simp [Redis.find, hslot, RedisEntry.visible, hgone]
    obtain ⟨result, hr, ha, -⟩ := fixedWindowCheck_new hf s₂.now limit w
    refine ⟨fun _ => hgone, fun _ => ⟨result, ?_, ?_⟩⟩
    · simp only [check, hr]
    · rw [ha, decide_eq_true hl]
  · have hf : s₂.redis.find s₂.now key = some ⟨.counter n, some t⟩ := by
      simp [Redis.find, hslot, RedisEntry.visible, not_lt.mp hgone]
    obtain ⟨result, hr, ha, -⟩ := fixedWindowCheck_counter hf hn s₂.now limit w
    refine ⟨?_, fun h => absurd h hgone⟩
    rintro ⟨result', hok, hallowed⟩
    simp only [check, hr, Except.ok.injEq] at hok
    subst hok
    rw [ha, decide_eq_true_eq] at hallowed
    omega

/-- The wait after a blocked call has to pass the expiry of the counter. -/
theorem honest_counter_iff {n : Int} {t : Time} (h : LimiterKept s) (hl : 1 ≤ limit) (hw : 1 ≤ w)
    (he : s.redis.find s.now key = some ⟨.counter n, some t⟩) (hn : 1 ≤ n) (hfull : limit ≤ n) :
    Honest random s .fixedWindow key limit w ↔
      t - s.now < 1 ∨ 1 / 2 ≤ Int.fract (t - s.now) := by
  obtain ⟨result, hr, hb, hra⟩ :=
    @fixedWindowCheck_blocked key limit w s.redis s.now s.now t n he hn hfull
  have hc : s.check random .fixedWindow key limit w = (.ok result, { s with
      redis := s.redis.put key (some ⟨.counter (n + 1), some t⟩) }) := by
    simp only [check, hr]
  have hk := @kept_check random s .fixedWindow key limit w h hw
  rw [hc] at hk
  have hone : 0 ≤ result.retryAfter := by
    rw [hra]
    exact le_trans (by decide) (le_max_left _ _)
  refine honest_iff_of_blocked hc hb hk rfl hone ?_
  intro s₂ hframe hend
  have hslot : s₂.redis.slot key = some ⟨.counter (n + 1), some t⟩ := by
    rw [hframe.slot]
    exact Redis.put_slot_self _
  rw [fixedWindow_next hl hslot (by omega) (by omega), hend, hra, ← lt_max_round_iff,
    sub_lt_iff_lt_add']

theorem honest_fixedWindow_iff (h : LimiterKept s) (hl : 1 ≤ limit) (hw : 1 ≤ w) :
    Honest random s .fixedWindow key limit w ↔ RoundsUp s .fixedWindow key limit := by
  have hkept : EntryKept s.now (s.redis.find s.now key) := (h.entries key).filter
  simp only [RoundsUp]
  cases he : s.redis.find s.now key with
  | none =>
    obtain ⟨result, hr, ha, -⟩ := fixedWindowCheck_new he s.now limit w
    refine iff_of_true (honest_of_allowed ?_) (by simp)
    intro result' s₁ hc
    simp only [check, hr, Prod.mk.injEq, Except.ok.injEq] at hc
    rw [← hc.1, ha, decide_eq_true hl]
  | some e =>
    obtain ⟨v, t⟩ := e
    rw [he] at hkept
    cases v with
    | zset z =>
      refine iff_of_true (honest_of_allowed ?_) (by simp)
      intro result' s₁ hc
      simp only [check, fixedWindowCheck, fixedWindowLua_zset he] at hc
      cases hc
    | counter n =>
      cases t with
      | none => exact hkept.elim
      | some t =>
        have hn : 1 ≤ n := hkept
        by_cases hfull : limit ≤ n
        · rw [honest_counter_iff h hl hw he hn hfull]
          constructor
          · rintro hd n' t' heq -
            cases heq
            exact hd
          · intro hd
            exact hd n t rfl hfull
        · obtain ⟨result, hr, ha, -⟩ := fixedWindowCheck_counter he hn s.now limit w
          refine iff_of_true (honest_of_allowed ?_) ?_
          · intro result' s₁ hc
            simp only [check, hr, Prod.mk.injEq, Except.ok.injEq] at hc
            rw [← hc.1, ha, decide_eq_true (by omega)]
          · rintro n' t' heq hfull'
            cases heq
            exact absurd hfull' hfull

/-! ### The sliding window -/

/-- When the whole window has passed, the script removes all entries and adds its own. -/
theorem windowEntries_after {z : List (Member × Time)} {now : Time}
    (hz : ∀ e ∈ z, 0 ≤ e.2 ∧ e.2 ≤ now) :
    windowEntries random z (now + w) w = [(⟨sig14 (now + w), random⟩, now + w)] := by
  have hempty : keptEntries z (now + w - w) = [] := by
    rw [keptEntries, List.filter_eq_nil_iff, add_sub_cancel_right]
    intro e he
    simp [hz e he]
  rw [windowEntries, hempty]
  rfl

theorem slidingWindowCheck_retryAfter {r r' : Redis} {clock now : Time} {result : RateLimitResult}
    (h : slidingWindowCheck random r clock now key limit w = .ok (result, r'))
    (hb : result.allowed = false) : result.retryAfter = w := by
  simp only [slidingWindowCheck] at h
  split at h
  · cases h
  · cases h
    rw [Bool.not_eq_false', decide_eq_true_eq] at hb
    exact if_pos hb

/-- A set left by a blocked call lets the next call through when its window has passed. -/
theorem slidingWindow_next {s₂ : LimiterWorld} {z : List (Member × Time)} {now : Time}
    (hl : 1 ≤ limit) (hz : ∀ e ∈ z, 0 ≤ e.2 ∧ e.2 ≤ now) (hend : s₂.now = now + w)
    (hslot : s₂.redis.slot key = some ⟨.zset z, some (now + w)⟩) :
    ∃ result', (s₂.check random .slidingWindow key limit w).1 = .ok result' ∧
      result'.allowed = true := by
  have hf : s₂.redis.find s₂.now key = some ⟨.zset z, some (now + w)⟩ := by
    simp [Redis.find, hslot, RedisEntry.visible, hend]
  have hc : isCounter (s₂.redis.find s₂.now key) = false := by rw [hf]; rfl
  obtain ⟨result, hr, ha, -⟩ :=
    @slidingWindowCheck_ok s₂.redis s₂.now s₂.now key w random _ rfl hc _ rfl limit
  refine ⟨result, by simp only [check, hr], ?_⟩
  rw [ha, hf, hend, entriesOf, windowEntries_after hz]
  exact decide_eq_true hl

theorem honest_slidingWindow (h : LimiterKept s) (hl : 1 ≤ limit) (hw : 1 ≤ w) :
    Honest random s .slidingWindow key limit w := by
  have hkept : EntryKept s.now (s.redis.find s.now key) := (h.entries key).filter
  cases hcounter : isCounter (s.redis.find s.now key) with
  | true =>
    refine honest_of_allowed ?_
    intro result s₁ hc
    cases he : s.redis.find s.now key with
    | none => rw [he] at hcounter; cases hcounter
    | some e =>
      obtain ⟨v, t⟩ := e
      cases v with
      | counter n =>
        simp only [check, slidingWindowCheck, slidingWindowLua_counter he] at hc
        cases hc
      | zset z => rw [he] at hcounter; cases hcounter
  | false =>
    obtain ⟨result, hr, -, -⟩ :=
      @slidingWindowCheck_ok s.redis s.now s.now key w random _ rfl hcounter _ rfl limit
    rw [if_neg (by omega)] at hr
    intro result' s₁ hc hb acts s₂ hrun hend
    have hk := @kept_check random s .slidingWindow key limit w h hw
    rw [hc] at hk
    simp only [check, hr, Prod.mk.injEq, Except.ok.injEq] at hc
    obtain ⟨rfl, rfl⟩ := hc
    rw [slidingWindowCheck_retryAfter hr hb] at hend
    refine slidingWindow_next hl (fun e he => hkept.window h.clock random w he) hend ?_
    rw [(frame_run hk hrun).slot]
    exact Redis.put_slot_self _

/-! ### The fallback -/

theorem memory_check_blocked {m : MemoryFallback} {now : Time} {b : Bucket}
    (hb : m.live now key = some b) (hfull : limit ≤ b.count) :
    (m.check now key limit w).1.allowed = false ∧
    (m.check now key limit w).1.retryAfter = max 1 (truncate (b.resetTime - now)) ∧
    (m.check now key limit w).2 = m.tidy now := by
  rw [MemoryFallback.check_live, hb]
  simp only [if_pos hfull]
  exact ⟨trivial, trivial, trivial⟩

theorem memory_check_allowed {m : MemoryFallback} {now : Time}
    (h : ∀ b, m.live now key = some b → b.count < limit) :
    (m.check now key limit w).1.allowed = true := by
  rw [MemoryFallback.check_live]
  cases hb : m.live now key with
  | none => rfl
  | some b => simp only [if_neg (not_le.mpr (h b hb))]

/-- A bucket that is used up lets the next call through iff its window has passed by then. -/
theorem memory_next {s₂ : LimiterWorld} {b : Bucket}
    (hlive : s₂.memory.live s₂.now key = if s₂.now ≤ b.resetTime then some b else none)
    (hfull : limit ≤ b.count) :
    (∃ result', (s₂.check random .memory key limit w).1 = .ok result' ∧ result'.allowed = true) ↔
      b.resetTime < s₂.now := by
  by_cases hgone : b.resetTime < s₂.now
  · rw [if_neg (not_le.mpr hgone)] at hlive
    refine iff_of_true ⟨_, rfl, memory_check_allowed ?_⟩ hgone
    intro b' hb'
    rw [hlive] at hb'
    cases hb'
  · rw [if_pos (not_lt.mp hgone)] at hlive
    refine iff_of_false ?_ hgone
    rintro ⟨result', hok, hallowed⟩
    have hresult : (s₂.memory.check s₂.now key limit w).1 = result' := Except.ok.inj hok
    rw [← hresult, (memory_check_blocked hlive hfull).1] at hallowed
    cases hallowed

theorem honest_memory_iff (h : LimiterKept s) (hw : 1 ≤ w) :
    Honest random s .memory key limit w ↔ RoundsUp s .memory key limit := by
  simp only [RoundsUp]
  by_cases hused : ∃ b, s.memory.live s.now key = some b ∧ limit ≤ b.count
  · obtain ⟨b, hb, hfull⟩ := hused
    obtain ⟨hblocked, hra, hm⟩ := @memory_check_blocked key limit w s.memory s.now b hb hfull
    have hk := @kept_check random s .memory key limit w h hw
    have hone : 0 ≤ (s.memory.check s.now key limit w).1.retryAfter := by
      rw [hra]
      exact le_trans (by decide) (le_max_left _ _)
    have hrest : 0 ≤ b.resetTime - s.now :=
      sub_nonneg.mpr (MemoryFallback.live_eq_some.mp hb).2
    have hc : s.check random .memory key limit w = (.ok (s.memory.check s.now key limit w).1,
        { s with memory := (s.memory.check s.now key limit w).2 }) := rfl
    have hiff : Honest random s .memory key limit w ↔ b.resetTime - s.now < 1 := by
      refine honest_iff_of_blocked hc hblocked hk rfl hone ?_
      intro s₂ hframe hend
      have hlive : s₂.memory.live s₂.now key =
          if s₂.now ≤ b.resetTime then some b else none := by
        rw [hframe.live, MemoryFallback.live_mono hframe.clock]
        show ((s.memory.check s.now key limit w).2.live s.now key).filter _ = _
        rw [hm, MemoryFallback.tidy_live, hb, Option.filter_some]
        simp only [decide_eq_true_eq]
      rw [memory_next hlive hfull, hend, hra, ← lt_max_truncate_iff hrest, sub_lt_iff_lt_add']
    rw [hiff]
    constructor
    · intro hd b' hb' _
      rw [hb] at hb'
      cases hb'
      exact hd
    · intro hd
      exact hd b hb hfull
  · refine iff_of_true (honest_of_allowed ?_) ?_
    · intro result s₁ hc
      cases hc
      refine memory_check_allowed ?_
      intro b hb
      by_contra hge
      exact hused ⟨b, hb, not_lt.mp hge⟩
    · intro b hb hfull
      exact absurd ⟨b, hb, hfull⟩ hused

end Honesty

/-- In every state that checks with a limit and a window of at least one lead to, from an empty Redis
and an empty fallback: waiting for `retry_after` seconds is enough exactly when the wait is not rounded
down. For the sliding window it always is. -/
theorem retry_after_honest_iff (random : Nat) (now : Time) (h0 : 0 ≤ now) (threshold : Int)
    (acts : List CheckAct) (s : LimiterWorld)
    (hrun : Run (step random) (fun _ a => a.Proper) (start now threshold) acts s)
    (limiter : LimiterKind) (key : String) (limit w : Int) (hl : 1 ≤ limit) (hw : 1 ≤ w) :
    Honest random s limiter key limit w ↔ RoundsUp s limiter key limit := by
  have h : LimiterKept s :=
    hrun.invariant (fun _ _ _ hi ha hs => kept_step hi ha hs) (kept_start h0)
  cases limiter with
  | fixedWindow => exact honest_fixedWindow_iff h hl hw
  | slidingWindow => exact iff_of_true (honest_slidingWindow h hl hw) trivial
  | memory => exact honest_memory_iff h hw

/-- Half a second is left of a window of ten: the second to wait passes its end. -/
theorem half_a_second_left : ∃ s,
    exec (step 7) (start 0 0) [.check .fixedWindow "a" 1 10, .tick (19 / 2)] = some s ∧
    s.redis.find s.now "a" = some ⟨.counter 1, some 10⟩ ∧
    Honest 7 s .fixedWindow "a" 1 10 := by
  have hx : (exec (step 7) (start 0 0) [.check .fixedWindow "a" 1 10, .tick (19 / 2)]).any
      (fun s => decide (s.now = 19 / 2 ∧
        s.redis.find s.now "a" = some ⟨.counter 1, some 10⟩)) = true := by
    decide +kernel
  obtain ⟨s, hs, hp⟩ := exec_any hx
  obtain ⟨hnow, hfind⟩ := of_decide_eq_true hp
  have hproper : ∀ a ∈ [CheckAct.check .fixedWindow "a" 1 10, .tick (19 / 2)],
      LimiterWorld → a.Proper := by
    intro a ha _
    simp only [List.mem_cons, List.not_mem_nil, or_false] at ha
    rcases ha with rfl | rfl
    · exact ⟨by decide, by decide⟩
    · trivial
  refine ⟨s, hs, hfind, ?_⟩
  rw [retry_after_honest_iff 7 0 (le_refl 0) 0 _ s (Run.of_exec_all hproper hs) .fixedWindow "a" 1 10
    (by decide) (by decide)]
  intro n t hf _
  rw [hfind] at hf
  cases hf
  left
  rw [hnow]
  norm_num

/-- One call in ten seconds: the fallback tells a caller that is blocked at once to wait for ten
seconds, and blocks it again then. -/
theorem wait_of_whole_window_too_short : ¬ ∀ (random : Nat) (now : Time) (threshold : Int)
    (acts : List CheckAct) (s : LimiterWorld), 0 ≤ now →
    Run (step random) (fun _ a => a.Proper) (start now threshold) acts s →
    ∀ (limiter : LimiterKind) (key : String) (limit w : Int), 1 ≤ limit → 1 ≤ w →
      Honest random s limiter key limit w := by
  intro hall
  have hfirst : Run (step 7) (fun _ a => a.Proper) (start 0 10000) [.check .memory "a" 1 10] _ :=
    .single ⟨by decide, by decide⟩ rfl
  have h := hall 7 0 10000 _ _ (le_refl 0) hfirst .memory "a" 1 10 (by decide) (by decide)
  obtain ⟨result, hok, hallowed⟩ := h _ _ rfl (by decide +kernel) [.tick 10] _
    (wait_run (by decide)) (by decide +kernel)
  have hblocked := Except.ok.inj hok
  rw [← hblocked] at hallowed
  revert hallowed
  decide +kernel

end LimiterWorld

end RateLimiter
end TrShared
