import TrShared.Machine.FixedWindow
import TrShared.Machine.Run
import TrShared.Python.OrderedDict

/-!
# TrShared.Alerts.Slack

`SlackAlertBudget` of `alerts/slack.py`: the alerts that go out in an hour, for each key. Times are in
microseconds, as `datetime` has them.

* `SlackAlertBudget.allow_eq` says what a call does to its key, and that the others keep their counts.
* `budget_kept`: over every run of calls, fewer than twice `per_hour` alerts of a key go out in any
  hour; and a call is refused only when `per_hour` of its key have gone out in the hour before it.
-/

namespace TrShared
namespace Alerts

open Machine Python

/-- `timedelta(hours=1)`. -/
def hour : Int := 3600000000

structure SlackAlertBudget where
  perHour : Int
  /-- A `defaultdict(int)`. -/
  counts : OrderedDict String Int := {}
  windowStarted : OrderedDict String Int := {}

/-- The head of `allow`: the window that the call belongs to. -/
def SlackAlertBudget.startWindow (b : SlackAlertBudget) (now : Int) (key : String) :
    SlackAlertBudget :=
  let started := (b.windowStarted.get key).getD now
  let b :=
    match b.windowStarted.get key with
    | some _ => b
    | none => { b with windowStarted := b.windowStarted.set key now }
  if hour < now - started then
    { b with counts := b.counts.set key 0, windowStarted := b.windowStarted.set key now }
  else b

def SlackAlertBudget.allow (b : SlackAlertBudget) (now : Int) (key : String) :
    Bool × SlackAlertBudget :=
  let b := b.startWindow now key
  -- reading a key that is not there puts it there
  let count := (b.counts.get key).getD 0
  let b := { b with counts := b.counts.set key count }
  if b.perHour ≤ count then (false, b)
  else (true, { b with counts := b.counts.set key (count + 1) })

/-- The count of a key and the end of its window. -/
def SlackAlertBudget.kept (b : SlackAlertBudget) (key : String) : Option (Int × Int) :=
  (b.windowStarted.get key).map (fun started => ((b.counts.get key).getD 0, started + hour))

/-- The count and the end of the window that a call at `now` belongs to. -/
def currentWindow (now : Int) (kept : Option (Int × Int)) : Int × Int :=
  (kept.filter (fun c => decide (now ≤ c.2))).getD (0, now + hour)

/-- A key without a window has no count. -/
def SlackAlertBudget.Counted (b : SlackAlertBudget) : Prop :=
  ∀ key, b.windowStarted.get key = none → b.counts.get key = none

section Allow

variable {b b' : SlackAlertBudget} {now : Int} {key key' : String}

/-- `b'` is `b` with what is said for the key. -/
structure Updates (b b' : SlackAlertBudget) (key : String) (kept : Int × Int) : Prop where
  perHour : b'.perHour = b.perHour
  kept : b'.kept key = some kept
  counts : ∀ key', key' ≠ key → b'.counts.get key' = b.counts.get key'
  windowStarted : ∀ key', key' ≠ key → b'.windowStarted.get key' = b.windowStarted.get key'

theorem startWindow_updates (h : b.Counted) (now : Int) (key : String) :
    Updates b (b.startWindow now key) key (currentWindow now (b.kept key)) := by
  unfold SlackAlertBudget.startWindow
  cases hs : b.windowStarted.get key with
  | none =>
    have hzero : ¬ hour < now - now := by
      rw [sub_self]
      decide
    simp only [Option.getD_none, if_neg hzero]
    exact ⟨rfl, by simp [SlackAlertBudget.kept, hs, h key hs, currentWindow], fun _ _ => rfl,
      fun _ hne => OrderedDict.get_set_of_ne hne⟩
  | some started =>
    simp only [Option.getD_some]
    split
    · have hpast : ¬ now ≤ started + hour := by omega
      exact ⟨rfl, by simp [SlackAlertBudget.kept, hs, currentWindow, Option.filter_some, hpast],
        fun _ hne => OrderedDict.get_set_of_ne hne, fun _ hne => OrderedDict.get_set_of_ne hne⟩
    · have hlive : now ≤ started + hour := by omega
      exact ⟨rfl, by simp [SlackAlertBudget.kept, hs, currentWindow, Option.filter_some, hlive],
        fun _ _ => rfl, fun _ _ => rfl⟩

/-- What one call does. -/
theorem allow_updates (h : b.Counted) (now : Int) (key : String) {n : Int} {stop : Int}
    (hw : currentWindow now (b.kept key) = (n, stop)) :
    (b.allow now key).1 = decide (n < b.perHour) ∧
    Updates b (b.allow now key).2 key (if n < b.perHour then n + 1 else n, stop) := by
  have hstart := startWindow_updates h now key
  rw [hw] at hstart
  obtain ⟨started, hs, hkept⟩ := Option.map_eq_some_iff.1 hstart.kept
  rw [Prod.mk.injEq] at hkept
  obtain ⟨hcount, hstop⟩ := hkept
  simp only [SlackAlertBudget.allow, hstart.perHour, hcount]
  by_cases hlt : n < b.perHour
  · rw [if_neg (not_le.2 hlt), if_pos hlt]
    refine ⟨(decide_eq_true hlt).symm, rfl, ?_, fun key' hne => ?_, hstart.windowStarted⟩
    · simp [SlackAlertBudget.kept, hs, hstop]
    · dsimp only
      rw [OrderedDict.get_set_of_ne hne, OrderedDict.get_set_of_ne hne, hstart.counts key' hne]
  · rw [if_pos (not_lt.1 hlt), if_neg hlt]
    refine ⟨(decide_eq_false hlt).symm, rfl, ?_, fun key' hne => ?_, hstart.windowStarted⟩
    · simp [SlackAlertBudget.kept, hs, hstop]
    · dsimp only
      rw [OrderedDict.get_set_of_ne hne, hstart.counts key' hne]

theorem Updates.counted {w : Int × Int} (hu : Updates b b' key w) (h : b.Counted) :
    b'.Counted := by
  intro key' hnone
  by_cases hk : key' = key
  · subst hk
    have hkept := hu.kept
    rw [SlackAlertBudget.kept, hnone] at hkept
    cases hkept
  · rw [hu.counts key' hk]
    exact h key' (by rw [← hu.windowStarted key' hk]; exact hnone)

theorem Updates.kept_of_ne {w : Int × Int} (hu : Updates b b' key w) (hne : key' ≠ key) :
    b'.kept key' = b.kept key' := by
  rw [SlackAlertBudget.kept, hu.counts key' hne, hu.windowStarted key' hne]
  rfl

end Allow

/-! ## Every run -/

structure BudgetRun where
  now : Int
  budget : SlackAlertBudget
  /-- The alerts that went out: the key and the moment. -/
  log : List (String × Int) := []

inductive BudgetAct where
  | tick (dt : Int)
  | call (key : String)
  deriving DecidableEq

def BudgetRun.step (s : BudgetRun) : BudgetAct → Option BudgetRun
  | .tick dt => if 0 ≤ dt then some { s with now := s.now + dt } else none
  | .call key =>
    let (allowed, budget) := s.budget.allow s.now key
    some { s with
      budget := budget
      log := if allowed then s.log ++ [(key, s.now)] else s.log }

def sentTimes (log : List (String × Int)) (key : String) : List Int :=
  (log.filter (fun e => decide (e.1 = key))).map Prod.snd

/-- The alerts of a key, and what the budget has of them. -/
structure Budgeted (perHour : Int) (now : Int) (sent : List Int)
    (kept : Option (Int × Int)) : Prop where
  counter : 1 ≤ perHour → WindowCounter perHour.toNat hour now sent kept
  none_sent : kept = none ∨ perHour ≤ 0 → sent = []
  /-- The count is that of the alerts since the window started. -/
  exact_count : ∀ n stop, kept = some (n, stop) → n = since sent (stop - hour) ∧ stop - hour ≤ now ∧
    ∀ t ∈ sent, t ≤ stop

section Budgeted

variable {perHour n : Int} {now now' stop : Int} {sent : List Int} {kept : Option (Int × Int)}

theorem since_anti {log : List Int} {a a' : Int} (h : a ≤ a') : since log a' ≤ since log a := by
  refine List.countP_mono_left (fun t _ ht => ?_)
  rw [decide_eq_true_eq] at ht ⊢
  exact h.trans ht

theorem Budgeted.later (h : Budgeted perHour now sent kept) (hle : now ≤ now') :
    Budgeted perHour now' sent kept where
  counter hp := (h.counter hp).later hle
  none_sent := h.none_sent
  exact_count n stop hk := by
    obtain ⟨hn, hstart, hinside⟩ := h.exact_count n stop hk
    exact ⟨hn, hstart.trans hle, hinside⟩

/-- A refused call has the hour before it full. -/
theorem Budgeted.refused (h : Budgeted perHour now sent kept)
    (hw : currentWindow now kept = (n, stop)) (hfull : perHour ≤ n) :
    perHour ≤ since sent (now - hour) := by
  unfold currentWindow at hw
  cases hk : kept.filter (fun c => decide (now ≤ c.2)) with
  | none =>
    rw [hk] at hw
    cases hw
    exact hfull.trans (Int.natCast_nonneg _)
  | some c =>
    rw [hk] at hw
    obtain rfl : c = (n, stop) := hw
    obtain ⟨hkept, hlive⟩ := Option.filter_eq_some_iff.1 hk
    have hle : now ≤ stop := of_decide_eq_true hlive
    obtain ⟨hn, -, -⟩ := h.exact_count n stop hkept
    have hmono : since sent (stop - hour) ≤ since sent (now - hour) := since_anti (by omega)
    omega

/-- The first call after the window. -/
theorem Budgeted.restart (h : Budgeted perHour now sent kept)
    (hgone : kept.filter (fun c => decide (now ≤ c.2)) = none) :
    Budgeted perHour now (if 0 < perHour then sent ++ [now] else sent)
      (some (if 0 < perHour then 1 else 0, now + hour)) := by
  have hhour : (0 : Int) ≤ hour := by decide
  have hbefore : ∀ t ∈ sent, t < now := by
    intro t ht
    cases hkept : kept with
    | none =>
      rw [h.none_sent (.inl hkept)] at ht
      cases ht
    | some c =>
      have hpast : ¬ now ≤ c.2 := by
        intro hle
        rw [hkept, Option.filter_some, if_pos (decide_eq_true hle)] at hgone
        cases hgone
      exact ((h.exact_count c.1 c.2 hkept).2.2 t ht).trans_lt (not_le.1 hpast)
  have hzero : since sent now = 0 := since_eq_zero hbefore
  refine ⟨fun hp => ?_, fun hnone => ?_, fun n stop hsome => ?_⟩
  · have hcounter := (h.counter hp).expire
    rw [hgone] at hcounter
    rw [if_pos (by omega), if_pos (by omega)]
    exact hcounter.restartAllow hhour
  · obtain hle : perHour ≤ 0 := by simpa using hnone
    rw [if_neg (not_lt.2 hle)]
    exact h.none_sent (.inr hle)
  · obtain ⟨rfl, rfl⟩ : (if 0 < perHour then (1 : Int) else 0) = n ∧ now + hour = stop := by
      simpa using hsome
    rw [Int.add_sub_cancel]
    refine ⟨?_, le_refl _, fun t ht => ?_⟩
    · split
      · rw [since_snoc, if_pos (le_refl _), hzero]
        rfl
      · rw [hzero]
        rfl
    · split at ht
      · rcases List.mem_append.1 ht with ht | ht
        · exact (hbefore t ht).le.trans (by omega)
        · rw [List.mem_singleton.1 ht]
          omega
      · exact (hbefore t ht).le.trans (by omega)

/-- An alert goes out in the window. -/
theorem Budgeted.send (h : Budgeted perHour now sent (some (n, stop))) (hlive : now ≤ stop)
    (hlt : n < perHour) : Budgeted perHour now (sent ++ [now]) (some (n + 1, stop)) := by
  obtain ⟨hn, hstart, hinside⟩ := h.exact_count n stop rfl
  refine ⟨fun hp => (h.counter hp).allow hlive (by omega), fun hnone => ?_, fun n' stop' hsome => ?_⟩
  · obtain hle : perHour ≤ 0 := by simpa using hnone
    omega
  · obtain ⟨rfl, rfl⟩ : n + 1 = n' ∧ stop = stop' := by simpa using hsome
    refine ⟨?_, hstart, fun t ht => ?_⟩
    · rw [since_snoc, if_pos hstart, hn]
      push_cast
      rfl
    · rcases List.mem_append.1 ht with ht | ht
      · exact hinside t ht
      · rw [List.mem_singleton.1 ht]
        exact hlive

/-- One call of the key. -/
theorem Budgeted.called (h : Budgeted perHour now sent kept)
    (hw : currentWindow now kept = (n, stop)) :
    Budgeted perHour now (if n < perHour then sent ++ [now] else sent)
      (some (if n < perHour then n + 1 else n, stop)) := by
  unfold currentWindow at hw
  cases hk : kept.filter (fun c => decide (now ≤ c.2)) with
  | none =>
    rw [hk] at hw
    obtain ⟨rfl, rfl⟩ : 0 = n ∧ now + hour = stop := by simpa using hw
    exact h.restart hk
  | some c =>
    rw [hk] at hw
    obtain rfl : c = (n, stop) := hw
    obtain ⟨rfl, hlive⟩ := Option.filter_eq_some_iff.1 hk
    split
    · exact h.send (of_decide_eq_true hlive) ‹_›
    · exact h

end Budgeted

theorem sentTimes_snoc {log : List (String × Int)} {key key' : String} {t : Int} :
    sentTimes (log ++ [(key, t)]) key' = sentTimes log key' ++ if key = key' then [t] else [] := by
  rw [sentTimes, sentTimes, List.filter_append, List.map_append, List.filter_singleton]
  by_cases hk : key = key'
  · simp [hk]
  · simp [hk]

structure BudgetInv (s : BudgetRun) : Prop where
  counted : s.budget.Counted
  keys : ∀ key, Budgeted s.budget.perHour s.now (sentTimes s.log key) (s.budget.kept key)

section Runs

variable {s s' : BudgetRun}

theorem BudgetInv.start (now perHour : Int) :
    BudgetInv { now := now, budget := { perHour := perHour } } where
  counted _ _ := rfl
  keys _ :=
    { counter := fun hp => .empty (by omega)
      none_sent := fun _ => rfl
      exact_count := fun _ _ h => by cases h }

theorem BudgetInv.call (h : BudgetInv s) (key : String) :
    BudgetInv { s with
      budget := (s.budget.allow s.now key).2
      log := if (s.budget.allow s.now key).1 then s.log ++ [(key, s.now)] else s.log } := by
  obtain ⟨⟨n, stop⟩, hw⟩ : ∃ w, currentWindow s.now (s.budget.kept key) = w := ⟨_, rfl⟩
  obtain ⟨hallowed, hu⟩ := allow_updates h.counted s.now key hw
  refine ⟨hu.counted h.counted, fun key' => ?_⟩
  have hsent : sentTimes (if (s.budget.allow s.now key).1 then s.log ++ [(key, s.now)] else s.log) key' =
      if key = key' ∧ n < s.budget.perHour then sentTimes s.log key' ++ [s.now]
      else sentTimes s.log key' := by
    rw [hallowed]
    by_cases hlt : n < s.budget.perHour
    · rw [if_pos (decide_eq_true hlt), sentTimes_snoc]
      by_cases hk : key = key'
      · simp [hk, hlt]
      · simp [hk]
    · rw [if_neg (by simpa using hlt), if_neg (fun hb => hlt hb.2)]
  show Budgeted _ s.now (sentTimes _ key') ((s.budget.allow s.now key).2.kept key')
  rw [hsent, hu.perHour]
  by_cases hk : key = key'
  · subst hk
    rw [hu.kept]
    simpa using (h.keys key).called hw
  · rw [hu.kept_of_ne (Ne.symm hk), if_neg (fun hb => hk hb.1)]
    exact h.keys key'

theorem BudgetInv.step {a : BudgetAct} (h : BudgetInv s) (hs : s.step a = some s') :
    BudgetInv s' := by
  cases a with
  | tick dt =>
    simp only [BudgetRun.step] at hs
    split at hs
    · cases hs
      exact ⟨h.counted, fun key => (h.keys key).later (by dsimp only; omega)⟩
    · cases hs
  | call key =>
    cases hs
    exact h.call key

theorem step_perHour {a : BudgetAct} (h : BudgetInv s) (hs : s.step a = some s') :
    s'.budget.perHour = s.budget.perHour := by
  cases a with
  | tick dt =>
    simp only [BudgetRun.step] at hs
    split at hs
    · cases hs
      rfl
    · cases hs
  | call key =>
    cases hs
    exact (allow_updates h.counted s.now key rfl).2.perHour

end Runs

/-- For every run of calls with any keys at non-decreasing moments: at most `2 * per_hour - 1` alerts of
a key go out in any hour, whatever the other keys do, and where a call is refused at least `per_hour` of
its key have gone out in the hour up to it. -/
theorem budget_kept (now perHour : Int) (acts : List BudgetAct) (s : BudgetRun)
    (hrun : Run BudgetRun.step (fun _ _ => True) { now := now, budget := { perHour := perHour } }
      acts s) (key : String) :
    (∀ a, within (sentTimes s.log key) a (a + hour) ≤ 2 * perHour.toNat - 1) ∧
    ((s.budget.allow s.now key).1 = false →
      perHour ≤ since (sentTimes s.log key) (s.now - hour)) := by
  have hinv : BudgetInv s ∧ s.budget.perHour = perHour :=
    hrun.invariant (I := fun s => BudgetInv s ∧ s.budget.perHour = perHour)
      (fun _ _ _ hi _ hs => ⟨hi.1.step hs, (step_perHour hi.1 hs).trans hi.2⟩)
      ⟨.start now perHour, rfl⟩
  obtain ⟨hinv, rfl⟩ := hinv
  have hkey := hinv.keys key
  refine ⟨fun a => ?_, fun hrefused => ?_⟩
  · by_cases hp : 1 ≤ s.budget.perHour
    · exact Nat.le_sub_one_of_lt ((hkey.counter hp).bound a)
    · rw [hkey.none_sent (.inr (by omega))]
      exact Nat.zero_le _
  · have hallow := (allow_updates hinv.counted s.now key rfl).1
    rw [hrefused] at hallow
    exact hkey.refused rfl (not_lt.1 (of_decide_eq_false hallow.symm))

/-- Two alerts an hour: three go out in the hour after the first, and the next call is refused. -/
theorem three_in_an_hour : ∃ s,
    exec BudgetRun.step { now := 0, budget := { perHour := 2 } }
      [.call "a", .tick hour, .call "a", .call "a", .call "b", .tick 1, .call "a", .call "a"] = some s ∧
    (s.budget.allow s.now "a").1 = false ∧ within (sentTimes s.log "a") 1 (1 + hour) = 3 ∧
    2 ≤ since (sentTimes s.log "a") (s.now - hour) := by
  have hx : (exec BudgetRun.step { now := 0, budget := { perHour := 2 } }
      [.call "a", .tick hour, .call "a", .call "a", .call "b", .tick 1, .call "a", .call "a"]).any
        (fun s => (s.budget.allow s.now "a").1 == false &&
          decide (within (sentTimes s.log "a") 1 (1 + hour) = 3)) = true := by
    decide +kernel
  obtain ⟨s, hs, hlog⟩ := exec_any hx
  rw [Bool.and_eq_true, beq_iff_eq, decide_eq_true_eq] at hlog
  exact ⟨s, hs, hlog.1, hlog.2, Int.ofNat_le.1 ((budget_kept 0 2 _ s
    (Run.of_exec_all (fun _ _ _ => trivial) hs) "a").2 hlog.1)⟩

end Alerts
end TrShared
