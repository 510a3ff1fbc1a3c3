import Mathlib.Algebra.Order.Ring.Defs
import Mathlib.Data.List.Count
import Mathlib.Tactic.Linarith

/-!
# TrShared.Machine.FixedWindow

Counters that start over with the first event after their window. Such a counter lets at most `limit`
events through in a window. An interval as long as a window can meet two of them, and then the event
that the first of them starts with lies before the interval.

* `Windowed`: the invariant of the events of one counter, kept when the window starts over and when an
  event is let through.
* `Windowed.bound`: fewer than `2 * limit` events in any interval of the length of a window.
* `WindowCounter`: the same, read off a count and the end of its window, as an implementation has them.
-/

namespace TrShared
namespace Machine

universe u

variable {T : Type u} [LinearOrder T]

/-- The events after `a` and not after `b`. -/
def within (log : List T) (a b : T) : Nat := log.countP (fun t => decide (a < t ∧ t ≤ b))

/-- The events from `a` on. -/
def since (log : List T) (a : T) : Nat := log.countP (fun t => decide (a ≤ t))

theorem countP_le_add {α : Type u} {p q r : α → Bool} {l : List α}
    (h : ∀ a ∈ l, p a = true → q a = true ∨ r a = true) : l.countP p ≤ l.countP q + l.countP r := by
  induction l with
  | nil => exact Nat.zero_le _
  | cons a l ih =>
    obtain ⟨ha, hl⟩ := List.forall_mem_cons.1 h
    have hle := ih hl
    simp only [List.countP_cons]
    by_cases hp : p a = true
    · rcases ha hp with hq | hr
      · rw [if_pos hp, if_pos hq]
        omega
      · rw [if_pos hp, if_pos hr]
        omega
    · rw [if_neg hp]
      omega

/-- Every element belongs to one of the parts, and none of the parts has more than `c`. -/
theorem countP_le_mul {α ι : Type u} {p : α → Bool} {q : ι → α → Bool} {parts : List ι} {c : Nat}
    {l : List α} (h : ∀ a ∈ l, p a = true → ∃ i ∈ parts, q i a = true)
    (hc : ∀ i ∈ parts, l.countP (q i) ≤ c) : l.countP p ≤ c * parts.length := by
  induction parts generalizing p with
  | nil =>
    refine Nat.le_of_eq (List.countP_eq_zero.2 (fun a ha hp => ?_))
    obtain ⟨i, hi, _⟩ := h a ha hp
    cases hi
  | cons i parts ih =>
    obtain ⟨hci, hcs⟩ := List.forall_mem_cons.1 hc
    -- what the first part leaves is in the others
    have hsplit : l.countP p ≤ l.countP (q i) + l.countP (fun a => p a && !q i a) := by
      refine countP_le_add (fun a _ hp => ?_)
      by_cases hq : q i a = true
      · exact .inl hq
      · exact .inr (by simp [hp, hq])
    have hrest : l.countP (fun a => p a && !q i a) ≤ c * parts.length := by
      refine ih (fun a ha hpa => ?_) hcs
      rw [Bool.and_eq_true, Bool.not_eq_true'] at hpa
      obtain ⟨j, hj, hq⟩ := h a ha hpa.1
      rcases List.mem_cons.1 hj with rfl | hj
      · rw [hpa.2] at hq
        cases hq
      · exact ⟨j, hj, hq⟩
    rw [List.length_cons, Nat.mul_succ]
    omega

section Log

variable {log : List T} {t : T}

theorem within_snoc (a b : T) :
    within (log ++ [t]) a b = within log a b + if a < t ∧ t ≤ b then 1 else 0 := by
  rw [within, List.countP_append, List.countP_singleton]
  simp only [decide_eq_true_eq]
  rfl

theorem since_snoc (a : T) : since (log ++ [t]) a = since log a + if a ≤ t then 1 else 0 := by
  rw [since, List.countP_append, List.countP_singleton]
  simp only [decide_eq_true_eq]
  rfl

theorem since_eq_zero (h : ∀ s ∈ log, s < t) : since log t = 0 := by
  rw [since, List.countP_eq_zero]
  intro s hs
  simpa using h s hs

end Log

variable [CommRing T]

/-- The current window is the `w` after `start`, with its end. -/
structure Windowed (limit : Nat) (w : T) (log : List T) (start : T) : Prop where
  inside : ∀ t ∈ log, t ≤ start + w
  current : since log start ≤ limit
  /-- A window's first event stands at its start. -/
  later : log.countP (fun t => decide (start < t)) < limit
  /-- Only one window reaches into the `w` before this one. -/
  previous : log.countP (fun t => decide (start - w < t ∧ t < start)) < limit
  bound : ∀ a, within log a (a + w) < 2 * limit

section Windowed

variable {limit : Nat} {w start t : T} {log : List T}

theorem Windowed.empty (hl : 0 < limit) : Windowed limit w [] start where
  inside _ h := by cases h
  current := Nat.zero_le _
  later := hl
  previous := hl
  bound _ := by
    show 0 < 2 * limit
    omega

variable [IsStrictOrderedRing T]

/-- The window starts over. -/
theorem Windowed.restart (h : Windowed limit w log start) (hw : 0 ≤ w) (ht : start + w < t) :
    Windowed limit w log t where
  inside s hs := by
    have hle := h.inside s hs
    linarith
  current := by
    rw [since_eq_zero (fun s hs => (h.inside s hs).trans_lt ht)]
    exact Nat.zero_le _
  later := by
    rw [List.countP_eq_zero.2]
    · exact (Nat.zero_le _).trans_lt h.later
    · intro s hs
      simpa using ((h.inside s hs).trans_lt ht).le
  previous := by
    refine lt_of_le_of_lt (List.countP_mono_left ?_) h.later
    intro s _ hs
    obtain ⟨hs, _⟩ := of_decide_eq_true hs
    rw [decide_eq_true_eq]
    linarith
  bound := h.bound

/-- An event is let through in the current window. -/
theorem Windowed.allow (h : Windowed limit w log start) (hst : start ≤ t) (ht : t ≤ start + w)
    (hlt : since log start < limit)
    (hlater : start < t → log.countP (fun s => decide (start < s)) + 1 < limit) :
    Windowed limit w (log ++ [t]) start where
  inside s hs := by
    rcases List.mem_append.1 hs with hs | hs
    · exact h.inside s hs
    · rw [List.mem_singleton.1 hs]
      exact ht
  current := by
    rw [since_snoc, if_pos hst]
    exact hlt
  later := by
    rw [List.countP_append, List.countP_singleton]
    by_cases hs : start < t
    · rw [if_pos (by simpa using hs)]
      exact hlater hs
    · rw [if_neg (by simpa using hs)]
      exact h.later
  previous := by
    rw [List.countP_append, List.countP_singleton, if_neg (by simp [hst])]
    exact h.previous
  bound a := by
    rw [within_snoc]
    split
    · rename_i hin
      -- the interval reaches back less than `w` before `start`
      have hsplit : within log a (a + w) ≤
          log.countP (fun s => decide (start - w < s ∧ s < start)) + since log start := by
        refine countP_le_add (fun s _ hs => ?_)
        obtain ⟨hs, _⟩ := of_decide_eq_true hs
        rw [decide_eq_true_eq, decide_eq_true_eq]
        rcases lt_or_ge s start with hlt | hge
        · exact .inl ⟨by linarith [hin.2], hlt⟩
        · exact .inr hge
      have hprevious := h.previous
      omega
    · exact h.bound a

end Windowed

/-- A log and what an implementation keeps of it: a count that covers the current window's events and
its start, and the end of the window; nothing when the window has passed. -/
structure WindowCounter (limit : Nat) (w now : T) (log : List T) (kept : Option (Int × T)) :
    Prop where
  windowed : ∃ start, Windowed limit w log start ∧
    match kept with
    | some (n, stop) => stop = start + w ∧ start ≤ now ∧ (since log start : Int) ≤ n ∧
        (log.countP (fun t => decide (start < t)) : Int) + 1 ≤ n
    | none => log = [] ∨ start + w < now

section Counter

variable {limit : Nat} {w now now' : T} {log : List T} {kept : Option (Int × T)} {n n' : Int} {stop : T}

theorem WindowCounter.empty (hl : 0 < limit) : WindowCounter limit w now [] none :=
  ⟨⟨now, .empty hl, .inl rfl⟩⟩

theorem WindowCounter.bound (h : WindowCounter limit w now log kept) (a : T) :
    within log a (a + w) < 2 * limit := by
  obtain ⟨start, hwindowed, _⟩ := h.windowed
  exact hwindowed.bound a

/-- Time passes; what has ended may be gone. -/
theorem WindowCounter.later (h : WindowCounter limit w now log kept) (hle : now ≤ now') :
    WindowCounter limit w now' log kept := by
  obtain ⟨start, hwindowed, hkept⟩ := h.windowed
  refine ⟨⟨start, hwindowed, ?_⟩⟩
  cases kept with
  | none => exact hkept.imp_right (fun hlt => hlt.trans_le hle)
  | some e => exact ⟨hkept.1, hkept.2.1.trans hle, hkept.2.2⟩

theorem WindowCounter.ended (h : WindowCounter limit w now log (some (n, stop))) (hlt : stop < now) :
    WindowCounter limit w now log none := by
  obtain ⟨start, hwindowed, rfl, _⟩ := h.windowed
  exact ⟨⟨start, hwindowed, .inr hlt⟩⟩

/-- An event is counted that was not let through. -/
theorem WindowCounter.ahead (h : WindowCounter limit w now log (some (n, stop))) (hn : n ≤ n') :
    WindowCounter limit w now log (some (n', stop)) := by
  obtain ⟨start, hwindowed, hstop, hstart, hcurrent, hlater⟩ := h.windowed
  exact ⟨⟨start, hwindowed, hstop, hstart, hcurrent.trans hn, hlater.trans hn⟩⟩

/-- What has ended is gone. -/
theorem WindowCounter.expire (h : WindowCounter limit w now log kept) :
    WindowCounter limit w now log (kept.filter (fun e => decide (now ≤ e.2))) := by
  cases kept with
  | none => exact h
  | some e =>
    rw [Option.filter_some]
    split
    · exact h
    · rename_i hgone
      exact h.ended (by simpa using hgone)

variable [IsStrictOrderedRing T]

/-- The window that starts at `now`, still without an event. -/
theorem WindowCounter.fresh (h : WindowCounter limit w now log none) (hw : 0 ≤ w) :
    Windowed limit w log now ∧ since log now = 0 ∧ log.countP (fun t => decide (now < t)) = 0 := by
  obtain ⟨start, hwindowed, hnone⟩ := h.windowed
  rcases hnone with rfl | hlt
  · exact ⟨.empty ((Nat.zero_le _).trans_lt hwindowed.later), rfl, rfl⟩
  · have hbefore : ∀ s ∈ log, s < now := fun s hs => (hwindowed.inside s hs).trans_lt hlt
    refine ⟨hwindowed.restart hw hlt, since_eq_zero hbefore, List.countP_eq_zero.2 ?_⟩
    intro s hs
    simpa using (hbefore s hs).le

/-- The window starts over with an event that was not let through. -/
theorem WindowCounter.restart (h : WindowCounter limit w now log none) (hw : 0 ≤ w) :
    WindowCounter limit w now log (some (1, now + w)) := by
  obtain ⟨hwindowed, hcurrent, hlater⟩ := h.fresh hw
  exact ⟨⟨now, hwindowed, rfl, le_refl _, by rw [hcurrent]; decide, by rw [hlater]; decide⟩⟩

/-- The window starts over with an event that is let through. -/
theorem WindowCounter.restartAllow (h : WindowCounter limit w now log none) (hw : 0 ≤ w) :
    WindowCounter limit w now (log ++ [now]) (some (1, now + w)) := by
  obtain ⟨hwindowed, hcurrent, hlater⟩ := h.fresh hw
  have hl : 0 < limit := (Nat.zero_le _).trans_lt hwindowed.later
  refine ⟨⟨now, hwindowed.allow (le_refl _) (by linarith) (by omega)
    (fun hlt => (lt_irrefl _ hlt).elim), rfl, le_refl _, ?_, ?_⟩⟩
  · rw [since_snoc, hcurrent, if_pos (le_refl _)]
    decide
  · rw [List.countP_append, hlater, List.countP_singleton, if_neg (by simp)]
    decide

/-- An event is counted and let through. -/
theorem WindowCounter.allow (h : WindowCounter limit w now log (some (n, stop))) (hnow : now ≤ stop)
    (hn : n < limit) : WindowCounter limit w now (log ++ [now]) (some (n + 1, stop)) := by
  obtain ⟨start, hwindowed, rfl, hstart, hcurrent, hlater⟩ := h.windowed
  refine ⟨⟨start, hwindowed.allow hstart hnow (by omega) (fun _ => by omega), rfl, hstart, ?_, ?_⟩⟩
  · rw [since_snoc, if_pos hstart]
    push_cast
    omega
  · rw [List.countP_append, List.countP_singleton]
    split <;> push_cast <;> omega

end Counter

end Machine
end TrShared
