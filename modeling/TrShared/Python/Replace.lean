import Mathlib.Data.List.TakeWhile
import TrShared.Python.Text

/-!
# TrShared.Python.Replace

Where a replacement in a text takes place. A text that ends in a separator is found only where the
separator is: `replaceFirst_at` and `replaceAll_at` say so for the first separator of a text, so that
what stands in front of it and what follows are replaced apart.

* `replaceFirst_of_absent`, `replaceAll_of_absent`: nothing is found, nothing changes.
* `length_lt_replaceFirst`, `length_lt_replaceAll`: a longer text in the place of a shorter one.
-/

namespace TrShared
namespace Python

section Partition

variable {α : Type} [DecidableEq α] {c : α} {a b s : List α}

theorem takeWhile_ne_append (h : c ∉ a) :
    (a ++ c :: b).takeWhile (fun x => decide (x ≠ c)) = a := by
  rw [List.takeWhile_append_of_pos]
  · simp
  · intro x hx
    simp only [ne_eq, decide_eq_true_eq]
    rintro rfl
    exact h hx

theorem dropWhile_ne_append (h : c ∉ a) :
    (a ++ c :: b).dropWhile (fun x => decide (x ≠ c)) = c :: b := by
  rw [List.dropWhile_append_of_pos]
  · simp
  · intro x hx
    simp only [ne_eq, decide_eq_true_eq]
    rintro rfl
    exact h hx

theorem partition_append (h : c ∉ a) : partition c (a ++ c :: b) = (a, b) := by
  simp only [partition, takeWhile_ne_append h, dropWhile_ne_append h, List.tail_cons]

theorem partition_of_not_mem (h : c ∉ s) : partition c s = (s, []) := by
  have hall : ∀ x ∈ s, decide (x ≠ c) = true := by
    intro x hx
    simp only [ne_eq, decide_eq_true_eq]
    rintro rfl
    exact h hx
  simp only [partition, List.takeWhile_eq_self_iff.mpr hall, List.dropWhile_eq_nil_iff.mpr hall,
    List.tail_nil]

theorem partition_of_mem (h : c ∈ s) : s = (partition c s).1 ++ c :: (partition c s).2 := by
  obtain ⟨a, b, rfl, ha⟩ := List.eq_append_cons_of_mem h
  rw [partition_append ha]

theorem afterLast_append (h : c ∉ b) : afterLast c (a ++ c :: b) = b := by
  have hr : (a ++ c :: b).reverse = b.reverse ++ c :: a.reverse := by simp
  rw [afterLast, hr, takeWhile_ne_append (by simpa using h), List.reverse_reverse]

theorem afterLast_suffix (c : α) (s : List α) : afterLast c s <:+ s := by
  rw [afterLast, ← List.reverse_prefix, List.reverse_reverse]
  exact List.takeWhile_prefix _

theorem afterLast_of_mem (h : c ∈ s) : ∃ a, s = a ++ c :: afterLast c s := by
  obtain ⟨b, a, hs, hb⟩ := List.eq_append_cons_of_mem (List.mem_reverse.mpr h)
  have hsplit : s = a.reverse ++ c :: b.reverse := by
    rw [← List.reverse_reverse s, hs]
    simp
  have hlast : afterLast c s = b.reverse := by
    rw [hsplit]
    exact afterLast_append (by simpa using hb)
  exact ⟨a.reverse, by rw [hlast]; exact hsplit⟩

end Partition

section Infix

variable {α : Type} {c : α} {p a b : List α}

theorem prefix_append_cons (h : c ∉ p) : p <+: a ++ c :: b ↔ p <+: a := by
  constructor
  · intro hp
    rcases List.prefix_or_prefix_of_prefix hp (List.prefix_append a (c :: b)) with hpa | hap
    · exact hpa
    · obtain ⟨d, rfl⟩ := hap
      rw [List.prefix_append_right_inj] at hp
      cases d with
      | nil => simp
      | cons x d =>
        obtain ⟨rfl, -⟩ := List.cons_prefix_cons.mp hp
        exact absurd (by simp) h
  · exact fun hp => hp.trans (List.prefix_append a (c :: b))

/-- What does not contain the separator lies on one side of it. -/
theorem infix_append_cons (h : c ∉ p) : p <:+: a ++ c :: b ↔ p <:+: a ∨ p <:+: b := by
  induction a with
  | nil =>
    rw [List.nil_append, List.infix_cons_iff]
    have hnil : p <+: c :: b ↔ p <+: [] := prefix_append_cons (a := []) h
    rw [hnil, List.prefix_nil, List.infix_nil]
  | cons x a ih =>
    rw [List.cons_append, List.infix_cons_iff, List.infix_cons_iff, ih, ← List.cons_append,
      prefix_append_cons h, or_assoc]

end Infix

section Replace

variable {α : Type} [DecidableEq α] {old new s : List α}

theorem isPrefixOf_iff {s : List α} : old.isPrefixOf s = true ↔ old <+: s :=
  List.isPrefixOf_iff_prefix

theorem replaceFirst_of_startsWith (hne : old ≠ []) (h : old <+: s) :
    replaceFirst old new s = new ++ s.drop old.length := by
  cases s with
  | nil => exact absurd (List.prefix_nil.mp h) hne
  | cons x s => rw [replaceFirst, if_pos (isPrefixOf_iff.mpr h)]

theorem replaceFirst_cons_of_not {x : α} (h : ¬ old <+: x :: s) :
    replaceFirst old new (x :: s) = x :: replaceFirst old new s := by
  rw [replaceFirst, if_neg (fun hp => h (isPrefixOf_iff.mp hp))]

theorem replaceFirst_of_absent (h : ¬ old <:+: s) : replaceFirst old new s = s := by
  induction s with
  | nil => rfl
  | cons x s ih =>
    rw [List.infix_cons_iff, not_or] at h
    rw [replaceFirst_cons_of_not h.1, ih h.2]

theorem mem_replaceFirst {x : α} (h : x ∈ replaceFirst old new s) : x ∈ new ∨ x ∈ s := by
  induction s with
  | nil => cases h
  | cons y s ih =>
    rw [replaceFirst] at h
    split at h
    · rcases List.mem_append.mp h with h | h
      · exact .inl h
      · exact .inr (List.mem_of_mem_drop h)
    · rcases List.mem_cons.mp h with rfl | h
      · exact .inr (by simp)
      · rcases ih h with h | h
        · exact .inl h
        · exact .inr (List.mem_cons_of_mem _ h)

/-- An occurrence in the front part comes before any other. -/
theorem replaceFirst_append (hne : old ≠ []) (h : old <:+: s) (t : List α) :
    replaceFirst old new (s ++ t) = replaceFirst old new s ++ t := by
  induction s with
  | nil => exact absurd (List.infix_nil.mp h) hne
  | cons x s ih =>
    by_cases hp : old <+: x :: s
    · have hlen := hp.length_le
      rw [replaceFirst_of_startsWith hne hp,
        replaceFirst_of_startsWith hne (hp.trans (List.prefix_append _ _)),
        List.drop_append_of_le_length hlen, List.append_assoc]
    · have hs : old <:+: s := (List.infix_cons_iff.mp h).resolve_left hp
      have hp' : ¬ old <+: x :: (s ++ t) := by
        intro hp'
        have hle : old.length ≤ (x :: s).length := by
          have := hs.length_le
          simp only [List.length_cons]
          omega
        exact hp (List.prefix_of_prefix_length_le hp' (List.prefix_append (x :: s) t) hle)
      rw [List.cons_append, replaceFirst_cons_of_not hp', replaceFirst_cons_of_not hp, ih hs]
      rfl

theorem length_le_replaceFirst (h : old.length ≤ new.length) :
    s.length ≤ (replaceFirst old new s).length := by
  induction s with
  | nil => simp
  | cons x s ih =>
    rw [replaceFirst]
    split
    · simp only [List.length_append, List.length_drop]
      omega
    · simpa using ih

theorem length_lt_replaceFirst (hne : old ≠ []) (h : old.length < new.length)
    (hi : old <:+: s) : s.length < (replaceFirst old new s).length := by
  induction s with
  | nil => exact absurd (List.infix_nil.mp hi) hne
  | cons x s ih =>
    by_cases hp : old <+: x :: s
    · have hlen := hp.length_le
      rw [replaceFirst_of_startsWith hne hp, List.length_append, List.length_drop]
      omega
    · rw [replaceFirst_cons_of_not hp]
      simpa using ih ((List.infix_cons_iff.mp hi).resolve_left hp)

/-! ## Every occurrence -/

theorem replaceFrom_skip (n : Nat) (s : List α) :
    replaceFrom old new n s = replaceFrom old new 0 (s.drop n) := by
  induction n generalizing s with
  | zero => rfl
  | succ n ih =>
    cases s with
    | nil => rfl
    | cons x s => simpa [replaceFrom] using ih s

theorem replaceAll_of_startsWith (hne : old ≠ []) (h : old <+: s) :
    replaceAll old new s = new ++ replaceAll old new (s.drop old.length) := by
  cases s with
  | nil => exact absurd (List.prefix_nil.mp h) hne
  | cons x s =>
    obtain ⟨n, hn⟩ : ∃ n, old.length = n + 1 :=
      ⟨old.length - 1, by have := List.length_pos_of_ne_nil hne; omega⟩
    rw [replaceAll, replaceFrom, if_pos (isPrefixOf_iff.mpr h), replaceFrom_skip, hn]
    rfl

theorem replaceAll_cons_of_not {x : α} (h : ¬ old <+: x :: s) :
    replaceAll old new (x :: s) = x :: replaceAll old new s := by
  rw [replaceAll, replaceFrom, if_neg (fun hp => h (isPrefixOf_iff.mp hp))]
  rfl

theorem replaceAll_of_absent (h : ¬ old <:+: s) : replaceAll old new s = s := by
  induction s with
  | nil => rfl
  | cons x s ih =>
    rw [List.infix_cons_iff, not_or] at h
    rw [replaceAll_cons_of_not h.1, ih h.2]

/-- By induction on the length: after an occurrence the rest is shorter. -/
theorem mem_replaceAll {x : α} (hne : old ≠ []) (h : x ∈ replaceAll old new s) :
    x ∈ new ∨ x ∈ s := by
  induction hn : s.length using Nat.strong_induction_on generalizing s with
  | _ n ih =>
    cases s with
    | nil => cases h
    | cons y s =>
      by_cases hp : old <+: y :: s
      · rw [replaceAll_of_startsWith hne hp] at h
        have hpos := List.length_pos_of_ne_nil hne
        rcases List.mem_append.mp h with h | h
        · exact .inl h
        · rcases ih _ (by simp only [List.length_drop, ← hn, List.length_cons]; omega) h rfl with h | h
          · exact .inl h
          · exact .inr (List.mem_of_mem_drop h)
      · rw [replaceAll_cons_of_not hp] at h
        rcases List.mem_cons.mp h with rfl | h
        · exact .inr (by simp)
        · rcases ih _ (by simp [← hn]) h rfl with h | h
          · exact .inl h
          · exact .inr (List.mem_cons_of_mem _ h)

/-- A separator that is not in the text looked for parts the replacement. -/
theorem replaceAll_separator {c : α} (hne : old ≠ []) (hc : c ∉ old) (a b : List α) :
    replaceAll old new (a ++ c :: b) = replaceAll old new a ++ c :: replaceAll old new b := by
  induction hn : a.length using Nat.strong_induction_on generalizing a with
  | _ n ih =>
    cases a with
    | nil =>
      have hnot : ¬ old <+: c :: b := by
        intro hp
        have hnil : old <+: [] := (prefix_append_cons (a := []) hc).mp hp
        exact hne (List.prefix_nil.mp hnil)
      exact replaceAll_cons_of_not hnot
    | cons x a =>
      have hiff : old <+: (x :: a) ++ c :: b ↔ old <+: x :: a := prefix_append_cons hc
      by_cases hp : old <+: x :: a
      · have hpos := List.length_pos_of_ne_nil hne
        rw [replaceAll_of_startsWith hne (hiff.mpr hp), replaceAll_of_startsWith hne hp,
          List.drop_append_of_le_length hp.length_le,
          ih _ (by simp only [List.length_drop, ← hn, List.length_cons]; omega) _ rfl,
          List.append_assoc]
      · have hnot : ¬ old <+: x :: (a ++ c :: b) := fun h => hp (hiff.mp h)
        rw [List.cons_append, replaceAll_cons_of_not hnot, replaceAll_cons_of_not hp,
          ih _ (by simp [← hn]) _ rfl, List.cons_append]

theorem length_le_replaceAll (hne : old ≠ []) (h : old.length ≤ new.length) :
    s.length ≤ (replaceAll old new s).length := by
  induction hn : s.length using Nat.strong_induction_on generalizing s with
  | _ n ih =>
    cases s with
    | nil => simp [← hn]
    | cons y s =>
      by_cases hp : old <+: y :: s
      · have hpos := List.length_pos_of_ne_nil hne
        have hlen := hp.length_le
        have hrest := ih ((y :: s).drop old.length).length
          (by simp only [List.length_drop, ← hn, List.length_cons]; omega) rfl
        rw [replaceAll_of_startsWith hne hp, List.length_append]
        rw [List.length_drop] at hrest
        omega
      · have hrest := ih s.length (by simp [← hn]) rfl
        rw [replaceAll_cons_of_not hp]
        simp only [List.length_cons] at hn ⊢
        omega

theorem length_lt_replaceAll (hne : old ≠ []) (h : old.length < new.length) (hi : old <:+: s) :
    s.length < (replaceAll old new s).length := by
  induction s with
  | nil => exact absurd (List.infix_nil.mp hi) hne
  | cons x s ih =>
    by_cases hp : old <+: x :: s
    · have hlen := hp.length_le
      have hrest := @length_le_replaceAll _ _ old new ((x :: s).drop old.length) hne (le_of_lt h)
      rw [replaceAll_of_startsWith hne hp, List.length_append]
      rw [List.length_drop] at hrest
      omega
    · rw [replaceAll_cons_of_not hp]
      simpa using ih ((List.infix_cons_iff.mp hi).resolve_left hp)

/-! ## At a separator -/

variable {c : α} {v w t a : List α}

theorem prefix_separator (hv : c ∉ v) (hs : c ∉ s) :
    (v ++ c :: w) <+: s ++ c :: t ↔ s = v ∧ w <+: t := by
  constructor
  · rintro ⟨y, hy⟩
    rw [List.append_assoc, List.cons_append] at hy
    have htake := congrArg (List.takeWhile (fun x => decide (x ≠ c))) hy
    rw [takeWhile_ne_append hv, takeWhile_ne_append hs] at htake
    subst htake
    have hcons := List.append_cancel_left hy
    exact ⟨rfl, ⟨y, List.cons.inj hcons |>.2⟩⟩
  · rintro ⟨rfl, y, rfl⟩
    exact ⟨y, by simp⟩

theorem not_starts_longer {x : α} (hv : c ∉ v) (ha : c ∉ x :: a) :
    ¬ (v ++ c :: w) <+: x :: (a ++ v ++ c :: t) := by
  have hs : c ∉ x :: a ++ v := by
    simp only [List.mem_append, not_or]
    exact ⟨ha, hv⟩
  intro hp
  have hlength := congrArg List.length ((prefix_separator hv hs).mp hp).1
  simp only [List.length_append, List.length_cons] at hlength
  omega

theorem not_starts_past {x : α} (hv : c ∉ v) (hs : c ∉ x :: s) (hn : ¬ v <:+ x :: s) :
    ¬ (v ++ c :: w) <+: x :: (s ++ c :: t) := by
  intro hp
  obtain ⟨rfl, -⟩ := (prefix_separator hv hs).mp hp
  exact hn (List.suffix_refl _)

/-- What ends in front of the separator is replaced. -/
theorem replaceFirst_at (hv : c ∉ v) (ha : c ∉ a) (hw : w <+: t) :
    replaceFirst (v ++ c :: w) new (a ++ v ++ c :: t) = a ++ new ++ t.drop w.length := by
  induction a with
  | nil =>
    have hp : (v ++ c :: w) <+: v ++ c :: t := (prefix_separator hv hv).mpr ⟨rfl, hw⟩
    rw [List.nil_append, replaceFirst_of_startsWith (by simp) hp, List.length_append, List.nil_append,
      ← List.drop_drop, List.drop_left]
    rfl
  | cons x a ih =>
    have hnot : ¬ (v ++ c :: w) <+: x :: (a ++ v ++ c :: t) := not_starts_longer hv ha
    rw [List.cons_append, List.cons_append, replaceFirst_cons_of_not hnot,
      ih (fun h => ha (List.mem_cons_of_mem _ h))]
    rfl

theorem replaceFirst_past (hv : c ∉ v) (hs : c ∉ s) (hn : ¬ v <:+ s) :
    replaceFirst (v ++ c :: w) new (s ++ c :: t) =
      s ++ replaceFirst (v ++ c :: w) new (c :: t) := by
  induction s with
  | nil => rfl
  | cons x s ih =>
    have hnot : ¬ (v ++ c :: w) <+: x :: (s ++ c :: t) := not_starts_past hv hs hn
    rw [List.cons_append, replaceFirst_cons_of_not hnot, ih (fun h => hs (List.mem_cons_of_mem _ h))
      (fun h => hn (h.trans (List.suffix_cons x s)))]
    rfl

theorem replaceAll_at (hv : c ∉ v) (ha : c ∉ a) (hw : w <+: t) :
    replaceAll (v ++ c :: w) new (a ++ v ++ c :: t) =
      a ++ new ++ replaceAll (v ++ c :: w) new (t.drop w.length) := by
  induction a with
  | nil =>
    have hp : (v ++ c :: w) <+: v ++ c :: t := (prefix_separator hv hv).mpr ⟨rfl, hw⟩
    rw [List.nil_append, replaceAll_of_startsWith (by simp) hp, List.length_append, List.nil_append,
      ← List.drop_drop, List.drop_left]
    rfl
  | cons x a ih =>
    have hnot : ¬ (v ++ c :: w) <+: x :: (a ++ v ++ c :: t) := not_starts_longer hv ha
    rw [List.cons_append, List.cons_append, replaceAll_cons_of_not hnot,
      ih (fun h => ha (List.mem_cons_of_mem _ h))]
    rfl

theorem replaceAll_past (hv : c ∉ v) (hs : c ∉ s) (hn : ¬ v <:+ s) :
    replaceAll (v ++ c :: w) new (s ++ c :: t) =
      s ++ replaceAll (v ++ c :: w) new (c :: t) := by
  induction s with
  | nil => rfl
  | cons x s ih =>
    have hnot : ¬ (v ++ c :: w) <+: x :: (s ++ c :: t) := not_starts_past hv hs hn
    rw [List.cons_append, replaceAll_cons_of_not hnot, ih (fun h => hs (List.mem_cons_of_mem _ h))
      (fun h => hn (h.trans (List.suffix_cons x s)))]
    rfl

/-- Text behind the separator of an occurrence stands behind a text that has none. -/
theorem infix_separator {d : α} (hv : d ∉ v) (hs : d ∉ s) (hlast : ¬ v <:+ s) :
    (v ++ d :: w) <:+: s ++ d :: t ↔ (v ++ d :: w) <:+: d :: t := by
  induction s with
  | nil => rfl
  | cons x s ih =>
    rw [List.cons_append, List.infix_cons_iff, ih (fun h => hs (List.mem_cons_of_mem _ h))
      (fun h => hlast (h.trans (List.suffix_cons x s)))]
    constructor
    · rintro (hp | h)
      · exact absurd hp (not_starts_past hv hs hlast)
      · exact h
    · exact .inr

end Replace

end Python
end TrShared
