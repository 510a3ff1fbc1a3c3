import Mathlib.Data.List.Infix
import Mathlib.Data.List.Nodup

/-!
# TrShared.Machine.RecentWindow

A bounded memory of the last insertions: new keys go to the end, and when there are more than `cap`
of them the oldest `batch` are dropped at once.

`Recent cap batch inserted retained` relates the history of insertions to what is still held. Its
last field is the one that counts: something has been dropped only if at least `cap + 1 - batch`
keys are held, because that many are left by the eviction that dropped it and every later one. So a
key that is no longer held has that many insertions behind it (`Recent.forgotten`).
-/

namespace TrShared
namespace Machine

variable {κ : Type} {cap batch : Nat} {inserted retained : List κ} {k : κ}

structure Recent (cap batch : Nat) (inserted retained : List κ) : Prop where
  nodup : retained.Nodup
  suffix : retained <:+ inserted
  bounded : retained.length ≤ cap
  full : retained.length < inserted.length → cap + 1 ≤ retained.length + batch

namespace Recent

theorem empty : Recent cap batch ([] : List κ) [] where
  nodup := List.nodup_nil
  suffix := List.suffix_rfl
  bounded := Nat.zero_le _
  full h := absurd h (lt_irrefl _)

theorem nodup_snoc (h : retained.Nodup) (hk : k ∉ retained) : (retained ++ [k]).Nodup := by
  rw [List.nodup_append]
  refine ⟨h, List.nodup_singleton k, ?_⟩
  rintro a ha b hb rfl
  obtain rfl : a = k := by simpa using hb
  exact hk ha

theorem suffix_snoc (h : retained <:+ inserted) : retained ++ [k] <:+ inserted ++ [k] := by
  obtain ⟨dropped, rfl⟩ := h
  exact ⟨dropped, by simp⟩

/-- An insertion below the bound. -/
theorem push (h : Recent cap batch inserted retained) (hk : k ∉ retained)
    (hroom : retained.length + 1 ≤ cap) :
    Recent cap batch (inserted ++ [k]) (retained ++ [k]) where
  nodup := nodup_snoc h.nodup hk
  suffix := suffix_snoc h.suffix
  bounded := by simpa using hroom
  full hlt := by
    have hold : retained.length < inserted.length := by simpa using hlt
    have := h.full hold
    simp only [List.length_append, List.length_singleton]
    omega

/-- The insertion that exceeds the bound, with the eviction it triggers. -/
theorem pushEvict (h : Recent cap batch inserted retained) (hk : k ∉ retained)
    (hover : cap < retained.length + 1) (hbatch : 0 < batch) :
    Recent cap batch (inserted ++ [k]) ((retained ++ [k]).drop batch) where
  nodup := (nodup_snoc h.nodup hk).sublist (List.drop_sublist _ _)
  suffix := (List.drop_suffix _ _).trans (suffix_snoc h.suffix)
  bounded := by
    have := h.bounded
    simp only [List.length_drop, List.length_append, List.length_singleton]
    omega
  full _ := by
    simp only [List.length_drop, List.length_append, List.length_singleton]
    omega

/-- The eviction spares the key whose insertion triggered it. -/
theorem mem_drop_snoc (h : batch ≤ retained.length) : k ∈ (retained ++ [k]).drop batch := by
  rw [List.drop_append_of_le_length h]
  simp

/-- A key that is not held was inserted at least `cap + 1 - batch` insertions of other keys ago. -/
theorem forgotten [DecidableEq κ] (h : Recent cap batch inserted retained) (hk : k ∉ retained)
    {pre post : List κ} (hsplit : inserted = pre ++ k :: post) :
    cap + 1 ≤ (post.filter (fun k' => decide (k' ≠ k))).length + batch := by
  have hpost : retained <:+ post := by
    have hks : k :: post <:+ inserted := ⟨pre, hsplit.symm⟩
    rcases List.suffix_or_suffix_of_suffix h.suffix hks with hr | hr
    · rcases List.suffix_cons_iff.mp hr with rfl | hr
      · exact absurd List.mem_cons_self hk
      · exact hr
    · exact absurd (hr.subset List.mem_cons_self) hk
  have hothers : retained.filter (fun k' => decide (k' ≠ k)) = retained := by
    refine List.filter_eq_self.mpr ?_
    intro a ha
    refine decide_eq_true ?_
    rintro rfl
    exact hk ha
  have hlen : retained.length ≤ (post.filter (fun k' => decide (k' ≠ k))).length := by
    rw [← hothers]
    exact (hpost.sublist.filter _).length_le
  have hlt : retained.length < inserted.length := by
    have := hpost.length_le
    simp only [hsplit, List.length_append, List.length_cons]
    omega
  have := h.full hlt
  omega

end Recent
end Machine
end TrShared
