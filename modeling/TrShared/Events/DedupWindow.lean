import TrShared.Machine.RecentWindow
import TrShared.Python.OrderedDict

/-!
# TrShared.Events.DedupWindow

`InMemoryIdempotencyChecker` (`tr_shared/events/consumer.py`) without its Redis fallback: the ids it
was given last, in an ordered dict that is cut back from more than 10 000 entries by the oldest
5 000.

`insertions` is the history of the dict: an id marked while it is held keeps its place and is no
insertion, an id marked after its eviction is one again. `dedupWindow` says what the dict holds of
that history after every call of every sequence.
-/

namespace TrShared
namespace Events

open Python Machine

def maxRetained : Nat := 10000

/-- `range(5_000)`. -/
def evictCount : Nat := 5000

section Evict

variable {κ : Type}

/-- The `popitem(last=False)` loop; an empty dict breaks it. -/
def popOldest : Nat → OrderedDict κ Unit → OrderedDict κ Unit
  | 0, d => d
  | n + 1, d =>
    match d.popitem with
    | none => d
    | some d' => popOldest n d'

theorem popOldest_keys (n : Nat) (d : OrderedDict κ Unit) :
    (popOldest n d).keys = d.keys.drop n := by
  induction n generalizing d with
  | zero => simp [popOldest]
  | succ n ih =>
    obtain ⟨entries, hd⟩ := d
    cases entries with
    | nil => simp [popOldest, OrderedDict.popitem, OrderedDict.keys]
    | cons e rest =>
      simp only [popOldest, OrderedDict.popitem]
      rw [ih]
      simp [OrderedDict.keys]

end Evict

structure InMemoryIdempotencyChecker (κ : Type) where
  ids : OrderedDict κ Unit := {}

namespace InMemoryIdempotencyChecker

variable {κ : Type} [DecidableEq κ] {c : InMemoryIdempotencyChecker κ} {id : κ}

/-- `event_id in self._ids`. -/
def isProcessed (c : InMemoryIdempotencyChecker κ) (eventId : κ) : Bool :=
  (c.ids.get eventId).isSome

def markProcessed (c : InMemoryIdempotencyChecker κ) (eventId : κ) :
    InMemoryIdempotencyChecker κ :=
  let ids := c.ids.set eventId ()
  { ids := if maxRetained < ids.size then popOldest evictCount ids else ids }

/-- `mark_processed` of one id after the other. -/
def markAll (c : InMemoryIdempotencyChecker κ) (ids : List κ) : InMemoryIdempotencyChecker κ :=
  ids.foldl markProcessed c

/-- The calls that put an id at the end of the dict. -/
def insertions (c : InMemoryIdempotencyChecker κ) : List κ → List κ
  | [] => []
  | id :: ids =>
    if c.isProcessed id then (c.markProcessed id).insertions ids
    else id :: (c.markProcessed id).insertions ids

theorem isProcessed_iff : c.isProcessed id = true ↔ id ∈ c.ids.keys :=
  OrderedDict.get_isSome_iff

theorem not_isProcessed_iff : c.isProcessed id = false ↔ id ∉ c.ids.keys := by
  rw [← isProcessed_iff, Bool.not_eq_true]

/-- Marking an id that is held changes nothing, not even its place. -/
theorem markProcessed_of_held (hb : c.ids.size ≤ maxRetained) (h : c.isProcessed id = true) :
    (c.markProcessed id).ids.keys = c.ids.keys := by
  have hkeys : (c.ids.set id ()).keys = c.ids.keys :=
    OrderedDict.keys_set_of_mem (isProcessed_iff.mp h)
  have hsize : ¬ maxRetained < (c.ids.set id ()).size := by
    rw [OrderedDict.size_eq_length_keys] at hb ⊢
    rw [hkeys]
    omega
  simp only [markProcessed, if_neg hsize]
  exact hkeys

theorem markProcessed_of_new (h : c.isProcessed id = false) :
    (c.markProcessed id).ids.keys =
      if maxRetained < c.ids.keys.length + 1 then (c.ids.keys ++ [id]).drop evictCount
      else c.ids.keys ++ [id] := by
  have hkeys : (c.ids.set id ()).keys = c.ids.keys ++ [id] :=
    OrderedDict.keys_set_of_not_mem (not_isProcessed_iff.mp h)
  have hsize : (c.ids.set id ()).size = c.ids.keys.length + 1 := by
    rw [OrderedDict.size_eq_length_keys, hkeys]
    simp
  simp only [markProcessed, hsize]
  split
  · rw [popOldest_keys, hkeys]
  · exact hkeys

/-- Nothing gets in but the id that was marked. -/
theorem markProcessed_subset {k : κ} (h : k ∈ (c.markProcessed id).ids.keys) :
    k ∈ c.ids.keys ∨ k = id := by
  have hset : k ∈ (c.ids.set id ()).keys := by
    simp only [markProcessed] at h
    split at h
    · rw [popOldest_keys] at h
      exact List.mem_of_mem_drop h
    · exact h
  by_cases hid : id ∈ c.ids.keys
  · rw [OrderedDict.keys_set_of_mem hid] at hset
    exact .inl hset
  · rw [OrderedDict.keys_set_of_not_mem hid] at hset
    simpa using hset

/-- What the dict holds of the history of its insertions. -/
def Keeps (inserted : List κ) (c : InMemoryIdempotencyChecker κ) : Prop :=
  Recent maxRetained evictCount inserted c.ids.keys

omit [DecidableEq κ] in
theorem Keeps.size_le {inserted : List κ} (h : c.Keeps inserted) : c.ids.size ≤ maxRetained := by
  rw [OrderedDict.size_eq_length_keys]
  exact h.bounded

theorem Keeps.mark_held {inserted : List κ} (h : c.Keeps inserted) (hid : c.isProcessed id = true) :
    (c.markProcessed id).Keeps inserted := by
  unfold Keeps
  rw [markProcessed_of_held h.size_le hid]
  exact h

theorem Keeps.mark_new {inserted : List κ} (h : c.Keeps inserted)
    (hid : c.isProcessed id = false) : (c.markProcessed id).Keeps (inserted ++ [id]) := by
  have hnew := not_isProcessed_iff.mp hid
  unfold Keeps
  rw [markProcessed_of_new hid]
  split
  · exact h.pushEvict hnew ‹_› (by decide)
  · exact h.push hnew (by omega)

theorem Keeps.markAll (ids : List κ) {inserted : List κ} (h : c.Keeps inserted) :
    (c.markAll ids).Keeps (inserted ++ c.insertions ids) := by
  induction ids generalizing c inserted with
  | nil => simpa [InMemoryIdempotencyChecker.markAll, insertions] using h
  | cons id ids ih =>
    simp only [insertions]
    split
    · exact ih (h.mark_held ‹_›)
    · have hid : c.isProcessed id = false := by simpa using ‹¬ c.isProcessed id = true›
      have hrest := ih (h.mark_new hid)
      rw [List.append_assoc] at hrest
      exact hrest

/-- The eviction never reaches the id whose insertion triggered it. -/
theorem isProcessed_markProcessed {inserted : List κ} (h : c.Keeps inserted) (id : κ) :
    (c.markProcessed id).isProcessed id = true := by
  rw [isProcessed_iff]
  cases hid : c.isProcessed id with
  | true =>
    rw [markProcessed_of_held h.size_le hid]
    exact isProcessed_iff.mp hid
  | false =>
    rw [markProcessed_of_new hid]
    split
    · rename_i hfull
      refine Recent.mem_drop_snoc ?_
      simp only [maxRetained] at hfull
      simp only [evictCount]
      omega
    · simp

/-- After every call of every sequence: the id just marked is known, at most 10 000 are held, they
are the last insertions in their order and an id that is held keeps its place, and an id is
forgotten only after 5 001 later insertions of others. -/
theorem dedupWindow (ids : List κ) (id : κ) :
    let c : InMemoryIdempotencyChecker κ := ({} : InMemoryIdempotencyChecker κ).markAll (ids ++ [id])
    let inserted := ({} : InMemoryIdempotencyChecker κ).insertions (ids ++ [id])
    c.isProcessed id = true ∧
      c.ids.size ≤ 10000 ∧
      c.ids.keys.Nodup ∧ c.ids.keys <:+ inserted ∧
      (∀ k, c.isProcessed k = true → (c.markProcessed k).ids.keys = c.ids.keys) ∧
      ∀ pre k post, inserted = pre ++ k :: post → c.isProcessed k = false →
        5001 ≤ (post.filter (fun k' => decide (k' ≠ k))).length := by
  have hempty : ({} : InMemoryIdempotencyChecker κ).Keeps [] := Recent.empty
  have hkeeps := hempty.markAll (ids ++ [id])
  rw [List.nil_append] at hkeeps
  refine ⟨?_, hkeeps.size_le, hkeeps.nodup, hkeeps.suffix, ?_, ?_⟩
  · have := isProcessed_markProcessed (hempty.markAll ids) id
    simpa [InMemoryIdempotencyChecker.markAll] using this
  · intro k hk
    exact markProcessed_of_held hkeeps.size_le hk
  · intro pre k post hsplit hk
    have := hkeeps.forgotten (not_isProcessed_iff.mp hk) hsplit
    simp only [maxRetained, evictCount] at this
    omega

end InMemoryIdempotencyChecker
end Events
end TrShared
