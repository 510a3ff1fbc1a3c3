import Mathlib.Data.List.Basic

/-!
# TrShared.Machine.PendingList

The pending entries list of a Redis consumer group: who was given which entry, and when. One
definition for each command that changes it, and who can own an entry afterwards: `XREADGROUP` and
`XAUTOCLAIM` assign to the calling consumer only, `XACK` and `XGROUP DELCONSUMER` only remove.
-/

namespace TrShared
namespace Machine

structure Delivered where
  id : Nat
  owner : Nat
  at_ : Nat
  deriving DecidableEq, Repr

abbrev PendingList := List Delivered

namespace PendingList

/-- `XREADGROUP`. -/
def read (pel : PendingList) (ids : List Nat) (owner now : Nat) : PendingList :=
  pel ++ ids.map (fun m => ⟨m, owner, now⟩)

/-- `XAUTOCLAIM`. -/
def claim (pel : PendingList) (ids : List Nat) (owner now : Nat) : PendingList :=
  pel.map (fun p => if p.id ∈ ids then ⟨p.id, owner, now⟩ else p)

/-- `XACK`. -/
def ack (pel : PendingList) (m : Nat) : PendingList := pel.filter (fun p => p.id != m)

/-- `XGROUP DELCONSUMER`. -/
def delConsumer (pel : PendingList) (owner : Nat) : PendingList :=
  pel.filter (fun p => p.owner != owner)

/-- The ids pending for a consumer. -/
def owned (pel : PendingList) (owner : Nat) : List Nat :=
  (pel.filter (fun p => p.owner == owner)).map Delivered.id

theorem owned_eq_nil {pel : PendingList} {owner : Nat} :
    pel.owned owner = [] ↔ ∀ p ∈ pel, p.owner ≠ owner := by
  simp [owned, List.filter_eq_nil_iff]

theorem mem_read {pel : PendingList} {ids : List Nat} {owner now : Nat} {p : Delivered} :
    p ∈ pel.read ids owner now ↔ p ∈ pel ∨ (p.id ∈ ids ∧ p.owner = owner ∧ p.at_ = now) := by
  simp only [read, List.mem_append, List.mem_map]
  constructor
  · rintro (h | ⟨m, hm, rfl⟩)
    · exact .inl h
    · exact .inr ⟨hm, rfl, rfl⟩
  · rintro (h | ⟨hm, rfl, rfl⟩)
    · exact .inl h
    · exact .inr ⟨p.id, hm, rfl⟩

theorem mem_claim {pel : PendingList} {ids : List Nat} {owner now : Nat} {p : Delivered}
    (h : p ∈ pel.claim ids owner now) : ∃ q ∈ pel, p.id = q.id ∧ (p = q ∨ p.owner = owner) := by
  obtain ⟨q, hq, rfl⟩ := List.mem_map.1 h
  refine ⟨q, hq, ?_⟩
  split
  · exact ⟨rfl, .inr rfl⟩
  · exact ⟨rfl, .inl rfl⟩

theorem mem_of_mem_ack {pel : PendingList} {m : Nat} {p : Delivered} (h : p ∈ pel.ack m) : p ∈ pel :=
  (List.mem_filter.1 h).1

theorem mem_of_mem_delConsumer {pel : PendingList} {owner : Nat} {p : Delivered}
    (h : p ∈ pel.delConsumer owner) : p ∈ pel :=
  (List.mem_filter.1 h).1

/-- A command of one consumer gives nothing to another one. -/
theorem read_disowned {pel : PendingList} {ids : List Nat} {owner owner' now : Nat}
    (hne : owner' ≠ owner) (h : ∀ p ∈ pel, p.owner ≠ owner') :
    ∀ p ∈ pel.read ids owner now, p.owner ≠ owner' := by
  intro p hp
  rcases mem_read.1 hp with hp | ⟨_, ho, _⟩
  · exact h p hp
  · rw [ho]
    exact fun he => hne he.symm

theorem claim_disowned {pel : PendingList} {ids : List Nat} {owner owner' now : Nat}
    (hne : owner' ≠ owner) (h : ∀ p ∈ pel, p.owner ≠ owner') :
    ∀ p ∈ pel.claim ids owner now, p.owner ≠ owner' := by
  intro p hp
  obtain ⟨q, hq, _, rfl | ho⟩ := mem_claim hp
  · exact h p hq
  · rw [ho]
    exact fun he => hne he.symm

end PendingList
end Machine
end TrShared
