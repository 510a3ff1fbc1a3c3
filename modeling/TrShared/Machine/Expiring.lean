import Mathlib.Logic.Function.Basic

/-!
# TrShared.Machine.Expiring

A key-value store whose keys expire, as Redis keeps them: `SET EX`, `GET`, `DEL`. A key is there up
to and including the moment it expires at; after that a reader does not see it. Times are
milliseconds.
-/

namespace TrShared
namespace Machine

variable {κ α : Type}

structure Timed (α : Type) where
  value : α
  expireAt : Nat

structure Expiring (κ α : Type) where
  slot : κ → Option (Timed α) := fun _ => none

namespace Expiring

/-- What a reader finds under the key. -/
def get (s : Expiring κ α) (now : Nat) (k : κ) : Option (Timed α) :=
  (s.slot k).filter (fun t => decide (now ≤ t.expireAt))

theorem get_eq_some {s : Expiring κ α} {now : Nat} {k : κ} {t : Timed α} :
    s.get now k = some t ↔ s.slot k = some t ∧ now ≤ t.expireAt := by
  simp [get, Option.filter_eq_some_iff]

theorem get_eq_none {s : Expiring κ α} {now : Nat} {k : κ} (h : s.slot k = none) :
    s.get now k = none := by
  simp [get, h]

variable [DecidableEq κ]

/-- `SET k value EX ttl`. -/
def set (s : Expiring κ α) (now : Nat) (k : κ) (value : α) (ttl : Nat) : Expiring κ α :=
  ⟨Function.update s.slot k (some ⟨value, now + ttl⟩)⟩

def del (s : Expiring κ α) (k : κ) : Expiring κ α := ⟨Function.update s.slot k none⟩

@[simp] theorem set_slot_self (s : Expiring κ α) (now : Nat) (k : κ) (value : α) (ttl : Nat) :
    (s.set now k value ttl).slot k = some ⟨value, now + ttl⟩ := by
  simp [set]

theorem set_slot_of_ne {s : Expiring κ α} {now : Nat} {k k' : κ} {value : α} {ttl : Nat}
    (hne : k' ≠ k) : (s.set now k value ttl).slot k' = s.slot k' := by
  simp [set, hne]

@[simp] theorem del_slot_self (s : Expiring κ α) (k : κ) : (s.del k).slot k = none := by
  simp [del]

theorem del_slot_of_ne {s : Expiring κ α} {k k' : κ} (hne : k' ≠ k) :
    (s.del k).slot k' = s.slot k' := by
  simp [del, hne]

end Expiring
end Machine
end TrShared
