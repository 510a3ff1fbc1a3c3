import Mathlib.Data.List.Nodup

/-!
# TrShared.Machine.Table

A table with a primary key: rows of any type, no two with the same key. `modify` is
`UPDATE … WHERE key = k`, `insert` is `INSERT` of a row with a new key, `find` reads by key. Both
writers keep the key unique by construction, and the `find_…` lemmas say what a reader sees.
-/

namespace TrShared
namespace Machine

variable {κ ρ : Type}

structure Table (key : ρ → κ) where
  rows : List ρ
  nodup : (rows.map key).Nodup

namespace Table

variable {key : ρ → κ}

variable [DecidableEq κ]

def find (t : Table key) (k : κ) : Option ρ := t.rows.find? (fun r => key r = k)

theorem map_key_modify (l : List ρ) (k : κ) (f : ρ → ρ) (hf : ∀ r, key (f r) = key r) :
    (l.map (fun r => if key r = k then f r else r)).map key = l.map key := by
  rw [List.map_map]
  apply List.map_congr_left
  intro r _
  simp only [Function.comp_apply]
  split
  · exact hf r
  · rfl

/-- Rewrite the row with key `k`; no row is added or removed. -/
def modify (t : Table key) (k : κ) (f : ρ → ρ) (hf : ∀ r, key (f r) = key r) : Table key :=
  ⟨t.rows.map (fun r => if key r = k then f r else r), by
    rw [map_key_modify t.rows k f hf]; exact t.nodup⟩

/-- Add a row with a new key at the end. -/
def insert (t : Table key) (r : ρ) (h : key r ∉ t.rows.map key) : Table key :=
  ⟨t.rows ++ [r], by
    rw [List.map_append, List.nodup_append]
    refine ⟨t.nodup, by simp, ?_⟩
    intro a ha b hb e
    simp only [List.map_cons, List.map_nil, List.mem_singleton] at hb
    rw [e, hb] at ha
    exact h ha⟩

theorem find_some {t : Table key} {k : κ} {r : ρ} (h : t.find k = some r) :
    r ∈ t.rows ∧ key r = k := by
  unfold find at h
  exact ⟨List.mem_of_find?_eq_some h, by simpa using List.find?_some h⟩

theorem find_none {t : Table key} {k : κ} : t.find k = none ↔ k ∉ t.rows.map key := by
  unfold find
  simp

/-- Keys are unique, so reading by the key of a row gives that row. -/
theorem find_of_mem {t : Table key} {r : ρ} (h : r ∈ t.rows) : t.find (key r) = some r := by
  obtain ⟨rows, hn⟩ := t
  simp only [find] at h ⊢
  induction rows with
  | nil => simp at h
  | cons x xs ih =>
    simp only [List.map_cons, List.nodup_cons] at hn
    rw [List.find?_cons]
    by_cases hx : key x = key r
    · rcases List.mem_cons.1 h with rfl | hr
      · simp
      · exact absurd (hx ▸ List.mem_map_of_mem hr) hn.1
    · rcases List.mem_cons.1 h with rfl | hr
      · exact absurd rfl hx
      · simpa [hx] using ih hn.2 hr

@[simp] theorem find_modify_self (t : Table key) (k : κ) (f : ρ → ρ)
    (hf : ∀ r, key (f r) = key r) : (t.modify k f hf).find k = (t.find k).map f := by
  simp only [find, modify]
  induction t.rows with
  | nil => rfl
  | cons x xs ih =>
    by_cases hx : key x = k
    · simp [hx, hf]
    · simp only [List.map_cons, hx, if_false, List.find?_cons, decide_false]
      exact ih

@[simp] theorem find_modify_ne (t : Table key) {k k' : κ} (f : ρ → ρ)
    (hf : ∀ r, key (f r) = key r) (h : k' ≠ k) : (t.modify k f hf).find k' = t.find k' := by
  simp only [find, modify]
  induction t.rows with
  | nil => rfl
  | cons x xs ih =>
    by_cases hx : key x = k
    · have hx' : key x ≠ k' := fun e => h (e.symm.trans hx)
      simp only [List.map_cons, hx, if_true, List.find?_cons, hf, h.symm, decide_false]
      exact ih
    · simp only [List.map_cons, hx, if_false, List.find?_cons]
      split
      · rfl
      · exact ih

/-- What a reader of any key sees after `modify`. -/
theorem find_modify (t : Table key) (k k' : κ) (f : ρ → ρ) (hf : ∀ r, key (f r) = key r) :
    (t.modify k f hf).find k' = if k' = k then (t.find k').map f else t.find k' := by
  split
  · rename_i h; subst h; exact find_modify_self t k' f hf
  · rename_i h; exact find_modify_ne t f hf h

theorem find_insert (t : Table key) (r : ρ) (h : key r ∉ t.rows.map key) (k : κ) :
    (t.insert r h).find k = if k = key r then some r else t.find k := by
  simp only [find, insert, List.find?_append, List.find?_cons, List.find?_nil]
  by_cases hk : k = key r
  · subst hk
    have hn := find_none.2 h
    simp only [find] at hn
    simp [hn]
  · have hk' : ¬ key r = k := fun e => hk e.symm
    simp [hk, hk']

/-- A stored row stays when another one is added. -/
theorem find_insert_of_find {t : Table key} {r r' : ρ} (h : key r ∉ t.rows.map key) {k : κ}
    (hk : t.find k = some r') : (t.insert r h).find k = some r' := by
  rw [find_insert, if_neg, hk]
  rintro rfl
  rw [find_none.2 h] at hk
  cases hk

/-- What is found after an insertion is the new row or was found before. -/
theorem find_of_find_insert {t : Table key} {r r' : ρ} (h : key r ∉ t.rows.map key) {k : κ}
    (hk : (t.insert r h).find k = some r') : r' = r ∨ t.find k = some r' := by
  rw [find_insert] at hk
  split at hk
  · cases hk; exact .inl rfl
  · exact .inr hk

end Table
end Machine
end TrShared
