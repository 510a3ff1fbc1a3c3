import Mathlib.Data.List.Nodup
import Mathlib.Data.List.Perm.Basic
import Mathlib.Order.Lattice

/-!
# TrShared.Machine.Pages

Pages cut from separate answers of a database to the same query. The rows come sorted by a key, but
rows with one key may stand in a different order in each answer (`Arranged`).

`pages_perm_iff`: the pages put together are the rows, however the answers turn out, exactly when no
group of rows with one key lies across a page boundary. `above` rows sort before the group and
`upTo` rows before its end, so the boundary `b` cuts it when `above < b < upTo`.
-/

namespace TrShared
namespace Machine

variable {α K : Type} [LinearOrder K] {key : α → K} {rows l l' : List α}

/-- One possible answer: all the rows, sorted by the key. -/
structure Arranged (key : α → K) (rows l : List α) : Prop where
  perm : l.Perm rows
  sorted : l.Pairwise (fun a b => key a ≤ key b)

/-- `LIMIT size OFFSET k * size`. -/
def page (size k : Nat) (l : List α) : List α := (l.drop (k * size)).take size

/-- How many rows sort before every row with this key. -/
def above (key : α → K) (rows : List α) (x : K) : Nat := rows.countP (fun a => decide (key a < x))

/-- How many rows sort before the rows that come after this key. -/
def upTo (key : α → K) (rows : List α) (x : K) : Nat := rows.countP (fun a => decide (key a ≤ x))

/-- The boundary cuts through the rows with the key of some row. -/
def Cut (key : α → K) (rows : List α) (b : Nat) : Prop :=
  ∃ r ∈ rows, above key rows (key r) < b ∧ b < upTo key rows (key r)

/-! ## Pages of one answer -/

theorem take_page (size k : Nat) (l : List α) :
    l.take ((k + 1) * size) = l.take (k * size) ++ page size k l := by
  rw [Nat.add_mul, Nat.one_mul, page, List.take_add]

theorem flatMap_page (size n : Nat) (l : List α) :
    (List.range n).flatMap (fun k => page size k l) = l.take (n * size) := by
  induction n with
  | zero => simp
  | succ n ih =>
    rw [List.range_succ, List.flatMap_append, ih, take_page]
    simp

/-- How many pages there are. -/
def pageCount (size total : Nat) : Nat := (total + size - 1) / size

theorem le_pageCount_mul {size : Nat} (hsize : 0 < size) (total : Nat) :
    total ≤ pageCount size total * size := by
  have h := Nat.div_add_mod (total + size - 1) size
  have hlt := Nat.mod_lt (total + size - 1) hsize
  rw [Nat.mul_comm] at h
  rw [pageCount]
  omega

theorem lt_pageCount {size k total : Nat} (hsize : 0 < size) (h : k * size < total) :
    k < pageCount size total := by
  rw [pageCount, Nat.lt_iff_add_one_le, Nat.le_div_iff_mul_le hsize, Nat.add_mul]
  omega

/-! ## Boundaries that cut no group -/

theorem Arranged.exists (key : α → K) (rows : List α) : ∃ l, Arranged key rows l := by
  have htrans : ∀ a b c : α, decide (key a ≤ key b) = true → decide (key b ≤ key c) = true →
      decide (key a ≤ key c) = true := by
    intro a b c hab hbc
    simp only [decide_eq_true_eq] at hab hbc ⊢
    exact hab.trans hbc
  have htotal : ∀ a b : α, (decide (key a ≤ key b) || decide (key b ≤ key a)) = true := by
    intro a b
    simpa using le_total (key a) (key b)
  refine ⟨rows.mergeSort (fun a b => decide (key a ≤ key b)), List.mergeSort_perm .., ?_⟩
  simpa using List.pairwise_mergeSort htrans htotal rows

/-- A sorted list starts with what lies below a key. -/
theorem sorted_split (hl : l.Pairwise (fun a b => key a ≤ key b)) (x : K) :
    l.filter (fun a => decide (key a < x)) ++ l.filter (fun a => !decide (key a < x)) = l := by
  induction l with
  | nil => rfl
  | cons a l ih =>
    rw [List.pairwise_cons] at hl
    by_cases ha : key a < x
    · simp only [List.filter_cons, ha, decide_true, if_true, List.cons_append, Bool.not_true]
      simpa using ih hl.2
    · -- nothing below `x` comes after `a`
      have hnone : ∀ b ∈ l, ¬ key b < x := fun b hb => not_lt.2 ((not_lt.1 ha).trans (hl.1 b hb))
      have hfilter : l.filter (fun a => decide (key a < x)) = [] := by
        simpa [List.filter_eq_nil_iff] using hnone
      have hrest : l.filter (fun a => !decide (key a < x)) = l := by
        simpa [List.filter_eq_self] using hnone
      simp [ha, hfilter, hrest]

theorem take_above (hl : l.Pairwise (fun a b => key a ≤ key b)) (x : K) :
    l.take (above key l x) = l.filter (fun a => decide (key a < x)) := by
  have hlen : above key l x = (l.filter (fun a => decide (key a < x))).length :=
    List.countP_eq_length_filter ..
  calc l.take (above key l x)
      = (l.filter (fun a => decide (key a < x)) ++ l.filter (fun a => !decide (key a < x))).take
          (l.filter (fun a => decide (key a < x))).length := by rw [sorted_split hl x, hlen]
    _ = l.filter (fun a => decide (key a < x)) := List.take_left

theorem Arranged.above_eq (h : Arranged key rows l) (x : K) : above key l x = above key rows x :=
  h.perm.countP_eq _

theorem Arranged.upTo_eq (h : Arranged key rows l) (x : K) : upTo key l x = upTo key rows x :=
  h.perm.countP_eq _

theorem sorted_around {s t : List α} {v : α}
    (hl : (s ++ v :: t).Pairwise (fun a b => key a ≤ key b)) :
    (∀ a ∈ s, key a ≤ key v) ∧ ∀ a ∈ v :: t, key v ≤ key a := by
  obtain ⟨-, hvt, hs⟩ := List.pairwise_append.1 hl
  refine ⟨fun a ha => hs a ha v (by simp), ?_⟩
  intro a ha
  rcases List.mem_cons.1 ha with rfl | ha
  · exact le_rfl
  · exact (List.pairwise_cons.1 hvt).1 a ha

/-- A row that does not sort before `x` has everything that does in front of it. -/
theorem above_le {s t : List α} {v : α} {x : K}
    (hl : (s ++ v :: t).Pairwise (fun a b => key a ≤ key b)) (hv : x ≤ key v) :
    above key (s ++ v :: t) x ≤ s.length := by
  have hzero : (v :: t).countP (fun a => decide (key a < x)) = 0 := by
    rw [List.countP_eq_zero]
    intro a ha
    simpa using hv.trans ((sorted_around hl).2 a ha)
  rw [above, List.countP_append, hzero]
  exact List.countP_le_length

theorem lt_above {s t : List α} {v : α} {x : K}
    (hl : (s ++ v :: t).Pairwise (fun a b => key a ≤ key b)) (hv : key v < x) :
    s.length < above key (s ++ v :: t) x := by
  have hall : s.countP (fun a => decide (key a < x)) = s.length := by
    rw [List.countP_eq_length]
    intro a ha
    simpa using ((sorted_around hl).1 a ha).trans_lt hv
  rw [above, List.countP_append, hall, List.countP_cons_of_pos (by simpa using hv)]
  omega

theorem upTo_le {s t : List α} {v : α} {x : K}
    (hl : (s ++ v :: t).Pairwise (fun a b => key a ≤ key b)) (hv : x < key v) :
    upTo key (s ++ v :: t) x ≤ s.length := by
  have hzero : (v :: t).countP (fun a => decide (key a ≤ x)) = 0 := by
    rw [List.countP_eq_zero]
    intro a ha
    simpa using hv.trans_le ((sorted_around hl).2 a ha)
  rw [upTo, List.countP_append, hzero]
  exact List.countP_le_length

theorem lt_upTo {s t : List α} {v : α} {x : K}
    (hl : (s ++ v :: t).Pairwise (fun a b => key a ≤ key b)) (hv : key v ≤ x) :
    s.length < upTo key (s ++ v :: t) x := by
  have hall : s.countP (fun a => decide (key a ≤ x)) = s.length := by
    rw [List.countP_eq_length]
    intro a ha
    simpa using ((sorted_around hl).1 a ha).trans hv
  rw [upTo, List.countP_append, hall, List.countP_cons_of_pos (by simpa using hv)]
  omega

/-- Two answers agree on what stands before a boundary that cuts no group. -/
theorem Arranged.take_perm (h : Arranged key rows l) (h' : Arranged key rows l') {b : Nat}
    (hcut : ¬ Cut key rows b) : (l.take b).Perm (l'.take b) := by
  by_cases hb : b < l.length
  · -- the row behind the boundary starts its group
    have hsplit : l = l.take b ++ l[b] :: l.drop (b + 1) := by simp
    have hlen : (l.take b).length = b := by simp [hb.le]
    have hsorted := h.sorted
    rw [hsplit] at hsorted
    have hle := above_le hsorted le_rfl
    have hlt := lt_upTo hsorted le_rfl
    rw [← hsplit, hlen] at hle hlt
    have habove : above key rows (key l[b]) = b := by
      rw [h.above_eq] at hle
      rw [h.upTo_eq] at hlt
      by_contra hne
      exact hcut ⟨l[b], h.perm.mem_iff.1 (List.getElem_mem hb), by omega, hlt⟩
    have htake := take_above h.sorted (key l[b])
    have htake' := take_above h'.sorted (key l[b])
    rw [h.above_eq, habove] at htake
    rw [h'.above_eq, habove] at htake'
    rw [htake, htake']
    exact (h.perm.trans h'.perm.symm).filter _
  · have hlen : l'.length = l.length := (h'.perm.trans h.perm.symm).length_eq
    rw [List.take_of_length_le (by omega), List.take_of_length_le (by omega)]
    exact h.perm.trans h'.perm.symm

theorem Arranged.page_perm (h : Arranged key rows l) (h' : Arranged key rows l') {size k : Nat}
    (hcut : ¬ Cut key rows (k * size)) (hcut' : ¬ Cut key rows ((k + 1) * size)) :
    (page size k l).Perm (page size k l') := by
  have hnext := h.take_perm h' hcut'
  rw [take_page, take_page] at hnext
  have hleft := (h.take_perm h' hcut).symm.append_right (page size k l')
  exact (List.perm_append_left_iff _).1 (hnext.trans hleft)

/-! ## A boundary that cuts a group -/

/-- The rows on both sides of the boundary have one key. -/
theorem Arranged.tie (h : Arranged key rows l) {b : Nat} (hcut : Cut key rows b) :
    ∃ s u v t, l = s ++ u :: v :: t ∧ s.length + 1 = b ∧ key u = key v := by
  obtain ⟨r, -, habove, hupTo⟩ := hcut
  rw [← h.above_eq] at habove
  rw [← h.upTo_eq] at hupTo
  have hb : b < l.length := lt_of_lt_of_le hupTo List.countP_le_length
  obtain ⟨b', rfl⟩ : ∃ b', b = b' + 1 := ⟨b - 1, by omega⟩
  obtain ⟨s, u, v, t, rfl, hs⟩ : ∃ s u v t, l = s ++ u :: v :: t ∧ s.length = b' :=
    ⟨l.take b', l[b'], l[b' + 1], l.drop (b' + 1 + 1), by simp, by simp; omega⟩
  have hsorted := h.sorted
  have huv : key u ≤ key v := (sorted_around hsorted).2 v (by simp)
  have hru : key r ≤ key u := by
    by_contra hlt
    have := lt_above hsorted (not_le.1 hlt)
    omega
  have hvr : key v ≤ key r := by
    by_contra hlt
    have hsplit : s ++ u :: v :: t = (s ++ [u]) ++ v :: t := by simp
    rw [hsplit] at hsorted hupTo
    have := upTo_le hsorted (not_le.1 hlt)
    simp only [List.length_append, List.length_singleton] at this
    omega
  exact ⟨s, u, v, t, rfl, by omega, le_antisymm huv (hvr.trans hru)⟩

theorem Arranged.swap {s t : List α} {u v : α} (h : Arranged key rows (s ++ u :: v :: t))
    (huv : key u = key v) : Arranged key rows (s ++ v :: u :: t) := by
  constructor
  · exact ((List.Perm.swap u v t).append_left s).trans h.perm
  · have hsorted := h.sorted
    simp only [List.pairwise_append, List.pairwise_cons, List.mem_cons, forall_eq_or_imp] at hsorted ⊢
    obtain ⟨hs, ⟨⟨-, hut⟩, hvt, ht⟩, hst⟩ := hsorted
    exact ⟨hs, ⟨⟨huv.ge, hvt⟩, hut, ht⟩, fun a ha => ⟨(hst a ha).2.1, (hst a ha).1, (hst a ha).2.2⟩⟩

/-- The last row of one page, and the first of the next when the answers disagree. -/
theorem mem_pages {s t : List α} {u v : α} {size k : Nat} (hsize : 0 < size)
    (hs : s.length + 1 = (k + 1) * size) :
    u ∈ page size k (s ++ u :: v :: t) ∧ u ∈ page size (k + 1) (s ++ v :: u :: t) := by
  rw [Nat.add_mul, Nat.one_mul] at hs
  constructor
  · have hat : k * size + (size - 1) = s.length := by omega
    have hlast : (page size k (s ++ u :: v :: t))[size - 1]? = some u := by
      rw [page, List.getElem?_take_of_lt (by omega), List.getElem?_drop, hat]
      simp
    exact List.mem_of_getElem? hlast
  · have hat : (k + 1) * size + 0 = s.length + 1 := by rw [Nat.add_mul]; omega
    have hfirst : (page size (k + 1) (s ++ v :: u :: t))[0]? = some u := by
      rw [page, List.getElem?_take_of_lt hsize, List.getElem?_drop, hat,
        List.getElem?_append_right (by omega)]
      simp
    exact List.mem_of_getElem? hfirst

/-- The rows up to a key are those above it and those that have it. -/
theorem upTo_eq_add (rows : List α) (x : K) :
    upTo key rows x = above key rows x + (rows.map key).count x := by
  unfold upTo above
  induction rows with
  | nil => rfl
  | cons a rows ih =>
    rw [List.map_cons, List.countP_cons, List.countP_cons, List.count_cons, ih]
    rcases lt_trichotomy (key a) x with hlt | heq | hgt
    · simp [hlt, hlt.le, hlt.ne]
      omega
    · simp [heq]
      omega
    · simp [hgt.not_gt, hgt.not_ge, hgt.ne']

theorem not_cut_of_nodup (h : (rows.map key).Nodup) (b : Nat) : ¬ Cut key rows b := by
  rintro ⟨r, -, habove, hupTo⟩
  have hcount := List.nodup_iff_count_le_one.1 h (key r)
  rw [upTo_eq_add] at hupTo
  omega

/-! ## All the pages -/

/-- A possible answer for one page. -/
def PageAnswer (key : α → K) (rows : List α) (size k : Nat) (items : List α) : Prop :=
  ∃ l, Arranged key rows l ∧ items = page size k l

theorem Cut.lt_length {b : Nat} (h : Cut key rows b) : 0 < b ∧ b < rows.length := by
  obtain ⟨r, -, habove, hupTo⟩ := h
  exact ⟨by omega, lt_of_lt_of_le hupTo List.countP_le_length⟩

/-- Behind a boundary that cuts a group, a page can repeat a row of the page before. -/
theorem Cut.overlap {size k : Nat} (hcut : Cut key rows ((k + 1) * size)) (hsize : 0 < size) :
    ∃ pages : Nat → List α, (∀ j, PageAnswer key rows size j (pages j)) ∧
      ¬ List.Disjoint (pages k) (pages (k + 1)) := by
  obtain ⟨l, hl⟩ := Arranged.exists key rows
  obtain ⟨s, u, v, t, rfl, hs, huv⟩ := hl.tie hcut
  refine ⟨fun j => page size j (if j = k + 1 then s ++ v :: u :: t else s ++ u :: v :: t), ?_, ?_⟩
  · intro j
    refine ⟨_, ?_, rfl⟩
    split
    · exact hl.swap huv
    · exact hl
  · intro hdisj
    obtain ⟨hmem, hmem'⟩ := mem_pages (u := u) (v := v) (t := t) hsize hs
    refine hdisj (a := u) ?_ ?_
    · simpa using hmem
    · simpa using hmem'

theorem disjoint_of_nodup_flatMap {f : Nat → List α} {n k : Nat}
    (h : ((List.range n).flatMap f).Nodup) (hk : k + 1 < n) :
    List.Disjoint (f k) (f (k + 1)) := by
  have hpair := List.pairwise_iff_getElem.1 (List.nodup_flatMap.1 h).2
  have hdisj := hpair k (k + 1) (by simp; omega) (by simpa using hk) (by omega)
  rwa [List.getElem_range, List.getElem_range] at hdisj

theorem pages_perm_iff (hrows : rows.Nodup) {size : Nat} (hsize : 0 < size) :
    (∀ pages : Nat → List α, (∀ k, PageAnswer key rows size k (pages k)) →
      ((List.range (pageCount size rows.length)).flatMap pages).Perm rows) ↔
    ∀ k, ¬ Cut key rows (k * size) := by
  constructor
  · intro h k hcut
    obtain ⟨hpos, hlt⟩ := hcut.lt_length
    cases k with
    | zero => omega
    | succ k =>
      obtain ⟨pages, hpages, hoverlap⟩ := hcut.overlap hsize
      have hnodup := (h pages hpages).nodup_iff.2 hrows
      exact hoverlap (disjoint_of_nodup_flatMap hnodup (lt_pageCount hsize hlt))
  · intro hcut pages hpages
    obtain ⟨l, hl⟩ := Arranged.exists key rows
    have hpage : ∀ k ∈ List.range (pageCount size rows.length), (pages k).Perm (page size k l) := by
      intro k _
      obtain ⟨l', hl', hk⟩ := hpages k
      rw [hk]
      exact hl'.page_perm hl (hcut k) (hcut (k + 1))
    have hall := List.Perm.flatMap_left _ hpage
    rw [flatMap_page, List.take_of_length_le] at hall
    · exact hall.trans hl.perm
    · rw [hl.perm.length_eq]
      exact le_pageCount_mul hsize _

end Machine
end TrShared
