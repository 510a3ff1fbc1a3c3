import TrShared.Events.OutboxDelivery

/-!
# TrShared.Events.OutboxExclusive

What the outbox keeps when a row is never in two batches at once.

The locking `SELECT` commits before the first row of its batch is published, so its locks do not
cover the work: a second drain can select a row that waits in the batch of the first
(`two_drains_publish_one_row`). `Undisputed` asks of a `SELECT` that none of its rows is in
another batch. Under it the batches stay disjoint (`Exclusive`), and

* `published_at_most_once`: a row is published at most once, when every publish and every statement
  succeeds;
* `Once.step` is the same for runs with failures, as long as an entry that was accepted is also
  marked (`Clean`).
-/

namespace TrShared
namespace Events
namespace Outbox

open Python Machine

variable {cfg : DrainId → DrainConfig} {lib : Stdlib}

/-- The ids of the rows a drain may still publish or write. -/
def World.holds (s : World) (d : DrainId) : List RowId := (s.drains d).phase.hold.map Snapshot.id

/-- No `SELECT` returns a row that is in the batch of a drain. -/
def Undisputed (s : World) : Act → Prop
  | .select _ picked => ∀ r ∈ picked, ∀ d, r.id ∉ s.holds d
  | _ => True

theorem apply_holds (s : World) (d : DrainId) (m : Move) :
    (s.apply d m).holds = Function.update s.holds d (m.next.hold.map Snapshot.id) := by
  funext d'
  simp only [World.holds]
  rw [apply_phase]
  by_cases h : d' = d
  · subst h; simp
  · simp [h, World.holds]

theorem begin_holds (s : World) (d : DrainId) (picked : List Row) :
    (s.begin d picked).holds = Function.update s.holds d (picked.map Row.id) := by
  funext d'
  simp only [World.holds]
  rw [begin_phase]
  by_cases h : d' = d
  · subst h
    simp only [if_true, Function.update_self, Phase.hold, List.map_map]
    rfl
  · simp [h, World.holds]

theorem exclusive_start (table : Table Row.id) (now : Int) : Exclusive (start table now).holds where
  nodup _ := by simp [World.holds, start, Phase.hold]
  disjoint _ _ _ := by simp [World.holds, start, Phase.hold]

theorem exclusive_step {s s' : World} {a : Act} (h : Exclusive s.holds) (hu : Undisputed s a)
    (hs : step cfg lib s a = some s') : Exclusive s'.holds := by
  cases step_cases hs with
  | tick dt => exact h
  | insert _ _ => exact h
  | @select d picked hready hsel =>
    rw [begin_holds]
    refine h.acquire hsel.1 ?_
    intro d' _ id hid hd'
    obtain ⟨r, hr, rfl⟩ := List.mem_map.1 hid
    exact hu r hr d' hd'
  | @drain d e m hm _ =>
    rw [apply_holds]
    exact h.release (hm.hold_sublist.map Snapshot.id)

/-! ## Published at most once -/

/-- How often a row was put on the stream. -/
def World.xadds (s : World) (id : RowId) : Nat := (s.stream.map Accepted.row).count id

theorem apply_xadds (s : World) (d : DrainId) (m : Move) (id : RowId) :
    (s.apply d m).xadds id = s.xadds id + (m.accepts.map Accepted.row).toList.count id := by
  cases h : m.accepts <;> simp [World.xadds, World.apply, h]

/-- The rows a drain will still publish. -/
def Phase.toPublish : Phase → List Snapshot
  | .selecting rows | .looping rows => rows
  | .marking _ rest | .deadLettering _ _ _ rest | .retrying _ _ _ _ rest
  | .notifying _ _ _ rest => rest
  | .ready | .returned | .raised => []

theorem toPublish_sublist (ph : Phase) : ph.toPublish.Sublist ph.hold := by
  cases ph <;> simp [Phase.toPublish, Phase.hold]

theorem onException_toPublish (c : DrainConfig) (now : Int) (row : Snapshot) (exc : String)
    (rest : List Snapshot) :
    (onException c now row exc rest).toPublish = rest ∨
      (onException c now row exc rest).toPublish = [] := by
  rcases onException_cases c now row exc rest with ⟨_, ho⟩ | ⟨_, _, _, ho⟩ | ⟨_, _, ho⟩
  · rw [ho]; exact .inl rfl
  · rw [ho]; exact .inl rfl
  · rw [ho]; exact .inr rfl

theorem Moves.toPublish_sublist {c : DrainConfig} {now : Int} {ph : Phase} {e : Event} {m : Move}
    (h : Moves c lib now ph e m) : m.next.toPublish.Sublist ph.toPublish := by
  cases h with
  | @rejected row rest | @publishLost row rest | @publishRefused row rest | @markFailed row rest =>
    simp only [failure]
    rcases onException_toPublish c now row _ rest with ho | ho <;> rw [ho] <;> simp [Phase.toPublish]
  | deadLettered | retried => simp only; split <;> simp [Phase.toPublish]
  | _ => simp [Phase.toPublish]

/-- No drain sends twice: nobody publishes a row that is on the stream, and such a row is marked
or is being marked. -/
structure Once (s : World) : Prop where
  known : Known s
  exclusive : Exclusive s.holds
  unsent : ∀ d, ∀ x ∈ (s.drains d).phase.toPublish, s.xadds x.id = 0
  settled : ∀ id, 0 < s.xadds id →
    (∃ r, s.table.find id = some r ∧ r.publishedAt ≠ none) ∨
      ∃ d row rest, (s.drains d).phase = .marking row rest ∧ row.id = id
  once : ∀ id, s.xadds id ≤ 1

/-- An entry the stream accepted is reported to the drain, and the drain marks it. -/
def Marks (s : World) : Act → Prop
  | .drain _ (.publish _ reply _) => reply ≠ .lost
  | .drain d (.update reply _) => ∀ row rest, (s.drains d).phase = .marking row rest → reply = .ok
  | .drain d .crash => ∀ row rest, (s.drains d).phase ≠ .marking row rest
  | _ => True

def Clean (s : World) (a : Act) : Prop := Undisputed s a ∧ Marks s a

theorem Once.start (table : Table Row.id) (now : Int) : Once (start table now) where
  known := .start table now
  exclusive := exclusive_start table now
  unsent := by intro d x hx; cases hx
  settled := by intro id hid; simp [World.xadds, Outbox.start] at hid
  once := by intro id; simp [World.xadds, Outbox.start]

theorem Once.select {s : World} (h : Once s) {d : DrainId} {limit : Nat} {picked : List Row}
    (hready : (s.drains d).phase = .ready) (hsel : Selects s limit picked)
    (hknown : Known (s.begin d picked)) (hexcl : Exclusive (s.begin d picked).holds)
    (hu : ∀ r ∈ picked, ∀ d, r.id ∉ s.holds d) : Once (s.begin d picked) where
  known := hknown
  exclusive := hexcl
  unsent := by
    intro d' x hx
    rw [begin_phase] at hx
    split at hx
    · -- a selected row is unmarked and in no batch, so it was never sent
      obtain ⟨r, hr, rfl⟩ := List.mem_map.1 hx
      obtain ⟨hfind, hdue⟩ := hsel.find hr
      by_contra hne
      rcases h.settled r.id (Nat.pos_of_ne_zero hne) with ⟨r', hr', hpub⟩ | ⟨d1, row, rest, hm, hid⟩
      · rw [hfind] at hr'
        cases hr'
        simp only [Row.due, Bool.and_eq_true, Option.isNone_iff_eq_none] at hdue
        exact hpub hdue.1.1
      · refine hu r hr d1 ?_
        simp [World.holds, hm, Phase.hold, hid]
    · exact h.unsent d' x hx
  settled := by
    intro id hid
    rcases h.settled id hid with hpub | ⟨d1, row, rest, hm, hrow⟩
    · exact .inl hpub
    · refine .inr ⟨d1, row, rest, ?_, hrow⟩
      rw [begin_phase, if_neg, hm]
      rintro rfl
      rw [hready] at hm
      cases hm
  once := h.once

/-- A row that is on the stream stays marked, or in the marking drain, through a clean move. -/
theorem Once.settled_apply {s : World} (h : Once s) {d : DrainId} {e : Event} {m : Move}
    (hm : Moves (cfg d) lib s.now (s.drains d).phase e m) (hmarks : Marks s (.drain d e))
    {id : RowId} (hid : 0 < s.xadds id) :
    (∃ r, (s.apply d m).table.find id = some r ∧ r.publishedAt ≠ none) ∨
      ∃ d' row rest, ((s.apply d m).drains d').phase = .marking row rest ∧ row.id = id := by
  rcases h.settled id hid with ⟨r, hr, hpub⟩ | ⟨d1, row, rest, hph, hrow⟩
  · left
    rw [apply_find, hr]
    cases m.writes with
    | none => exact ⟨r, rfl, hpub⟩
    | some p =>
      simp only
      split
      · refine ⟨_, rfl, ?_⟩
        cases p.2 <;> simp_all [Write.apply]
      · exact ⟨r, rfl, hpub⟩
  · by_cases hd : d1 = d
    · subst hd
      left
      rw [hph] at hm
      cases hm with
      | marked =>
        obtain ⟨r, hr, _⟩ := h.known d1 row (by rw [hph]; simp [Phase.hold])
        subst hrow
        exact ⟨{ r with publishedAt := some s.now }, by simp [apply_find, hr, Write.apply], by simp⟩
      | markFailed hne => exact absurd (hmarks row rest hph) hne
      | crash => exact absurd hph (hmarks row rest)
    · right
      refine ⟨d1, row, rest, ?_, hrow⟩
      rw [apply_phase, if_neg hd, hph]

/-- A row that is still to be published after a move was so before it. -/
theorem Moves.toPublish_before {s : World} {d d' : DrainId} {e : Event} {m : Move} {x : Snapshot}
    (hm : Moves (cfg d) lib s.now (s.drains d).phase e m)
    (hx : x ∈ ((s.apply d m).drains d').phase.toPublish) :
    ∃ d₀, x ∈ (s.drains d₀).phase.toPublish := by
  rw [apply_phase] at hx
  split at hx
  · exact ⟨d, hm.toPublish_sublist.subset hx⟩
  · exact ⟨d', hx⟩

theorem Once.drain {s : World} (h : Once s) {d : DrainId} {e : Event} {m : Move}
    (hm : Moves (cfg d) lib s.now (s.drains d).phase e m) (hmarks : Marks s (.drain d e))
    (hknown : Known (s.apply d m)) (hexcl : Exclusive (s.apply d m).holds) : Once (s.apply d m) := by
  have hsettled := fun id => @settled_apply cfg lib s h d e m hm hmarks id
  cases hacc : m.accepts with
  | none =>
    have hx : ∀ id, (s.apply d m).xadds id = s.xadds id := by
      intro id; simp [apply_xadds, hacc]
    refine ⟨hknown, hexcl, ?_, ?_, ?_⟩
    · intro d' x hx'
      obtain ⟨d₀, hd₀⟩ := hm.toPublish_before hx'
      rw [hx]
      exact h.unsent d₀ x hd₀
    · intro id hid
      rw [hx] at hid
      exact hsettled id hid
    · intro id; rw [hx]; exact h.once id
  | some a =>
    obtain ⟨row, rest, args, eventId, hph, hrow, _, _, _, hcase⟩ := hm.accepts hacc
    obtain ⟨exc, rfl, hnext⟩ | ⟨exc, rfl, _⟩ := hcase
    · have h0 : s.xadds row.id = 0 := h.unsent d row (by rw [hph]; simp [Phase.toPublish])
      have hx : ∀ id, (s.apply d m).xadds id = s.xadds id + if row.id = id then 1 else 0 := by
        intro id
        rw [apply_xadds, hacc]
        simp [hrow, List.count_singleton]
      refine ⟨hknown, hexcl, ?_, ?_, ?_⟩
      · intro d' x hx'
        have hne : row.id ≠ x.id := by
          intro he
          have hmem : x.id ∈ (s.apply d m).holds d' :=
            List.mem_map_of_mem ((Outbox.toPublish_sublist _).subset hx')
          have hself : x.id ∈ (s.apply d m).holds d := by
            rw [apply_holds]; simp [hnext, Phase.hold, he]
          have hd' : d' = d := hexcl.owner_unique hmem hself
          subst hd'
          have hn := hexcl.nodup d'
          rw [apply_holds] at hn
          simp only [Function.update_self, hnext, Phase.hold, List.map_cons, List.nodup_cons] at hn
          rw [apply_phase, if_pos rfl, hnext] at hx'
          exact hn.1 (he ▸ List.mem_map_of_mem hx')
        obtain ⟨d₀, hd₀⟩ := hm.toPublish_before hx'
        rw [hx, if_neg hne]
        exact h.unsent d₀ x hd₀
      · intro id hid
        by_cases he : row.id = id
        · exact .inr ⟨d, row, rest, by rw [apply_phase, if_pos rfl, hnext], he⟩
        · rw [hx, if_neg he] at hid
          exact hsettled id hid
      · intro id
        rw [hx]
        split
        · rename_i he
          simp only [← he, h0, Nat.zero_add, Nat.le_refl]
        · exact h.once id
    · exact absurd rfl hmarks

theorem Once.step {s s' : World} {a : Act} (h : Once s) (hc : Clean s a)
    (hs : Outbox.step cfg lib s a = some s') : Once s' := by
  have hknown := h.known.step hs
  have hexcl := exclusive_step h.exclusive hc.1 hs
  cases step_cases hs with
  | tick dt => exact ⟨hknown, hexcl, h.unsent, h.settled, h.once⟩
  | insert hrow hnew =>
    refine ⟨hknown, hexcl, h.unsent, ?_, h.once⟩
    intro id hid
    rcases h.settled id hid with ⟨r, hr, hpub⟩ | hmark
    · exact .inl ⟨r, Table.find_insert_of_find hnew hr, hpub⟩
    · exact .inr hmark
  | select hready hsel => exact h.select hready hsel hknown hexcl hc.1
  | drain hm _ => exact h.drain hm hc.2 hknown hexcl

/-- Every publish and every statement succeeds, and no drain crashes. -/
def AllSucceed : Act → Prop
  | .drain _ (.publish _ reply _) | .drain _ (.update reply _) => reply = .ok
  | .drain _ .crash => False
  | _ => True

theorem AllSucceed.marks {s : World} {a : Act} (h : AllSucceed a) : Marks s a := by
  cases a with
  | drain d e =>
    cases e with
    | publish eventId reply exc => rintro rfl; cases h
    | update reply exc => intro _ _ _; exact h
    | crash => cases h
    | _ => trivial
  | _ => trivial

theorem published_at_most_once (cfg : DrainId → DrainConfig) (lib : Stdlib)
    (table : Table Row.id) (now : Int) (as : List Act) (s : World)
    (h : Run (step cfg lib) (fun s a => AllSucceed a ∧ Undisputed s a) (start table now) as s) :
    ∀ id, s.xadds id ≤ 1 := by
  have hi : Once s := h.invariant
    (fun _ _ _ hi ho hs => hi.step ⟨ho.2, ho.1.marks⟩ hs) (Once.start table now)
  exact hi.once

/-! A second drain works on a row of its own in between. -/

def demoNext : Row := { demoRow with id := "next" }

def demoRows : Table Row.id := ⟨[demoRow, demoNext], by decide⟩

theorem demoRows_pending : Pending demoRows := by
  intro r hr
  simp only [demoRows, List.mem_cons, List.not_mem_nil, or_false] at hr
  rcases hr with rfl | rfl <;> exact ⟨rfl, rfl⟩

def oneRowConfig (maxRetries : Int) (d : DrainId) : DrainConfig :=
  { demoConfig maxRetries d with batchSize := 1 }

def sideBySide : List Act :=
  [.select 0 [demoRow], .select 1 [demoNext], .drain 0 .committed, .drain 1 .committed,
    .drain 1 (.publish "e2" .ok ""), .drain 0 (.publish "e1" .ok ""), .drain 1 (.update .ok ""),
    .drain 0 (.update .ok "")]

instance (a : Act) : Decidable (AllSucceed a) :=
  match a with
  | .drain _ (.publish _ reply _) => inferInstanceAs (Decidable (reply = .ok))
  | .drain _ (.update reply _) => inferInstanceAs (Decidable (reply = .ok))
  | .drain _ .crash => .isFalse (fun h => h)
  | .drain _ .committed | .drain _ .notified | .drain _ .finish => .isTrue trivial
  | .tick _ | .insert _ _ _ _ | .select _ _ => .isTrue trivial

/-- Decides `Undisputed` when only the first `n` drains are used. -/
def undisputedCheck (n : Nat) (s : World) : Act → Bool
  | .select d picked => decide (d < n) &&
      picked.all (fun r => (List.range n).all (fun d => decide (r.id ∉ s.holds d)))
  | .drain d _ => decide (d < n)
  | _ => true

/-- The other drains have done nothing. -/
def Unused (n : Nat) (s : World) : Prop := ∀ d, n ≤ d → s.drains d = {}

theorem Unused.step {n : Nat} {s s' : World} {a : Act} (h : Unused n s)
    (hc : undisputedCheck n s a = true) (hs : Outbox.step cfg lib s a = some s') : Unused n s' := by
  intro d hd
  cases step_cases hs with
  | tick dt => exact h d hd
  | insert hrow hnew => exact h d hd
  | @select d' picked hready hsel =>
    simp only [undisputedCheck, Bool.and_eq_true, decide_eq_true_eq] at hc
    have hne : d ≠ d' := Nat.ne_of_gt (Nat.lt_of_lt_of_le hc.1 hd)
    simpa [World.begin, hne] using h d hd
  | @drain d' e m hm _ =>
    have hne : d ≠ d' := Nat.ne_of_gt (Nat.lt_of_lt_of_le (of_decide_eq_true hc) hd)
    exact (apply_drain_of_ne s hne m).trans (h d hd)

theorem undisputed_of_check {n : Nat} {s : World} {a : Act} (h : Unused n s)
    (hc : undisputedCheck n s a = true) : Undisputed s a := by
  cases a with
  | tick dt => trivial
  | insert args asText inTransaction id => trivial
  | drain d e => trivial
  | select d picked =>
    simp only [undisputedCheck, Bool.and_eq_true, decide_eq_true_eq, List.all_eq_true,
      List.mem_range] at hc
    intro r hr d'
    by_cases hd : d' < n
    · exact hc.2 r hr d' hd
    · rw [World.holds, h d' (Nat.le_of_not_lt hd)]
      simp [Phase.hold]

theorem two_drains_publish_two_rows :
    ∃ s, Run (step (oneRowConfig 10) demoLib) (fun s a => AllSucceed a ∧ Undisputed s a)
        (start demoRows 0) sideBySide s ∧
      s.stream.map Accepted.row = ["next", "row"] ∧ ∀ id, s.xadds id ≤ 1 := by
  obtain ⟨s, hs, hp⟩ := exec_any (p := fun s => s.stream.map Accepted.row == ["next", "row"])
    (show (exec (Run.guarded (step (oneRowConfig 10) demoLib)
      (fun s a => undisputedCheck 2 s a && decide (AllSucceed a))) (start demoRows 0) sideBySide).any _ =
        true by decide +kernel)
  have hrun : Run (step (oneRowConfig 10) demoLib) (fun s a => AllSucceed a ∧ Undisputed s a)
      (start demoRows 0) sideBySide s :=
    .of_guarded (I := Unused 2) (fun _ _ _ hi hc hs => hi.step (Bool.and_eq_true_iff.1 hc).1 hs)
      (fun _ _ hi hc => ⟨of_decide_eq_true (Bool.and_eq_true_iff.1 hc).2,
        undisputed_of_check hi (Bool.and_eq_true_iff.1 hc).1⟩)
      (fun _ _ => rfl) hs
  exact ⟨s, hrun, by simpa using hp, published_at_most_once _ _ _ _ _ _ hrun⟩

/-- Two drains select the row one after the other; each publishes it. -/
theorem two_drains_publish_one_row :
    ∃ s, Run (step (demoConfig 10) demoLib) (fun _ a => AllSucceed a) (start demoTable 0)
        [.select 0 [demoRow], .drain 0 .committed, .select 1 [demoRow], .drain 1 .committed,
          .drain 0 (.publish "e1" .ok ""), .drain 1 (.publish "e2" .ok "")] s ∧
      ¬ s.xadds "row" ≤ 1 := by
  obtain ⟨s, hs, hp⟩ := exec_any (p := fun s => s.xadds "row" == 2)
    (show (exec (step (demoConfig 10) demoLib) (start demoTable 0)
      [.select 0 [demoRow], .drain 0 .committed, .select 1 [demoRow], .drain 1 .committed,
        .drain 0 (.publish "e1" .ok ""), .drain 1 (.publish "e2" .ok "")]).any _ = true by decide)
  refine ⟨s, .of_exec_all ?_ hs, ?_⟩
  · intro a ha _
    simp only [List.mem_cons, List.not_mem_nil, or_false] at ha
    rcases ha with rfl | rfl | rfl | rfl | rfl | rfl <;> simp [AllSucceed]
  · simp only [beq_iff_eq] at hp
    omega

end Outbox
end Events
end TrShared
