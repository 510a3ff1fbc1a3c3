import TrShared.Machine.Ledger
import TrShared.Python.JsonRoundTrip

/-!
# TrShared.Monitoring.LokiHandler

`LokiHandler` (`monitoring/loki_handler.py`). `emit` appends a record under the lock and looks at the
length of the buffer after it has let go of it; `_flush` takes the whole buffer under the lock and
posts it after that. Between any two of these steps any other thread runs: further `emit`s, the
periodic flush, `close`. A record logged while a batch is being posted (the HTTP client logs too) is
one more `emit`.

Calls carry no data but the batch they post, so a state counts those that are about to look at the
length and those that are about to take the buffer.

* `records_pushed_once`: whatever the order of the steps, the batches taken so far and the buffer are
  the records in the order they were appended, and every batch is being posted or was posted once.
* `buffer_bounded`: the buffer outgrows the batch size by no more than the calls of `emit` in flight.
* `streams_partition`: a payload has one stream for each set of labels, with exactly the lines that
  carry it, in their order.
-/

namespace TrShared
namespace Monitoring
namespace Loki

open Machine Python

abbrev Labels := List (String × String)

/-- An element of `self._buffer`: `(ts_ns, labels, log_entry)`. -/
structure Entry where
  tsNs : String
  labels : Labels
  line : String
  deriving DecidableEq, Repr

/-- A value of the dict `streams`. -/
structure Stream where
  stream : Labels
  values : List (String × String)
  deriving DecidableEq, Repr

/-- What `emit` reads off a record: `record.created` in nanoseconds, `record.levelname.lower()` and the
line of `_format_record`. -/
structure Record where
  tsNs : String
  level : String
  line : String
  deriving DecidableEq, Repr

structure Config where
  staticLabels : Labels
  batchSize : Nat

/-- `{**self.static_labels, "level": record.levelname.lower()}`, in an entry. -/
def Config.entry (c : Config) (r : Record) : Entry :=
  ⟨r.tsNs, setItem c.staticLabels "level" r.level, r.line⟩

/-- `json.dumps(labels, sort_keys=True)`. -/
def labelKey (f : Floats) (labels : Labels) : String :=
  dumps f (.obj ((sortEntries labels).map (fun p => (p.1, .str p.2))))

/-- The body of the loop of `_flush`. -/
def addEntry (f : Floats) (streams : List (String × Stream)) (e : Entry) : List (String × Stream) :=
  let s := getD streams (labelKey f e.labels) ⟨e.labels, []⟩
  setItem streams (labelKey f e.labels) { s with values := s.values ++ [(e.tsNs, e.line)] }

def streamsOf (f : Floats) (entries : List Entry) : List (String × Stream) :=
  entries.foldl (addEntry f) []

/-- `list(streams.values())`. -/
def payload (f : Floats) (entries : List Entry) : List Stream := (streamsOf f entries).map Prod.snd

structure State where
  buffer : List Entry := []
  /-- Calls of `emit` that have appended and not yet looked at the length. -/
  checking : Nat := 0
  /-- Calls of `emit` that wait for the lock in `_flush`. -/
  flushing : Nat := 0
  /-- Calls of `_flush` by the periodic thread and by `close` that wait for the lock. -/
  sweeping : Nat := 0
  /-- The batches that are being posted. -/
  posting : List (List Entry) := []
  /-- The batches whose post has ended, and whether Loki took them. -/
  posted : List (List Entry × Bool) := []

inductive Act where
  | emit (r : Record)
  | check
  /-- The periodic thread wakes up, or `close` is called. -/
  | flush
  /-- A call of `emit` has the lock. -/
  | take
  /-- The periodic thread has the lock, or a call of `close`. -/
  | sweep
  | post (i : Nat) (accepted : Bool)
  deriving DecidableEq, Repr

/-- `_flush` under the lock. -/
def State.flushed (s : State) : State :=
  if s.buffer = [] then s else { s with buffer := [], posting := s.posting ++ [s.buffer] }

def step (c : Config) (s : State) : Act → Option State
  | .emit r => some { s with buffer := s.buffer ++ [c.entry r], checking := s.checking + 1 }
  | .check =>
    match s.checking with
    | 0 => none
    | n + 1 =>
      if c.batchSize ≤ s.buffer.length then
        some { s with checking := n, flushing := s.flushing + 1 }
      else some { s with checking := n }
  | .flush => some { s with sweeping := s.sweeping + 1 }
  | .take =>
    match s.flushing with
    | 0 => none
    | n + 1 => some { s with flushing := n }.flushed
  | .sweep =>
    match s.sweeping with
    | 0 => none
    | n + 1 => some { s with sweeping := n }.flushed
  | .post i accepted =>
    match s.posting[i]? with
    | none => none
    | some batch =>
      some { s with posting := s.posting.eraseIdx i, posted := s.posted ++ [(batch, accepted)] }

/-- The entries that a run appends, in order. -/
def emitted (c : Config) (as : List Act) : List Entry :=
  as.filterMap (fun | .emit r => some (c.entry r) | _ => none)

def anyAct (_ : State) (_ : Act) : Prop := True

/-- Two records of two threads, one batch. -/
def demoConfig : Config := ⟨[("service", "crm")], 2⟩

def infoRecord : Record := ⟨"1", "info", "one"⟩

def errorRecord : Record := ⟨"2", "error", "two"⟩

/-- The first thread looks at the length when both records are there, and a third comes in while the
batch is being posted. -/
def demoRun : List Act :=
  [.emit infoRecord, .flush, .emit errorRecord, .check, .take, .check, .sweep, .emit infoRecord, .post 0 false]

def demoEnd : State :=
  { buffer := [demoConfig.entry infoRecord], checking := 1
    posted := [([demoConfig.entry infoRecord, demoConfig.entry errorRecord], false)] }

theorem demo_run : Run (step demoConfig) anyAct {} demoRun demoEnd :=
  .of_exec_all (fun _ _ _ => trivial) rfl

/-! ## Records -/

/-- `batches` were taken one after the other; each of them is posted once at most. -/
structure Taken (s : State) (batches : List (List Entry)) (entries : List Entry) : Prop where
  order : batches.flatten ++ s.buffer = entries
  once : (s.posting ++ s.posted.map Prod.fst).Perm batches
  nonempty : ∀ b ∈ batches, b ≠ []

theorem Taken.flushed {s : State} {batches : List (List Entry)} {entries : List Entry}
    (h : Taken s batches entries) : ∃ batches', Taken s.flushed batches' entries := by
  rw [State.flushed]
  split
  · exact ⟨batches, h⟩
  · rename_i hne
    refine ⟨batches ++ [s.buffer], ?_, ?_, ?_⟩
    · simpa using h.order
    · have hp : (s.posting ++ ([s.buffer] ++ s.posted.map Prod.fst)).Perm
          (s.posting ++ (s.posted.map Prod.fst ++ [s.buffer])) :=
        List.Perm.append_left _ List.perm_append_comm
      rw [List.append_assoc]
      exact hp.trans (by rw [← List.append_assoc]; exact h.once.append_right _)
    · intro b hb
      rcases List.mem_append.1 hb with hb | hb
      · exact h.nonempty b hb
      · cases List.mem_singleton.1 hb
        exact hne

theorem step_taken {c : Config} {s s' : State} {a : Act} {batches : List (List Entry)}
    {entries : List Entry} (h : Taken s batches entries) (hs : step c s a = some s') :
    ∃ batches', Taken s' batches' (entries ++ emitted c [a]) := by
  cases a with
  | emit r =>
    cases hs
    exact ⟨batches, by rw [← h.order]; simp [emitted], h.once, h.nonempty⟩
  | check =>
    have hn : entries ++ emitted c [.check] = entries := List.append_nil _
    simp only [step] at hs
    rw [hn]
    split at hs
    · cases hs
    · split at hs <;> cases hs <;> exact ⟨batches, h.order, h.once, h.nonempty⟩
  | flush =>
    cases hs
    exact ⟨batches, by simpa [emitted] using h.order, h.once, h.nonempty⟩
  | take =>
    have hn : entries ++ emitted c [.take] = entries := List.append_nil _
    simp only [step] at hs
    rw [hn]
    split at hs
    · cases hs
    · rename_i n _
      cases hs
      have h' : Taken { s with flushing := n } batches entries := ⟨h.order, h.once, h.nonempty⟩
      exact h'.flushed
  | sweep =>
    have hn : entries ++ emitted c [.sweep] = entries := List.append_nil _
    simp only [step] at hs
    rw [hn]
    split at hs
    · cases hs
    · rename_i n _
      cases hs
      have h' : Taken { s with sweeping := n } batches entries := ⟨h.order, h.once, h.nonempty⟩
      exact h'.flushed
  | post i accepted =>
    simp only [step] at hs
    split at hs
    · cases hs
    · rename_i batch hi
      cases hs
      refine ⟨batches, by simpa [emitted] using h.order, ?_, h.nonempty⟩
      have hp := (Ledger.perm_eraseIdx hi).append_right (s.posted.map Prod.fst)
      refine List.Perm.trans ?_ (hp.trans h.once)
      rw [List.map_append, ← List.append_assoc]
      exact List.perm_append_comm

theorem emitted_append (c : Config) (as bs : List Act) :
    emitted c (as ++ bs) = emitted c as ++ emitted c bs := List.filterMap_append ..

theorem run_taken {c : Config} {as : List Act} {s : State} (h : Run (step c) anyAct {} as s) :
    ∃ batches, Taken s batches (emitted c as) := by
  refine h.along (I := fun as s => ∃ batches, Taken s batches (emitted c as)) ?_
    ⟨[], rfl, .refl _, by simp⟩
  rintro bs s a s' _ ⟨batches, ht⟩ _ hs
  rw [emitted_append]
  exact step_taken ht hs

/-- Every record appended so far is in exactly one place: in the buffer, in a batch that is being
posted, or in a batch that was posted once; and no step reorders them. -/
theorem records_pushed_once {c : Config} {as : List Act} {s : State}
    (h : Run (step c) anyAct {} as s) :
    ∃ batches : List (List Entry), batches.flatten ++ s.buffer = emitted c as ∧
      (s.posting ++ s.posted.map Prod.fst).Perm batches ∧ ∀ b ∈ batches, b ≠ [] :=
  have ⟨batches, ht⟩ := run_taken h
  ⟨batches, ht.order, ht.once, ht.nonempty⟩

theorem records_pushed_once_demo :
    ∃ batches : List (List Entry), batches.flatten ++ demoEnd.buffer = emitted demoConfig demoRun ∧
      (demoEnd.posting ++ demoEnd.posted.map Prod.fst).Perm batches ∧ ∀ b ∈ batches, b ≠ [] :=
  records_pushed_once demo_run

/-! ## The buffer -/

/-- `_flush` leaves nothing. -/
theorem flushed_bounded {n : Nat} (hn : 0 < n) {s : State} :
    s.flushed.buffer.length < n + s.flushed.checking + s.flushed.flushing := by
  have hempty : s.flushed.buffer = [] := by
    rw [State.flushed]
    split
    · assumption
    · rfl
  rw [hempty, List.length_nil]
  omega

theorem step_bounded {c : Config} (hc : 0 < c.batchSize) {s s' : State} {a : Act}
    (h : s.buffer.length < c.batchSize + s.checking + s.flushing) (hs : step c s a = some s') :
    s'.buffer.length < c.batchSize + s'.checking + s'.flushing := by
  cases a with
  | emit r =>
    cases hs
    simp only [List.length_append, List.length_singleton]
    omega
  | check =>
    simp only [step] at hs
    split at hs
    · cases hs
    · rename_i n hn
      split at hs <;> cases hs <;> simp only <;> omega
  | flush =>
    cases hs
    simp only
    omega
  | take =>
    simp only [step] at hs
    split at hs <;> cases hs
    exact flushed_bounded hc
  | sweep =>
    simp only [step] at hs
    split at hs <;> cases hs
    exact flushed_bounded hc
  | post i accepted =>
    simp only [step] at hs
    split at hs <;> cases hs
    exact h

/-- The buffer holds less than a batch, plus one record for every call of `emit` between its `append` and its
turn at the lock. -/
theorem buffer_bounded {c : Config} (hc : 0 < c.batchSize) {as : List Act} {s : State}
    (h : Run (step c) anyAct {} as s) :
    s.buffer.length < c.batchSize + s.checking + s.flushing :=
  h.invariant (fun _ _ _ hi _ hs => step_bounded hc hi hs) (by simpa using hc)

theorem buffer_bounded_demo : demoEnd.buffer.length < 2 + 1 + 0 :=
  buffer_bounded (by decide) demo_run

/-! ## Streams -/

variable {f : Floats}

def Entry.value (e : Entry) : String × String := (e.tsNs, e.line)

/-- The entries with a label key, in order. -/
def group (f : Floats) (key : String) (entries : List Entry) : List Entry :=
  entries.filter (fun e => labelKey f e.labels == key)

theorem group_concat (key : String) (entries : List Entry) (e : Entry) :
    group f key (entries ++ [e]) =
      if labelKey f e.labels = key then group f key entries ++ [e] else group f key entries := by
  by_cases h : labelKey f e.labels = key
  · simp [group, h]
  · simp [group, h]

/-- The stream of a key: the labels of its first entry, and the lines of all of them. -/
def streamOf : List Entry → Option Stream
  | [] => none
  | e :: rest => some ⟨e.labels, (e :: rest).map Entry.value⟩

theorem streamsOf_lookup (entries : List Entry) (key : String) :
    (streamsOf f entries).lookup key = streamOf (group f key entries) := by
  induction entries using List.reverseRecOn with
  | nil => rfl
  | append_singleton entries e ih =>
    have hstep : streamsOf f (entries ++ [e]) = addEntry f (streamsOf f entries) e := by
      simp [streamsOf]
    rw [hstep, group_concat, addEntry, lookup_setItem]
    by_cases hk : labelKey f e.labels = key
    · subst hk
      rw [if_pos rfl, if_pos rfl, getD, ih]
      cases group f (labelKey f e.labels) entries with
      | nil => rfl
      | cons e₁ rest => simp [streamOf, Entry.value]
    · rw [if_neg (fun h => hk h.symm), if_neg hk, ih]

theorem streamsOf_nodup (entries : List Entry) : ((streamsOf f entries).map Prod.fst).Nodup := by
  induction entries using List.reverseRecOn with
  | nil => exact List.nodup_nil
  | append_singleton entries e ih =>
    have hstep : streamsOf f (entries ++ [e]) = addEntry f (streamsOf f entries) e := by
      simp [streamsOf]
    rw [hstep]
    exact keys_setItem_nodup ih _ _

/-- Two label sets have one key exactly when they are the same dict. -/
theorem labelKey_eq_iff {a b : Labels} (ha : (a.map Prod.fst).Nodup) (hb : (b.map Prod.fst).Nodup) :
    labelKey f a = labelKey f b ↔ a.Perm b := by
  refine ⟨sortEntries_unique f ha hb, fun h => ?_⟩
  have hsort : sortEntries a = sortEntries b := sortEntries_congr ha h
  rw [labelKey, labelKey, hsort]

/-- Every entry carries a dict. -/
def Labelled (entries : List Entry) : Prop := ∀ e ∈ entries, (e.labels.map Prod.fst).Nodup

theorem mem_payload {entries : List Entry} {s : Stream} :
    s ∈ payload f entries ↔ ∃ key, streamOf (group f key entries) = some s := by
  simp only [payload, List.mem_map, Prod.exists, exists_eq_right]
  refine exists_congr (fun key => ?_)
  rw [← lookup_eq_some_iff_mem (streamsOf_nodup entries), streamsOf_lookup]

theorem group_eq {entries : List Entry} (hl : Labelled entries) {e : Entry} (he : e ∈ entries) :
    group f (labelKey f e.labels) entries =
      entries.filter (fun e' => decide (e'.labels.Perm e.labels)) := by
  refine List.filter_congr (fun e' he' => ?_)
  rw [Bool.eq_iff_iff, beq_iff_eq, decide_eq_true_iff]
  exact labelKey_eq_iff (hl e' he') (hl e he)

/-- The first entry of a stream gives it its labels. -/
theorem streamOf_group {entries : List Entry} {key : String} {s : Stream}
    (h : streamOf (group f key entries) = some s) :
    ∃ e ∈ entries, labelKey f e.labels = key ∧ s.stream = e.labels := by
  cases hg : group f key entries with
  | nil =>
    rw [hg] at h
    cases h
  | cons e rest =>
    rw [hg] at h
    cases h
    have he : e ∈ group f key entries := by simp [hg]
    obtain ⟨hmem, hkey⟩ := List.mem_filter.1 he
    exact ⟨e, hmem, by simpa using hkey, rfl⟩

/-- A payload: every line is in the stream of its own labels, with exactly the lines of the same labels
and in their order; no two streams have the same labels, and none is made up. -/
structure Partitions (entries : List Entry) (streams : List Stream) : Prop where
  lines : ∀ e ∈ entries, ∃ s ∈ streams, s.stream.Perm e.labels ∧
    s.values = (entries.filter (fun e' => decide (e'.labels.Perm e.labels))).map Entry.value
  distinct : streams.Pairwise (fun s t => ¬ s.stream.Perm t.stream)
  labels : ∀ s ∈ streams, ∃ e ∈ entries, s.stream = e.labels

theorem payload_partitions {entries : List Entry} (hl : Labelled entries) :
    Partitions entries (payload f entries) where
  lines e he := by
    have hmem : e ∈ group f (labelKey f e.labels) entries := List.mem_filter.2 ⟨he, by simp⟩
    cases hg : group f (labelKey f e.labels) entries with
    | nil =>
      rw [hg] at hmem
      cases hmem
    | cons e₁ rest =>
      have hs : streamOf (group f (labelKey f e.labels) entries) =
          some ⟨e₁.labels, (e₁ :: rest).map Entry.value⟩ := by rw [hg]; rfl
      have he₁ : e₁ ∈ group f (labelKey f e.labels) entries := by simp [hg]
      obtain ⟨hin, hkey⟩ := List.mem_filter.1 he₁
      refine ⟨_, mem_payload.2 ⟨_, hs⟩, ?_, ?_⟩
      · exact (labelKey_eq_iff (hl e₁ hin) (hl e he)).1 (by simpa using hkey)
      · rw [← group_eq (f := f) hl he, hg]
  distinct := by
    rw [payload, List.pairwise_map]
    refine (List.pairwise_map.1 (streamsOf_nodup entries)).imp_of_mem ?_
    intro p q hp hq hne hperm
    have hp' := streamsOf_lookup (f := f) entries p.1
    have hq' := streamsOf_lookup (f := f) entries q.1
    rw [(lookup_eq_some_iff_mem (streamsOf_nodup entries)).2 hp] at hp'
    rw [(lookup_eq_some_iff_mem (streamsOf_nodup entries)).2 hq] at hq'
    obtain ⟨e, he, hkey, hlab⟩ := streamOf_group hp'.symm
    obtain ⟨e', he', hkey', hlab'⟩ := streamOf_group hq'.symm
    rw [hlab, hlab'] at hperm
    exact hne (by rw [← hkey, ← hkey', (labelKey_eq_iff (hl e he) (hl e' he')).2 hperm])
  labels s hs := by
    obtain ⟨key, hkey⟩ := mem_payload.1 hs
    obtain ⟨e, he, _, hlab⟩ := streamOf_group hkey
    exact ⟨e, he, hlab⟩

/-- What goes to Loki in any run: the payload of every batch keeps the lines of each label set together
and apart from all others. -/
theorem streams_partition {c : Config} (hc : (c.staticLabels.map Prod.fst).Nodup) {as : List Act}
    {s : State} (h : Run (step c) anyAct {} as s) :
    ∀ b ∈ s.posted, Partitions b.1 (payload f b.1) := by
  intro b hb
  obtain ⟨batches, ht⟩ := run_taken h
  refine payload_partitions (fun e he => ?_)
  have hbatch : b.1 ∈ batches :=
    ht.once.mem_iff.1 (List.mem_append_right _ (List.mem_map.2 ⟨b, hb, rfl⟩))
  have hin : e ∈ emitted c as := by
    rw [← ht.order]
    exact List.mem_append_left _ (List.mem_flatten.2 ⟨b.1, hbatch, he⟩)
  simp only [emitted, List.mem_filterMap] at hin
  obtain ⟨a, _, ha⟩ := hin
  cases a with
  | emit r =>
    cases ha
    exact keys_setItem_nodup hc _ _
  | check => cases ha
  | flush => cases ha
  | take => cases ha
  | sweep => cases ha
  | post i accepted => cases ha

theorem streams_partition_demo :
    Partitions [demoConfig.entry infoRecord, demoConfig.entry errorRecord]
      (payload noFloats [demoConfig.entry infoRecord, demoConfig.entry errorRecord]) :=
  streams_partition (by decide) demo_run _ (List.mem_singleton.2 rfl)

end Loki
end Monitoring
end TrShared
