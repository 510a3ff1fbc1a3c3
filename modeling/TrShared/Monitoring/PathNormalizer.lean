import TrShared.Python.Decimal
import TrShared.Python.Regex
import TrShared.Python.Replace

/-!
# TrShared.Monitoring.PathNormalizer

`tr_shared.monitoring.path_normalizer`: UUIDs and numbers in a path become `{id}`, by two substitutions
one after the other.

`normalize_path_join`: together they change the segments of a path one by one. A segment that starts
with a UUID keeps what follows the UUID; a segment of digits is replaced whole, and in the last segment
a newline at the end is left over, since `$` matches before it.
-/

namespace TrShared
namespace Monitoring

open Python Python.Regex

/-- `[0-9a-f]` under `re.IGNORECASE`. -/
def isHex (c : CodePoint) : Bool :=
  decide ((48 ≤ c.val ∧ c.val ≤ 57) ∨ (97 ≤ c.val ∧ c.val ≤ 102) ∨ (65 ≤ c.val ∧ c.val ≤ 70))

def isSlash (c : CodePoint) : Bool := decide (c = slash)

def isHyphen (c : CodePoint) : Bool := decide (c = hyphen)

/-- `[0-9a-f]{8}-[0-9a-f]{4}-[0-9a-f]{4}-[0-9a-f]{4}-[0-9a-f]{12}`. -/
def uuidClasses : List (CodePoint → Bool) :=
  List.replicate 8 isHex ++ isHyphen :: (List.replicate 4 isHex ++ isHyphen :: (List.replicate 4 isHex ++
    isHyphen :: (List.replicate 4 isHex ++ isHyphen :: List.replicate 12 isHex)))

/-- `_UUID_RE`. -/
def uuidRe : Pattern CodePoint := .one isSlash :: uuidClasses.map .one

/-- `(?=/|$)`. -/
def segmentEnds (_ : Option CodePoint) (s : Text) : Bool :=
  (s.head?.map isSlash).getD true || decide (s = [newline])

/-- `_NUMERIC_ID_RE`. -/
def numericIdRe : Pattern CodePoint := .one isSlash :: (plus isDecimal ++ [.assert segmentEnds])

def idText : Text := text "\x7bid\x7d"

def normalizePath (path : Text) : Text :=
  sub numericIdRe (slash :: idText) (sub uuidRe (slash :: idText) path)

example : normalizePath (text "/users/42/x") = text "/users/\x7bid\x7d/x" := by decide +kernel

/-- A text whose characters are of the classes, one by one. -/
def OfClasses (classes : List (CodePoint → Bool)) (w : Text) : Prop :=
  List.Forall₂ (fun q c => q c = true) classes w

def IsUuid (w : Text) : Prop := OfClasses uuidClasses w

def StartsWithUuid (w : Text) : Prop := ∃ u rest, w = u ++ rest ∧ IsUuid u

def IsNumber (w : Text) : Prop := w ≠ [] ∧ ∀ c ∈ w, isDecimal c = true

/-- A path by what stands before its first slash and the segments that follow a slash. -/
def joinSegments (first : Text) (segments : List Text) : Text :=
  first ++ segments.flatMap (slash :: ·)

/-- `f` at each segment, told whether the segment is the last one. -/
def mapSegments (f : Bool → Text → Text) : List Text → List Text
  | [] => []
  | w :: segments => f segments.isEmpty w :: mapSegments f segments

/-- What the first substitution makes of a segment. -/
def uuidSegment (w : Text) : Text :=
  match matchAt (uuidClasses.map .one) none w with
  | some m => idText ++ m.2
  | none => w

/-- What the second substitution makes of a segment. -/
def numericSegment (last : Bool) (w : Text) : Text :=
  if w.takeWhile isDecimal ≠ [] ∧
      (w.dropWhile isDecimal = [] ∨ (last = true ∧ w.dropWhile isDecimal = [newline]))
  then idText ++ w.dropWhile isDecimal
  else w

def normalizeSegment (last : Bool) (w : Text) : Text := numericSegment last (uuidSegment w)

section Segments

theorem exists_segments (path : Text) :
    ∃ first segments, path = joinSegments first segments ∧ slash ∉ first ∧ ∀ w ∈ segments, slash ∉ w := by
  induction path with
  | nil => exact ⟨[], [], rfl, by simp, by simp⟩
  | cons c path ih =>
    obtain ⟨first, segments, rfl, hfirst, hsegments⟩ := ih
    by_cases hc : c = slash
    · refine ⟨[], first :: segments, ?_, by simp, ?_⟩
      · simp [joinSegments, hc]
      · intro w hw
        rcases List.mem_cons.mp hw with rfl | hw
        · exact hfirst
        · exact hsegments w hw
    · refine ⟨c :: first, segments, by simp [joinSegments], ?_, hsegments⟩
      rw [List.mem_cons, not_or]
      exact ⟨Ne.symm hc, hfirst⟩

theorem joinSegments_cons (first w : Text) (segments : List Text) :
    joinSegments first (w :: segments) = first ++ slash :: joinSegments w segments := by
  simp [joinSegments]

theorem joinSegments_append (first w : Text) (segments segments' : List Text) :
    joinSegments first segments ++ slash :: joinSegments w segments' =
      joinSegments first (segments ++ w :: segments') := by
  simp [joinSegments]

theorem joinSegments_inj {first first' : Text} {segments segments' : List Text}
    (hfirst : slash ∉ first) (hfirst' : slash ∉ first') (hsegments : ∀ w ∈ segments, slash ∉ w)
    (hsegments' : ∀ w ∈ segments', slash ∉ w)
    (h : joinSegments first segments = joinSegments first' segments') :
    first = first' ∧ segments = segments' := by
  have hp := congrArg (partition slash) h
  induction segments generalizing first first' segments' with
  | nil =>
    cases segments' with
    | nil => exact ⟨by simpa [joinSegments] using h, rfl⟩
    | cons w' segments' =>
      refine absurd ?_ hfirst
      rw [show first = _ by simpa [joinSegments] using h]
      simp
  | cons w segments ih =>
    cases segments' with
    | nil =>
      refine absurd ?_ hfirst'
      rw [show first' = _ by simpa [joinSegments] using h.symm]
      simp
    | cons w' segments' =>
      rw [joinSegments_cons, joinSegments_cons, partition_append hfirst, partition_append hfirst',
        Prod.mk.injEq] at hp
      obtain ⟨hw, hsegments⟩ := List.forall_mem_cons.mp hsegments
      obtain ⟨hw', hsegments'⟩ := List.forall_mem_cons.mp hsegments'
      obtain ⟨rfl, rfl⟩ := ih hw hw' hsegments hsegments' hp.2 (congrArg (partition slash) hp.2)
      exact ⟨hp.1, rfl⟩

/-- What follows a slash, up to the next slash or the end, is one of the segments. -/
theorem mem_of_joinSegments {first a w rest : Text} {segments : List Text}
    (hsegments : ∀ w ∈ segments, slash ∉ w) (hfirst : slash ∉ first) (hw : slash ∉ w)
    (hrest : rest = [] ∨ rest.head? = some slash)
    (h : joinSegments first segments = a ++ slash :: (w ++ rest)) : w ∈ segments := by
  obtain ⟨first', before, rfl, hfirst', hbefore⟩ := exists_segments a
  obtain ⟨after, hafter, rfl⟩ : ∃ after : List Text, (∀ w ∈ after, slash ∉ w) ∧
      rest = after.flatMap (slash :: ·) := by
    rcases hrest with rfl | hrest
    · exact ⟨[], by simp, rfl⟩
    · obtain ⟨rest, rfl⟩ := List.head?_eq_some_iff.mp hrest
      obtain ⟨w', after, rfl, hw', hafter⟩ := exists_segments rest
      exact ⟨w' :: after, List.forall_mem_cons.mpr ⟨hw', hafter⟩, rfl⟩
  rw [← joinSegments, joinSegments_append] at h
  obtain ⟨-, rfl⟩ := joinSegments_inj hfirst hfirst' hsegments
    (List.forall_mem_append.mpr ⟨hbefore, List.forall_mem_cons.mpr ⟨hw, hafter⟩⟩) h
  simp

theorem mapSegments_mapSegments (f g : Bool → Text → Text) (segments : List Text) :
    mapSegments g (mapSegments f segments) = mapSegments (fun last w => g last (f last w)) segments := by
  have hempty : ∀ l : List Text, (mapSegments f l).isEmpty = l.isEmpty := by
    intro l
    cases l <;> rfl
  induction segments with
  | nil => rfl
  | cons w segments ih => simp only [mapSegments, hempty, ih]

theorem mapSegments_congr {f g : Bool → Text → Text} {segments segments' : List Text}
    (h : List.Forall₂ (fun w w' => ∀ last, f last w = g last w') segments segments') :
    mapSegments f segments = mapSegments g segments' := by
  induction h with
  | nil => rfl
  | @cons w w' segments segments' hw htail ih =>
    have hempty : segments.isEmpty = segments'.isEmpty := by
      cases htail <;> rfl
    simp only [mapSegments, hw, ih, hempty]

theorem mem_mapSegments {f : Bool → Text → Text} {segments : List Text} {v : Text}
    (h : v ∈ mapSegments f segments) : ∃ last, ∃ w ∈ segments, v = f last w := by
  induction segments with
  | nil => cases h
  | cons w segments ih =>
    rcases List.mem_cons.mp h with rfl | h
    · exact ⟨_, w, by simp, rfl⟩
    · obtain ⟨last, w', hw', rfl⟩ := ih h
      exact ⟨last, w', List.mem_cons_of_mem _ hw', rfl⟩

/-- A substitution whose matches lie within a segment works segment by segment. -/
theorem sub_joinSegments {ps : Pattern CodePoint} {new : Text} {f : Bool → Text → Text}
    (h : ∀ w segments, slash ∉ w → sub (.one isSlash :: ps) new (joinSegments [] (w :: segments)) =
      slash :: f segments.isEmpty w ++ sub (.one isSlash :: ps) new (joinSegments [] segments))
    {first : Text} {segments : List Text} (hfirst : slash ∉ first) (hsegments : ∀ w ∈ segments, slash ∉ w) :
    sub (.one isSlash :: ps) new (joinSegments first segments) =
      joinSegments first (mapSegments f segments) := by
  have hplain : ∀ c ∈ first, isSlash c = false := by
    intro c hc
    exact decide_eq_false (fun he => hfirst (he ▸ hc))
  have htail : sub (.one isSlash :: ps) new (joinSegments [] segments) =
      joinSegments [] (mapSegments f segments) := by
    induction segments with
    | nil => exact sub_nil
    | cons w segments ih =>
      obtain ⟨hw, hsegments⟩ := List.forall_mem_cons.mp hsegments
      rw [h w segments hw, ih hsegments]
      simp [joinSegments, mapSegments]
  rw [joinSegments, sub_plain hplain]
  exact congrArg (first ++ ·) htail

end Segments

section Uuid

theorem mem_ofClasses {classes : List (CodePoint → Bool)} {w : Text} {c : CodePoint}
    (h : OfClasses classes w) (hc : c ∈ w) : ∃ q ∈ classes, q c = true := by
  induction h with
  | nil => cases hc
  | @cons q c' classes w hq _ ih =>
    rcases List.mem_cons.mp hc with rfl | hc
    · exact ⟨q, by simp, hq⟩
    · obtain ⟨q', hq', h⟩ := ih hc
      exact ⟨q', List.mem_cons_of_mem _ hq', h⟩

theorem exists_of_class {classes : List (CodePoint → Bool)} {w : Text} {q : CodePoint → Bool}
    (h : OfClasses classes w) (hq : q ∈ classes) : ∃ c ∈ w, q c = true := by
  induction h with
  | nil => cases hq
  | @cons q' c classes w hc _ ih =>
    rcases List.mem_cons.mp hq with rfl | hq
    · exact ⟨c, by simp, hc⟩
    · obtain ⟨c', hc', h⟩ := ih hq
      exact ⟨c', List.mem_cons_of_mem _ hc', h⟩

theorem slash_notMem_uuid {u : Text} (h : IsUuid u) : slash ∉ u := by
  have hclasses : ∀ q ∈ uuidClasses, (!q slash) = true := List.all_eq_true.mp (by decide)
  intro hmem
  obtain ⟨q, hq, hs⟩ := mem_ofClasses h hmem
  have hnot := hclasses q hq
  rw [hs] at hnot
  cases hnot

theorem isUuid_iff (w : Text) :
    IsUuid w ↔ (matchAt (uuidClasses.map .one) none w).map (·.2) = some [] := by
  rw [Option.map_eq_some_iff]
  constructor
  · intro h
    have hm := @matchAt_ones_append _ none _ _ h []
    rw [List.append_nil] at hm
    exact ⟨_, hm, rfl⟩
  · rintro ⟨m, hm, hrest⟩
    obtain ⟨u, rfl, -, hu⟩ := (matchAt_ones uuidClasses).mp hm
    rwa [hrest, List.append_nil]

instance decidableIsUuid : DecidablePred IsUuid := fun w => decidable_of_iff _ (isUuid_iff w).symm

theorem uuidSegment_of_uuid {u : Text} (h : IsUuid u) (v : Text) : uuidSegment (u ++ v) = idText ++ v := by
  rw [uuidSegment, matchAt_ones_append h]

theorem uuidSegment_of_not {w : Text} (h : ¬ StartsWithUuid w) : uuidSegment w = w := by
  rw [uuidSegment]
  split
  · rename_i m hm
    obtain ⟨u, hw, -, hu⟩ := (matchAt_ones uuidClasses).mp hm
    exact absurd ⟨u, m.2, hw, hu⟩ h
  · rfl

theorem sub_uuid_match {u : Text} (h : IsUuid u) (s : Text) :
    sub uuidRe (slash :: idText) (slash :: (u ++ s)) =
      slash :: idText ++ sub uuidRe (slash :: idText) s := by
  have hm : matchAt uuidRe none (slash :: (u ++ s)) = some ([slash] :: u.map ([·]), s) := by
    rw [uuidRe, matchAt_one_cons, if_pos (by rfl), matchAt_ones_append h, Option.map_some]
  exact sub_matched hm

/-- A UUID that starts a segment ends in it. -/
theorem startsWithUuid_of_match {w : Text} {segments : List Text} {before : Option CodePoint}
    {m : List Text × Text}
    (h : matchAt (uuidClasses.map .one) before (w ++ joinSegments [] segments) = some m) :
    StartsWithUuid w := by
  obtain ⟨u, hs, -, hu⟩ := (matchAt_ones uuidClasses).mp h
  have hpre : u <+: w := by
    have hpre : u <+: w ++ joinSegments [] segments := ⟨m.2, hs.symm⟩
    cases segments with
    | nil => simpa [joinSegments] using hpre
    | cons w' segments =>
      rw [joinSegments_cons] at hpre
      exact (prefix_append_cons (slash_notMem_uuid hu)).mp hpre
  obtain ⟨v, rfl⟩ := hpre
  exact ⟨u, v, rfl, hu⟩

theorem isSlash_of_notMem {w : Text} (h : slash ∉ w) : ∀ c ∈ w, isSlash c = false := by
  intro c hc
  exact decide_eq_false (fun he => h (he ▸ hc))

theorem sub_uuid_segment (w : Text) (segments : List Text) (hw : slash ∉ w) :
    sub uuidRe (slash :: idText) (joinSegments [] (w :: segments)) =
      slash :: uuidSegment w ++ sub uuidRe (slash :: idText) (joinSegments [] segments) := by
  rw [joinSegments_cons, List.nil_append, show joinSegments w segments = w ++ joinSegments [] segments by rfl]
  by_cases h : StartsWithUuid w
  · obtain ⟨u, v, rfl, hu⟩ := h
    have hv : slash ∉ v := by
      intro hmem
      exact hw (by simp [hmem])
    rw [List.append_assoc, sub_uuid_match hu, uuidSegment_of_uuid hu, uuidRe,
      sub_plain (isSlash_of_notMem hv)]
    simp
  · have hm : matchAt uuidRe none (slash :: (w ++ joinSegments [] segments)) = none := by
      rw [uuidRe, matchAt_one_cons, if_pos (by rfl), Option.map_eq_none_iff,
        Option.eq_none_iff_forall_not_mem]
      intro m hm
      exact h (startsWithUuid_of_match hm)
    rw [uuidRe] at hm ⊢
    rw [sub_unmatched hm, sub_plain (isSlash_of_notMem hw), uuidSegment_of_not h, List.cons_append]

end Uuid

section Numeric

theorem segmentEnds_append {w : Text} (hw : slash ∉ w) (segments : List Text) (before : Option CodePoint) :
    segmentEnds before (w ++ joinSegments [] segments) = true ↔
      w = [] ∨ (segments.isEmpty = true ∧ w = [newline]) := by
  cases w with
  | nil =>
    cases segments with
    | nil => simp [segmentEnds, joinSegments]
    | cons v segments => simp [segmentEnds, joinSegments, isSlash]
  | cons c w =>
    have hc : isSlash c = false := isSlash_of_notMem hw c (by simp)
    cases segments with
    | nil => simp [segmentEnds, joinSegments, hc]
    | cons v segments => simp [segmentEnds, joinSegments, hc]

theorem slash_not_decimal : isDecimal slash = false := by decide

theorem newline_not_decimal : isDecimal newline = false := by decide

theorem refuses_segmentEnds : Refuses [.assert segmentEnds] isDecimal := by
  refine refuses_assert ?_
  intro before c s hc
  have hslash : c ≠ slash := by
    rintro rfl
    rw [slash_not_decimal] at hc
    cases hc
  have hnewline : c ≠ newline := by
    rintro rfl
    rw [newline_not_decimal] at hc
    cases hc
  simp [segmentEnds, isSlash, hslash, hnewline]

theorem segmentEnds_before (before : Option CodePoint) (s : Text) :
    segmentEnds before s = segmentEnds none s := rfl

theorem matchAt_numeric (s : Text) :
    (matchAt numericIdRe none (slash :: s)).map (·.2) =
      if s.takeWhile isDecimal ≠ [] ∧ segmentEnds none (s.dropWhile isDecimal) = true
      then some (s.dropWhile isDecimal) else none := by
  rw [numericIdRe, matchAt_one_cons, if_pos (by rfl)]
  cases s with
  | nil => simp [plus, matchAt_one_nil]
  | cons c s =>
    rw [plus, List.cons_append, matchAt_one_cons]
    by_cases hc : isDecimal c = true
    · rw [if_pos hc, List.singleton_append, matchAt_many refuses_segmentEnds, matchAt_assert,
        segmentEnds_before]
      rw [List.takeWhile_cons_of_pos hc, List.dropWhile_cons_of_pos hc]
      by_cases he : segmentEnds none (s.dropWhile isDecimal) = true
      · rw [if_pos he, if_pos ⟨by simp, he⟩]
        rfl
      · rw [if_neg he, if_neg (by simp [he])]
        rfl
    · rw [if_neg hc, List.takeWhile_cons_of_neg hc]
      simp

theorem takeWhile_joinSegments (w : Text) (segments : List Text) :
    (w ++ joinSegments [] segments).takeWhile isDecimal = w.takeWhile isDecimal ∧
      (w ++ joinSegments [] segments).dropWhile isDecimal =
        w.dropWhile isDecimal ++ joinSegments [] segments := by
  induction w with
  | nil =>
    cases segments with
    | nil => exact ⟨rfl, rfl⟩
    | cons v segments =>
      rw [joinSegments_cons, List.nil_append, List.nil_append]
      rw [List.takeWhile_cons_of_neg (by simp [slash_not_decimal]),
        List.dropWhile_cons_of_neg (by simp [slash_not_decimal])]
      exact ⟨rfl, rfl⟩
  | cons c w ih =>
    rw [List.cons_append]
    by_cases hc : isDecimal c = true
    · rw [List.takeWhile_cons_of_pos hc, List.takeWhile_cons_of_pos hc, List.dropWhile_cons_of_pos hc,
        List.dropWhile_cons_of_pos hc, ih.1, ih.2]
      exact ⟨rfl, rfl⟩
    · rw [List.takeWhile_cons_of_neg hc, List.takeWhile_cons_of_neg hc, List.dropWhile_cons_of_neg hc,
        List.dropWhile_cons_of_neg hc]
      exact ⟨rfl, rfl⟩

theorem sub_numeric_segment (w : Text) (segments : List Text) (hw : slash ∉ w) :
    sub numericIdRe (slash :: idText) (joinSegments [] (w :: segments)) =
      slash :: numericSegment segments.isEmpty w ++
        sub numericIdRe (slash :: idText) (joinSegments [] segments) := by
  rw [joinSegments_cons, List.nil_append, show joinSegments w segments = w ++ joinSegments [] segments by rfl]
  have hrest : slash ∉ w.dropWhile isDecimal := fun h => hw ((List.dropWhile_suffix _).subset h)
  have hm := matchAt_numeric (w ++ joinSegments [] segments)
  rw [(takeWhile_joinSegments w segments).1, (takeWhile_joinSegments w segments).2] at hm
  have hends := segmentEnds_append hrest segments none
  by_cases h : w.takeWhile isDecimal ≠ [] ∧
      (w.dropWhile isDecimal = [] ∨ (segments.isEmpty = true ∧ w.dropWhile isDecimal = [newline]))
  · rw [if_pos ⟨h.1, hends.mpr h.2⟩, Option.map_eq_some_iff] at hm
    obtain ⟨m, hm, hrest'⟩ := hm
    rw [numericIdRe] at hm ⊢
    rw [sub_matched hm, hrest', sub_plain (isSlash_of_notMem hrest), numericSegment, if_pos h]
    simp
  · rw [if_neg (fun hm' => h ⟨hm'.1, hends.mp hm'.2⟩), Option.map_eq_none_iff] at hm
    rw [numericIdRe] at hm ⊢
    rw [sub_unmatched hm, sub_plain (isSlash_of_notMem hw), numericSegment, if_neg h, List.cons_append]

end Numeric

section Normalize

theorem slash_notMem_idText : slash ∉ idText := by decide

theorem slash_notMem_uuidSegment {w : Text} (hw : slash ∉ w) : slash ∉ uuidSegment w := by
  by_cases h : StartsWithUuid w
  · obtain ⟨u, v, rfl, hu⟩ := h
    rw [uuidSegment_of_uuid hu, List.mem_append, not_or]
    exact ⟨slash_notMem_idText, fun hv => hw (List.mem_append_right _ hv)⟩
  · rwa [uuidSegment_of_not h]

theorem slash_notMem_numericSegment {last : Bool} {w : Text} (hw : slash ∉ w) :
    slash ∉ numericSegment last w := by
  rw [numericSegment]
  split
  · rw [List.mem_append, not_or]
    exact ⟨slash_notMem_idText, fun hv => hw ((List.dropWhile_suffix _).subset hv)⟩
  · exact hw

theorem slash_notMem_normalizeSegment {last : Bool} {w : Text} (hw : slash ∉ w) :
    slash ∉ normalizeSegment last w :=
  slash_notMem_numericSegment (slash_notMem_uuidSegment hw)

theorem slash_notMem_mapSegments {f : Bool → Text → Text} {segments : List Text}
    (hf : ∀ last w, slash ∉ w → slash ∉ f last w) (h : ∀ w ∈ segments, slash ∉ w) :
    ∀ w ∈ mapSegments f segments, slash ∉ w := by
  intro v hv
  obtain ⟨last, w, hw, rfl⟩ := mem_mapSegments hv
  exact hf last w (h w hw)

theorem slash_notMem_normalized {segments : List Text} (h : ∀ w ∈ segments, slash ∉ w) :
    ∀ w ∈ mapSegments normalizeSegment segments, slash ∉ w :=
  slash_notMem_mapSegments (fun _ _ => slash_notMem_normalizeSegment) h

/-- `normalize_path` works segment by segment. -/
theorem normalizePath_join {first : Text} {segments : List Text} (hfirst : slash ∉ first)
    (hsegments : ∀ w ∈ segments, slash ∉ w) :
    normalizePath (joinSegments first segments) =
      joinSegments first (mapSegments normalizeSegment segments) := by
  have huuid : sub uuidRe (slash :: idText) (joinSegments first segments) =
      joinSegments first (mapSegments (fun _ => uuidSegment) segments) :=
    @sub_joinSegments _ _ (fun _ => uuidSegment) sub_uuid_segment _ _ hfirst hsegments
  have hnumeric : sub numericIdRe (slash :: idText)
      (joinSegments first (mapSegments (fun _ => uuidSegment) segments)) =
      joinSegments first (mapSegments numericSegment (mapSegments (fun _ => uuidSegment) segments)) :=
    sub_joinSegments sub_numeric_segment hfirst
      (slash_notMem_mapSegments (fun _ _ => slash_notMem_uuidSegment) hsegments)
  rw [normalizePath, huuid, hnumeric, mapSegments_mapSegments]
  rfl

theorem uuidSegment_idText (v : Text) : uuidSegment (idText ++ v) = idText ++ v := by
  have hm : matchAt (uuidClasses.map .one) none (idText ++ v) = none := by
    change matchAt (.one isHex :: _) none (0x7B :: _) = none
    rw [matchAt_one_cons]
    rfl
  rw [uuidSegment, hm]

theorem numericSegment_idText (last : Bool) (v : Text) :
    numericSegment last (idText ++ v) = idText ++ v := by
  have hdigits : (idText ++ v).takeWhile isDecimal = [] := by
    change List.takeWhile isDecimal (0x7B :: _) = []
    exact List.takeWhile_cons_of_neg (by decide)
  rw [numericSegment, if_neg (fun h => h.1 hdigits)]

/-- Every segment ends up unchanged by both passes or starting with `{id}`. -/
theorem normalizeSegment_cases (last : Bool) (w : Text) :
    (∃ v, normalizeSegment last w = idText ++ v) ∨
      (normalizeSegment last w = w ∧ uuidSegment w = w ∧ numericSegment last w = w) := by
  rw [normalizeSegment]
  by_cases h : StartsWithUuid w
  · obtain ⟨u, v, rfl, hu⟩ := h
    exact .inl ⟨v, by rw [uuidSegment_of_uuid hu, numericSegment_idText]⟩
  · rw [uuidSegment_of_not h]
    by_cases hn : numericSegment last w = w
    · exact .inr ⟨hn, rfl, hn⟩
    · refine .inl ⟨w.dropWhile isDecimal, ?_⟩
      rw [numericSegment] at hn ⊢
      split at hn
      · rename_i hd
        rw [if_pos hd]
      · exact absurd rfl hn

theorem normalizeSegment_idem (last : Bool) (w : Text) :
    normalizeSegment last (normalizeSegment last w) = normalizeSegment last w := by
  rcases normalizeSegment_cases last w with ⟨v, hv⟩ | ⟨hw, huuid, hnumeric⟩
  · rw [hv, normalizeSegment, uuidSegment_idText, numericSegment_idText]
  · rw [hw, hw]

theorem numericSegment_of_number {w : Text} (h : IsNumber w) (last : Bool) :
    numericSegment last w = idText := by
  have htake : w.takeWhile isDecimal = w := List.takeWhile_eq_self_iff.mpr h.2
  have hdrop : w.dropWhile isDecimal = [] := List.dropWhile_eq_nil_iff.mpr h.2
  rw [numericSegment, if_pos ⟨by rw [htake]; exact h.1, .inl hdrop⟩, hdrop, List.append_nil]

theorem not_number_idText (v : Text) : ¬ IsNumber (idText ++ v) := by
  intro h
  have hbrace : isDecimal 0x7B = true := h.2 0x7B (List.mem_append_left _ (by decide))
  revert hbrace
  decide

theorem not_startsWithUuid_of_fixed {w : Text} (h : uuidSegment w = w) : ¬ StartsWithUuid w := by
  rintro ⟨u, v, rfl, hu⟩
  rw [uuidSegment_of_uuid hu] at h
  obtain rfl := List.append_cancel_right h
  have hlength := hu.length_eq
  revert hlength
  decide

theorem not_number_of_fixed {last : Bool} {w : Text} (h : numericSegment last w = w) : ¬ IsNumber w := by
  intro hn
  rw [numericSegment_of_number hn] at h
  exact not_number_idText [] (by rwa [List.append_nil, h])

/-- A UUID has a hyphen, so it is no number, nor is a text that starts with one. -/
theorem not_startsWithUuid_of_number {w : Text} (h : IsNumber w) : ¬ StartsWithUuid w := by
  rintro ⟨u, v, rfl, hu⟩
  obtain ⟨c, hc, hhyphen⟩ := exists_of_class hu (q := isHyphen) (by simp [uuidClasses])
  obtain rfl := of_decide_eq_true hhyphen
  have hdecimal : isDecimal hyphen = true := h.2 hyphen (List.mem_append_left _ hc)
  revert hdecimal
  decide

theorem normalizeSegment_of_number {w : Text} (h : IsNumber w) (last : Bool) :
    normalizeSegment last w = idText := by
  rw [normalizeSegment, uuidSegment_of_not (not_startsWithUuid_of_number h), numericSegment_of_number h]

theorem normalizeSegment_of_uuid {w : Text} (h : IsUuid w) (last : Bool) :
    normalizeSegment last w = idText := by
  have huuid := uuidSegment_of_uuid h []
  have hnumeric := numericSegment_idText last []
  simp only [List.append_nil] at huuid hnumeric
  rw [normalizeSegment, huuid, hnumeric]

/-- No segment is an id any more. -/
theorem not_id_normalizeSegment (last : Bool) (w : Text) :
    ¬ IsNumber (normalizeSegment last w) ∧ ¬ StartsWithUuid (normalizeSegment last w) := by
  rcases normalizeSegment_cases last w with ⟨v, hv⟩ | ⟨hw, huuid, hnumeric⟩
  · rw [hv]
    exact ⟨not_number_idText v, not_startsWithUuid_of_fixed (uuidSegment_idText v)⟩
  · rw [hw]
    exact ⟨not_number_of_fixed hnumeric, not_startsWithUuid_of_fixed huuid⟩

end Normalize

section Cardinality

theorem normalizePath_idem (path : Text) : normalizePath (normalizePath path) = normalizePath path := by
  obtain ⟨first, segments, rfl, hfirst, hsegments⟩ := exists_segments path
  rw [normalizePath_join hfirst hsegments,
    normalizePath_join hfirst (slash_notMem_normalized hsegments), mapSegments_mapSegments]
  exact congrArg (joinSegments first) (mapSegments_congr
    (List.forall₂_same.mpr (fun w _ last => normalizeSegment_idem last w)))

/-- `w` stands in `path` after a slash, up to the next slash or the end. -/
def IsSegment (w path : Text) : Prop :=
  slash ∉ w ∧ ∃ a rest, path = a ++ slash :: (w ++ rest) ∧ (rest = [] ∨ rest.head? = some slash)

theorem not_id_of_segment {path w : Text} (h : IsSegment w (normalizePath path)) :
    ¬ IsNumber w ∧ ¬ StartsWithUuid w := by
  obtain ⟨first, segments, rfl, hfirst, hsegments⟩ := exists_segments path
  obtain ⟨hw, a, rest, hpath, hrest⟩ := h
  rw [normalizePath_join hfirst hsegments] at hpath
  have hmem := mem_of_joinSegments (slash_notMem_normalized hsegments) hfirst hw hrest hpath
  obtain ⟨last, v, -, rfl⟩ := mem_mapSegments hmem
  exact not_id_normalizeSegment last v

/-- The same path but for the ids in it: what follows a slash may be a number or a UUID in the one and
another number or UUID in the other. -/
inductive SameButIds : Text → Text → Prop where
  | intro {first : Text} {segments segments' : List Text} :
      slash ∉ first → (∀ w ∈ segments, slash ∉ w) → (∀ w ∈ segments', slash ∉ w) →
      List.Forall₂ (fun w w' => w = w' ∨ ((IsNumber w ∨ IsUuid w) ∧ (IsNumber w' ∨ IsUuid w')))
        segments segments' →
      SameButIds (joinSegments first segments) (joinSegments first segments')

theorem normalizeSegment_of_id {w : Text} (h : IsNumber w ∨ IsUuid w) (last : Bool) :
    normalizeSegment last w = idText := by
  rcases h with h | h
  · exact normalizeSegment_of_number h last
  · exact normalizeSegment_of_uuid h last

theorem normalizePath_eq_of_same {path path' : Text} (h : SameButIds path path') :
    normalizePath path = normalizePath path' := by
  obtain ⟨hfirst, hsegments, hsegments', hsame⟩ := h
  rw [normalizePath_join hfirst hsegments, normalizePath_join hfirst hsegments']
  refine congrArg _ (mapSegments_congr (hsame.imp ?_))
  rintro w w' (rfl | ⟨hw, hw'⟩) last
  · rfl
  · rw [normalizeSegment_of_id hw, normalizeSegment_of_id hw']

/-- What a metric's label or a rate limit's key can be is bounded by the shapes of the paths: an id that
stands between slashes never shows in it. -/
theorem normalizePath_bounds_cardinality :
    (∀ path, normalizePath (normalizePath path) = normalizePath path) ∧
    (∀ path w, IsSegment w (normalizePath path) → ¬ IsNumber w ∧ ¬ StartsWithUuid w) ∧
    (∀ path path', SameButIds path path' → normalizePath path = normalizePath path') :=
  ⟨normalizePath_idem, fun _ _ => not_id_of_segment, fun _ _ => normalizePath_eq_of_same⟩

theorem normalizePath_bounds_cardinality_users :
    normalizePath (text "/users/42") =
      normalizePath (text "/users/0123ABCD-0123-0123-0123-0123456789ab") := by
  refine normalizePath_bounds_cardinality.2.2 _ _ (@SameButIds.intro [] [text "users", text "42"]
    [text "users", text "0123ABCD-0123-0123-0123-0123456789ab"] ?_ ?_ ?_ ?_)
  · decide
  · decide
  · decide
  · have hnumber : IsNumber (text "42") := ⟨by decide, List.all_eq_true.mp (by decide)⟩
    exact .cons (.inl rfl) (.cons (.inr ⟨.inl hnumber, .inr (by decide +kernel)⟩) .nil)

end Cardinality

end Monitoring
end TrShared
