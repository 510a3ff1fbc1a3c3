import TrShared.Testing.StartScript

/-!
# TrShared.Testing.QueueLists

What `_queues_from_value` makes of a queue list. An option is read up to the first blank behind its name, so
`front` is what it sees of a list: the items before a blank, and `none` for what stands between a comma and
a blank. A reference is resolved if it is all that is seen; among others it is dropped.

* `seen_cases`: what is left of a chunk without its quotes.
* `shellVar_seen`: when a list is taken for a variable.
* `mem_listed`: the members of a list that are kept.
-/

namespace TrShared
namespace Testing
namespace CeleryTopology

open Python Python.Regex

section Chars

variable {c : CodePoint} {t : Text}

/-- The characters of an item. -/
def isItemChar (c : CodePoint) : Bool := !isSpace c && decide (c ∉ text ",\"'")

theorem itemChar_of_nameChar (h : isNameChar c = true) : isItemChar c = true := by
  have hsub : text ",\"'" ⊆ text ",\"'$\\" := by decide
  simp only [isNameChar, isItemChar, Bool.and_eq_true, decide_eq_true_eq] at h ⊢
  exact ⟨h.1.1, fun hc => h.2 (hsub hc)⟩

theorem variableChar_lt (h : isVariableChar c = true) : c.val < 128 ∧ isWord (fun _ => false) c = true := by
  simp only [isVariableChar, decide_eq_true_eq] at h
  have hlt : c.val < 128 := by omega
  refine ⟨hlt, ?_⟩
  rw [isWord, if_pos hlt, decide_eq_true_eq]
  exact h

theorem itemChar_of_variableChar (h : isVariableChar c = true) : isItemChar c = true := by
  have hall : ∀ n < 128,
      isVariableChar (Fin.ofNat 0x110000 n) = true → isItemChar (Fin.ofNat 0x110000 n) = true := by
    decide +kernel
  have hc : Fin.ofNat 0x110000 c.val = c := Fin.ext (Nat.mod_eq_of_lt c.isLt)
  have hn := hall c.val (variableChar_lt h).1
  rw [hc] at hn
  exact hn h

theorem word_of_variableChar (alnum : CodePoint → Bool) (h : isVariableChar c = true) :
    isWord alnum c = true := by
  obtain ⟨hlt, hword⟩ := variableChar_lt h
  rw [isWord, if_pos hlt] at hword ⊢
  exact hword

theorem item_chars (i : Item) : ∀ c ∈ i.written, isItemChar c = true := by
  cases i with
  | literal q => exact fun c hc => itemChar_of_nameChar (q.chars c hc)
  | reference braced x =>
    have hx : ∀ c ∈ x.name, isItemChar c = true := fun c hc => itemChar_of_variableChar (x.chars c hc)
    cases braced with
    | false => exact List.forall_mem_cons.mpr ⟨by decide, hx⟩
    | true =>
      refine List.forall_mem_cons.mpr ⟨by decide, List.forall_mem_cons.mpr ⟨by decide, fun c hc => ?_⟩⟩
      rcases List.mem_append.mp hc with hc | hc
      · exact hx c hc
      · obtain rfl := List.mem_singleton.mp hc
        decide

theorem space_of_itemChar (h : isItemChar c = true) : isSpace c = false := by
  simp only [isItemChar, Bool.and_eq_true, Bool.not_eq_true'] at h
  exact h.1

theorem ne_comma_of_itemChar (h : isItemChar c = true) : c ≠ comma := by
  rintro rfl
  cases h

theorem quote_of_itemChar (h : isItemChar c = true) : isQuote c = false := by
  have hsub : text "\"'" ⊆ text ",\"'" := by decide
  simp only [isItemChar, Bool.and_eq_true, decide_eq_true_eq] at h
  exact decide_eq_false (fun hc => h.2 (hsub hc))

theorem chunk_iff : isChunk c = true ↔ isSpace c = false := by
  rw [isChunk, Bool.not_eq_true']

theorem quote_chars (q : Quote) : ∀ c ∈ q.written, isQuote c = true := by
  refine List.all_eq_true.mp ?_
  cases q <;> decide

theorem quote_chunk (q : Quote) : ∀ c ∈ q.written, isChunk c = true := by
  refine List.all_eq_true.mp ?_
  cases q <;> decide

theorem space_not_quote (h : isSpace c = true) : isQuote c = false :=
  decide_eq_false (not_mem_of_all (by decide) h)

end Chars

/-! ## The list on a logical line -/

section Joined

theorem joined_append (a b : Broken) : joined (a ++ b) = joined a ++ joined b := List.map_append

theorem joined_text (t : Text) : joined (t.map some) = t := by
  rw [joined, List.map_map]
  exact List.map_id t

theorem joined_padded (p : Padded) : joined p.broken = p.written := by
  rw [Padded.broken, joined_append, joined_append, joined_text]
  rfl

theorem brokenBody_cons (p : Padded) {ps : List Padded} (h : ps ≠ []) :
    brokenBody (p :: ps) = p.broken ++ some comma :: brokenBody ps := by
  rw [brokenBody, List.map_cons, List.intercalate_cons_of_ne_nil (by simpa using h), List.append_assoc]
  rfl

theorem bodyOf_cons (p : Padded) {ps : List Padded} (h : ps ≠ []) :
    bodyOf (p :: ps) = p.written ++ comma :: bodyOf ps := by
  rw [bodyOf, List.map_cons, join_cons (by simpa using h), List.append_assoc]
  rfl

theorem joined_body (items : List Padded) : joined (brokenBody items) = bodyOf items := by
  induction items with
  | nil => rfl
  | cons p ps ih =>
    by_cases hps : ps = []
    · rw [hps, brokenBody, bodyOf, List.map_singleton, List.map_singleton, List.intercalate_singleton,
        join_singleton, joined_padded]
    · rw [brokenBody_cons p hps, joined_append, joined_padded, bodyOf_cons p hps, ← ih]
      rfl

theorem joined_value (v : Value) : joined v.broken = v.written := by
  rw [Value.broken, joined_append, joined_append, joined_text, joined_body, Value.written]

end Joined

/-! ## What is seen of a list -/

section Front

/-- The items up to the first blank; `none` is nothing between a comma, or the start, and a blank. -/
def front : List Padded → List (Option Item)
  | [] => []
  | p :: ps =>
    if p.left.val ≠ [] then [none]
    else if p.right.val ≠ [] then [some p.item]
    else some p.item :: front ps

def frontText (i : Option Item) : Text := (i.map Item.written).getD []

def frontOf (items : List Padded) : Text := join (text ",") ((front items).map frontText)

variable {items : List Padded} {r : Text}

theorem front_ne_nil (h : items ≠ []) : front items ≠ [] := by
  cases items with
  | nil => exact absurd rfl h
  | cons p ps =>
    rw [front]
    split
    · simp
    · split
      · simp
      · simp

theorem mem_of_mem_front {i : Item} (h : some i ∈ front items) : ∃ p ∈ items, p.item = i := by
  induction items with
  | nil => cases h
  | cons p ps ih =>
    rw [front] at h
    split at h
    · simp at h
    · split at h
      · obtain rfl := Option.some.inj (List.mem_singleton.mp h)
        exact ⟨p, List.mem_cons_self, rfl⟩
      · rcases List.mem_cons.mp h with h | h
        · exact ⟨p, List.mem_cons_self, (Option.some.inj h).symm⟩
        · obtain ⟨p', hp', hi⟩ := ih h
          exact ⟨p', List.mem_cons_of_mem _ hp', hi⟩

theorem front_unpadded {items : List Padded} (h : ∀ p ∈ items, p.left.val = [] ∧ p.right.val = []) :
    front items = items.map (fun p => some p.item) := by
  induction items with
  | nil => rfl
  | cons p ps ih =>
    obtain ⟨⟨hleft, hright⟩, hps⟩ := List.forall_mem_cons.mp h
    rw [front, if_neg (not_not_intro hleft), if_neg (not_not_intro hright), ih hps, List.map_cons]

theorem body_chars {c : CodePoint} (h : c ∈ bodyOf items) :
    isItemChar c = true ∨ c = comma ∨ isSpace c = true := by
  have hpadded : ∀ p : Padded, ∀ c ∈ p.written, isItemChar c = true ∨ isSpace c = true := by
    intro p c hc
    rw [Padded.written] at hc
    rcases List.mem_append.mp hc with hc | hc
    · rcases List.mem_append.mp hc with hc | hc
      · exact .inr (p.left.property c hc)
      · exact .inl (item_chars p.item c hc)
    · exact .inr (p.right.property c hc)
  induction items with
  | nil => cases h
  | cons p ps ih =>
    by_cases hps : ps = []
    · subst hps
      rw [bodyOf, List.map_singleton, join_singleton] at h
      exact (hpadded p c h).imp_right .inr
    · rw [bodyOf_cons p hps] at h
      rcases List.mem_append.mp h with h | h
      · exact (hpadded p c h).imp_right .inr
      · rcases List.mem_cons.mp h with h | h
        · exact .inr (.inl h)
        · exact ih h

theorem body_not_quote {c : CodePoint} (h : c ∈ bodyOf items) : isQuote c = false := by
  rcases body_chars h with h | rfl | h
  · exact quote_of_itemChar h
  · decide
  · exact space_not_quote h

theorem takeWhile_blank {w : Text} (hw : ∀ c ∈ w, isSpace c = true) (hne : w ≠ []) :
    (w ++ r).takeWhile isChunk = [] := by
  obtain ⟨c, w', rfl⟩ := List.exists_cons_of_ne_nil hne
  have hc := hw c List.mem_cons_self
  rw [List.cons_append, List.takeWhile_cons_of_neg (by simp [isChunk, hc])]

/-- The list up to the first blank. -/
theorem takeWhile_body (h : items ≠ []) : (bodyOf items).takeWhile isChunk = frontOf items := by
  induction items with
  | nil => exact absurd rfl h
  | cons p ps ih =>
    have hitem : ∀ c ∈ p.item.written, isChunk c = true :=
      fun c hc => chunk_iff.mpr (space_of_itemChar (item_chars p.item c hc))
    obtain ⟨tail, hbody, htail⟩ : ∃ tail, bodyOf (p :: ps) = p.written ++ tail ∧
        (ps = [] ∧ tail = [] ∨ ps ≠ [] ∧ tail = comma :: bodyOf ps) := by
      by_cases hps : ps = []
      · refine ⟨[], ?_, .inl ⟨hps, rfl⟩⟩
        rw [hps, List.append_nil]
        exact join_singleton _ _
      · exact ⟨_, bodyOf_cons p hps, .inr ⟨hps, rfl⟩⟩
    rw [hbody, Padded.written, frontOf, front]
    by_cases hleft : p.left.val = []
    · rw [if_neg (by simpa using hleft), hleft, List.nil_append, List.append_assoc,
        List.takeWhile_append_of_pos hitem]
      by_cases hright : p.right.val = []
      · rw [if_neg (by simpa using hright), hright, List.nil_append, List.map_cons]
        rcases htail with ⟨rfl, rfl⟩ | ⟨hps, rfl⟩
        · rw [front, List.map_nil, join_singleton]
          simp [frontText]
        · have hfront : (front ps).map frontText ≠ [] := by simpa using front_ne_nil hps
          rw [List.takeWhile_cons_of_pos (by decide), ih hps, join_cons hfront, List.append_assoc]
          rfl
      · rw [if_pos (by simpa using hright), takeWhile_blank p.right.property hright, List.append_nil,
          List.map_singleton, join_singleton]
        rfl
    · rw [if_pos (by simpa using hleft), List.append_assoc, List.append_assoc,
        takeWhile_blank p.left.property hleft]
      rfl

theorem frontOf_chunk (h : items ≠ []) : ∀ c ∈ frontOf items, isSpace c = false ∧ isQuote c = false := by
  intro c hc
  rw [← takeWhile_body h] at hc
  exact ⟨chunk_iff.mp (List.mem_takeWhile_imp hc), body_not_quote ((List.takeWhile_prefix _).subset hc)⟩

theorem strip_of_chunk {t : Text} (h : ∀ c ∈ t, isSpace c = false) : strip t = t := by
  have hpadded := @stripBy_padded isSpace [] t [] (by simp) (by simp)
    (fun c hc => h c (List.mem_of_mem_head? hc)) (fun c hc => h c (List.mem_of_mem_getLast? hc))
  rwa [List.nil_append, List.append_nil] at hpadded

/-- A chunk in quotes, or with only the first of them. -/
theorem unquoted_quoted {q q' t : Text} (hq : ∀ c ∈ q, isQuote c = true) (hq' : ∀ c ∈ q', isQuote c = true)
    (ht : ∀ c ∈ t, isSpace c = false ∧ isQuote c = false) : unquoted (q ++ t ++ q') = t := by
  have hspace : ∀ c, isQuote c = true → isSpace c = false := by
    intro c hc
    by_contra hs
    rw [space_not_quote (by simpa using hs)] at hc
    cases hc
  have hchunk : ∀ c ∈ q ++ t ++ q', isSpace c = false := by
    intro c hc
    rcases List.mem_append.mp hc with hc | hc
    · rcases List.mem_append.mp hc with hc | hc
      · exact hspace c (hq c hc)
      · exact (ht c hc).1
    · exact hspace c (hq' c hc)
  rw [unquoted, strip_of_chunk hchunk]
  exact stripBy_padded hq hq' (fun c hc => (ht c (List.mem_of_mem_head? hc)).2)
    (fun c hc => (ht c (List.mem_of_mem_getLast? hc)).2)

theorem operator_not_space {c : CodePoint} (h : isOperator c = true) : isSpace c = false ∧ isQuote c = false := by
  have hall : ∀ c ∈ text ";&|<>()", (!isSpace c && !isQuote c) = true := List.all_eq_true.mp (by decide)
  have hc := hall c (of_decide_eq_true h)
  rw [Bool.and_eq_true, Bool.not_eq_true', Bool.not_eq_true'] at hc
  exact hc

theorem mem_unquoted {c : CodePoint} {t : Text} (h : isOperator c = true) : c ∈ unquoted t ↔ c ∈ t := by
  obtain ⟨hspace, hquote⟩ := operator_not_space h
  rw [unquoted, mem_stripBy hquote]
  exact mem_stripBy hspace

/-- What is seen of an option. -/
def QueueOption.seen (o : QueueOption) : Text := unquoted ((joined o.value.broken ++ o.tail).takeWhile isChunk)

/-- The items before a blank, or a text with an operator in it. -/
theorem seen_cases (o : QueueOption) :
    o.seen = frontOf o.value.items ∨ o.tail ≠ [] ∧ ∃ c ∈ o.seen, isOperator c = true := by
  rw [QueueOption.seen, joined_value, Value.written, List.append_assoc, List.append_assoc,
    List.takeWhile_append_of_pos (quote_chunk o.value.quote)]
  have hfront := takeWhile_body o.value.nonempty
  by_cases hall : ∀ c ∈ bodyOf o.value.items, isChunk c = true
  · have hbody : bodyOf o.value.items = frontOf o.value.items := by
      rw [← hfront, List.takeWhile_eq_self_iff.mpr hall]
    rw [List.takeWhile_append_of_pos hall, List.takeWhile_append_of_pos (quote_chunk o.value.quote), hbody,
      List.takeWhile_eq_self_iff.mpr (fun c hc => chunk_iff.mpr (o.chunk c hc))]
    by_cases htail : o.tail = []
    · rw [htail, List.append_nil, ← List.append_assoc]
      exact .inl (unquoted_quoted (quote_chars _) (quote_chars _) (frontOf_chunk o.value.nonempty))
    · obtain ⟨c, t, hcons⟩ := List.exists_cons_of_ne_nil htail
      have hoperator := o.operator c (by rw [hcons]; rfl)
      exact .inr ⟨htail, c, (mem_unquoted hoperator).mpr (by simp [hcons]), hoperator⟩
  · have hcut : (bodyOf o.value.items ++ (o.value.quote.written ++ o.tail)).takeWhile isChunk =
        frontOf o.value.items := by
      rw [List.takeWhile_append, if_neg, hfront]
      intro hlength
      have hself := List.IsPrefix.eq_of_length (List.takeWhile_prefix isChunk) hlength
      exact hall (List.takeWhile_eq_self_iff.mp hself)
    rw [hcut, ← List.append_nil (o.value.quote.written ++ frontOf o.value.items)]
    exact .inl (unquoted_quoted (quote_chars _) (by simp) (frontOf_chunk o.value.nonempty))

end Front

/-! ## References -/

section Reference

variable (alnum : CodePoint → Bool) {t : Text}

/-- The name of a variable and what follows it in `_SHELL_VAR`. -/
theorem matchAt_variable (x : Variable) (before : Option CodePoint)
    (ht : ∀ c ∈ t.head?, isWord alnum c = false) :
    ∃ (b : Option CodePoint) (spans : List Text), spans.length = 2 ∧ spans.flatten = x.name ∧
      matchAt [.one (isWord alnum), .many (isWord alnum), .maybe (isChar closeBrace),
        .assert atEnd] before (x.name ++ t) =
        (matchAt [.maybe (isChar closeBrace), .assert atEnd] b t).map
          (fun m => (spans ++ m.1, m.2)) := by
  obtain ⟨c, cs, hname⟩ := List.exists_cons_of_ne_nil x.nonempty
  have hword : ∀ d ∈ c :: cs, isWord alnum d = true := by
    rw [← hname]
    exact fun d hd => word_of_variableChar alnum (x.chars d hd)
  obtain ⟨hc, hcs⟩ := List.forall_mem_cons.mp hword
  have hrefuses : Refuses [.maybe (isChar closeBrace), .assert atEnd] (isWord alnum) := by
    intro b d s hd
    have hne : d ≠ closeBrace := by
      rintro rfl
      cases hd
    have hline : d ≠ newline := by
      rintro rfl
      cases hd
    rw [matchAt_maybe_skip (by simpa [isChar] using hne), matchAt_assert, if_neg (by simp [atEnd, hline])]
    rfl
  have hdrop : (cs ++ t).dropWhile (isWord alnum) = t := dropWhile_padded hcs ht
  have htake : (cs ++ t).takeWhile (isWord alnum) = cs := by
    rw [List.takeWhile_append_of_pos hcs]
    cases t with
    | nil => simp
    | cons d t => rw [List.takeWhile_cons_of_neg (by simp [ht d rfl]), List.append_nil]
  refine ⟨lastOr (some c) cs, [[c], cs], rfl, by simp [hname], ?_⟩
  rw [hname, List.cons_append, matchAt_one_cons, if_pos hc, matchAt_many hrefuses, htake, hdrop,
    Option.map_map]
  rfl

theorem shellVar_reference (braced : Bool) (x : Variable) :
    ∃ m, matchAt (shellVar alnum) none (Item.reference braced x).written = some m ∧
      varGroup m.1 = x.name := by
  cases braced with
  | false =>
    obtain ⟨b, spans, hlength, hspans, hmatch⟩ := @matchAt_variable alnum [] x (some dollar) (by simp)
    have hbrace : ((x.name.head?).map (isChar openBrace)).getD false = false := by
      obtain ⟨c, cs, hname⟩ := List.exists_cons_of_ne_nil x.nonempty
      have hc := x.chars c (by simp [hname])
      have hne : c ≠ openBrace := by
        rintro rfl
        cases hc
      simpa [isChar, hname] using hne
    have hend : matchAt [.maybe (isChar closeBrace), .assert atEnd] b [] = some ([[], []], []) := by
      rw [matchAt_maybe_skip rfl, matchAt_assert, if_pos (by rfl)]
      rfl
    rw [List.append_nil, hend] at hmatch
    refine ⟨([dollar] :: [] :: (spans ++ [[], []]), []), ?_, ?_⟩
    · rw [Item.written, shellVar, matchAt_one_cons, if_pos (by decide), matchAt_maybe_skip hbrace, hmatch]
      rfl
    · simp only [varGroup, List.drop_succ_cons, List.drop_zero]
      rw [← hlength, List.take_left, hspans]
  | true =>
    obtain ⟨b, spans, hlength, hspans, hmatch⟩ :=
      @matchAt_variable alnum [closeBrace] x (some openBrace) (by simp [closeBrace]; rfl)
    have hend : matchAt [.maybe (isChar closeBrace), .assert atEnd] b [closeBrace] =
        some ([[closeBrace], []], []) := by
      have hclose : isChar closeBrace closeBrace = true := by decide
      have hassert : matchAt [.assert atEnd] (some closeBrace) [] = some ([[]], []) := by
        rw [matchAt_assert, if_pos (by rfl)]
        rfl
      exact matchAt_maybe_take hclose hassert
    rw [hend] at hmatch
    refine ⟨([dollar] :: [openBrace] :: (spans ++ [[closeBrace], []]), []), ?_, ?_⟩
    · have hopen : isChar openBrace openBrace = true := by decide
      rw [Item.written, shellVar, matchAt_one_cons, if_pos (by decide), matchAt_maybe_take hopen hmatch]
      rfl
    · simp only [varGroup, List.drop_succ_cons, List.drop_zero]
      rw [← hlength, List.take_left, hspans]

/-- A text with a character that no piece of `_SHELL_VAR` covers. -/
theorem shellVar_none {c : CodePoint} (h : c ∈ t) (hword : isWord alnum c = false)
    (hother : c ∉ text "$\x7b\x7d\n") : matchAt (shellVar alnum) none t = none := by
  cases hmatch : matchAt (shellVar alnum) none t with
  | none => rfl
  | some m =>
    obtain ⟨hchars, hlast⟩ := matchAt_admits hmatch
    obtain ⟨b, hend⟩ := hlast atEnd rfl
    rw [matchAt_eq_some hmatch] at h
    refine absurd ?_ hother
    rcases List.mem_append.mp h with h | h
    · obtain ⟨piece, hpiece, hadmits⟩ := hchars c h
      simp only [shellVar, List.mem_cons, List.not_mem_nil, or_false] at hpiece
      rcases hpiece with rfl | rfl | rfl | rfl | rfl | rfl
      · rw [of_decide_eq_true hadmits]
        decide
      · rw [of_decide_eq_true hadmits]
        decide
      · exact absurd (hadmits.symm.trans hword) (by decide)
      · exact absurd (hadmits.symm.trans hword) (by decide)
      · rw [of_decide_eq_true hadmits]
        decide
      · cases hadmits
    · rw [atEnd, decide_eq_true_eq] at hend
      rcases hend with hend | hend
      · rw [hend] at h
        cases h
      · rw [hend, List.mem_singleton] at h
        rw [h]
        decide

theorem shellVar_literal (q : Name) : matchAt (shellVar alnum) none q.name = none := by
  obtain ⟨c, cs, hname⟩ := List.exists_cons_of_ne_nil q.nonempty
  have hc := q.chars c (by simp [hname])
  have hne : c ≠ dollar := by
    rintro rfl
    cases hc
  rw [hname, shellVar, matchAt_one_cons, if_neg (by simpa [isChar] using hne)]

theorem comma_mem_join {p : Text} {ps : List Text} (h : ps ≠ []) : comma ∈ join (text ",") (p :: ps) := by
  rw [join_cons h]
  exact List.mem_append_left _ (List.mem_append_right p (by decide))

/-- A list is taken for a variable when a reference is all that is seen of it. -/
theorem shellVar_front {items : List Padded} (h : items ≠ []) :
    (∃ braced x m, front items = [some (.reference braced x)] ∧
      matchAt (shellVar alnum) none (frontOf items) = some m ∧ varGroup m.1 = x.name) ∨
    ((∀ braced x, front items ≠ [some (.reference braced x)]) ∧
      matchAt (shellVar alnum) none (frontOf items) = none) := by
  rw [frontOf]
  cases hfront : front items with
  | nil => exact absurd hfront (front_ne_nil h)
  | cons i is =>
    by_cases his : is = []
    · subst his
      rw [List.map_singleton, join_singleton]
      cases i with
      | none => exact .inr ⟨by simp, matchAt_one_nil⟩
      | some i =>
        cases i with
        | literal q => exact .inr ⟨by simp, shellVar_literal alnum q⟩
        | reference braced x =>
          obtain ⟨m, hm, hgroup⟩ := shellVar_reference alnum braced x
          exact .inl ⟨braced, x, m, rfl, hm, hgroup⟩
    · refine .inr ⟨by simp [his], shellVar_none (c := comma) alnum ?_ rfl (by decide)⟩
      rw [List.map_cons]
      exact comma_mem_join (by simpa using his)

/-- An option is resolved when a reference is all that is seen of its list. -/
theorem shellVar_seen (o : QueueOption) :
    (∃ braced x m, some (.reference braced x) ∈ front o.value.items ∧
      o.seen = (Item.reference braced x).written ∧ matchAt (shellVar alnum) none o.seen = some m ∧
      varGroup m.1 = x.name) ∨
    ((∀ braced x, o.seen ≠ (Item.reference braced x).written) ∧
      matchAt (shellVar alnum) none o.seen = none) := by
  have hnone : matchAt (shellVar alnum) none o.seen = none →
      ∀ braced x, o.seen ≠ (Item.reference braced x).written := by
    intro hno braced x hseen
    obtain ⟨m, hm, -⟩ := shellVar_reference alnum braced x
    rw [← hseen, hno] at hm
    cases hm
  rcases seen_cases o with hseen | ⟨-, c, hc, hoperator⟩
  · rcases shellVar_front alnum o.value.nonempty with ⟨braced, x, m, hfront, hmatch, hgroup⟩ | ⟨-, hmatch⟩
    · refine .inl ⟨braced, x, m, by rw [hfront]; exact List.mem_cons_self, ?_, by rw [hseen, hmatch], hgroup⟩
      rw [hseen, frontOf, hfront, List.map_singleton, join_singleton]
      rfl
    · rw [← hseen] at hmatch
      exact .inr ⟨hnone hmatch, hmatch⟩
  · have hother : ∀ c ∈ text ";&|<>()", (!isWord (fun _ => false) c &&
        decide (c.val < 128 ∧ c ∉ text "$\x7b\x7d\n")) = true := List.all_eq_true.mp (by decide)
    have hc' := hother c (of_decide_eq_true hoperator)
    rw [Bool.and_eq_true, Bool.not_eq_true', decide_eq_true_eq] at hc'
    obtain ⟨hword, hlt, hplain⟩ := hc'
    have hmatch := shellVar_none alnum hc (by rw [isWord, if_pos hlt] at hword ⊢; exact hword) hplain
    exact .inr ⟨hnone hmatch, hmatch⟩

end Reference

/-! ## The members of a list -/

section Listed

variable {q value : Text}

theorem listed_eq (value : Text) :
    listed value = (fields value).filter (fun q => decide (q ≠ [] ∧ dollar ∉ q)) := by
  have hdollar : ∀ q : Text, dollar ∈ strip q ↔ dollar ∈ q := fun q => mem_stripBy (by decide)
  rw [listed, fields, List.filter_map]
  congr 1
  refine List.filter_congr ?_
  intro q _
  simp [hdollar]

/-- A part of a list that is kept. -/
def Part (t q : Text) : Prop := q ∈ fields t ∧ q ≠ [] ∧ dollar ∉ q

theorem mem_listed : q ∈ listed value ↔ Part value q := by
  rw [listed_eq, List.mem_filter, decide_eq_true_eq]
  rfl

/-- The parts of a list of literal names. -/
theorem part_names {parts : List Text} {names : List Name} (hne : parts ≠ []) (hcomma : ∀ p ∈ parts, comma ∉ p)
    (h : parts.map strip = names.map Name.name) : Part (join (text ",") parts) q ↔ ∃ n ∈ names, q = n.name := by
  rw [Part, fields_join hcomma hne, h, List.mem_map]
  constructor
  · rintro ⟨⟨n, hn, rfl⟩, -, -⟩
    exact ⟨n, hn, rfl⟩
  · rintro ⟨n, hn, rfl⟩
    refine ⟨⟨n, hn, rfl⟩, n.nonempty, ?_⟩
    intro hdollar
    have hc := n.chars dollar hdollar
    cases hc

end Listed

end CeleryTopology
end Testing
end TrShared
