import TrShared.Python.Replace

/-!
# TrShared.Python.Output

What `subprocess.run(…, text=True)` makes of the output of a program. Bytes are written as
`os.fsdecode` writes them: those that are not UTF-8 as the surrogates of their own, so that a path and
the output that names it are the same text. The output is decoded strictly, and its line ends are
translated wherever they stand.

* `translateNewlines_append_cons`: every other character parts the translation.
* `words_lines`: lines of one word each are split into the words.
-/

namespace TrShared
namespace Python

/-- The surrogate of a byte that is not UTF-8. -/
def isEscaped (c : CodePoint) : Bool := decide (0xDC80 ≤ c.val ∧ c.val ≤ 0xDCFF)

def translateNewlines (s : Text) : Text :=
  replaceAll (text "\r") (text "\n") (replaceAll (text "\r\n") (text "\n") s)

/-- `none` is the `UnicodeDecodeError`. -/
def decodeOutput (out : Text) : Option Text :=
  if out.any isEscaped then none else some (translateNewlines out)

/-- `s.split()`. -/
def words (s : Text) : List Text := (s.splitOnP isSpace).filter (fun w => !w.isEmpty)

section Newlines

variable {c : CodePoint} {a b s : Text}

theorem translateNewlines_append_cons (hc : c ∉ text "\r\n") :
    translateNewlines (a ++ c :: b) = translateNewlines a ++ c :: translateNewlines b := by
  have hr : c ∉ text "\r" := fun h => hc (List.mem_append_left (text "\n") h)
  simp only [translateNewlines]
  rw [replaceAll_separator (by decide) hc, replaceAll_separator (by decide) hr]

theorem translateNewlines_of_not_mem (h : codePoint '\r' ∉ s) : translateNewlines s = s := by
  have hcrlf : ¬ text "\r\n" <:+: s := fun hi => h (hi.subset (by decide))
  have hcr : ¬ text "\r" <:+: s := fun hi => h (hi.subset (by decide))
  rw [translateNewlines, replaceAll_of_absent hcrlf, replaceAll_of_absent hcr]

theorem mem_translateNewlines (h : c ∈ translateNewlines s) : c = codePoint '\n' ∨ c ∈ s := by
  have hlf : text "\n" = [codePoint '\n'] := rfl
  rcases mem_replaceAll (by decide) h with h | h
  · rw [hlf, List.mem_singleton] at h
    exact .inl h
  · rcases mem_replaceAll (by decide) h with h | h
    · rw [hlf, List.mem_singleton] at h
      exact .inl h
    · exact .inr h

end Newlines

section Words

variable {c : CodePoint} {w rest : Text}

theorem words_append_cons (hw : ∀ x ∈ w, isSpace x = false) (hne : w ≠ []) (hc : isSpace c = true) :
    words (w ++ c :: rest) = w :: words rest := by
  rw [words, List.splitOnP_append_cons_of_forall_mem hw c hc, List.filter_cons_of_pos (by simpa using hne)]
  rfl

theorem words_word (hw : ∀ x ∈ w, isSpace x = false) (hne : w ≠ []) : words w = [w] := by
  rw [words, List.splitOnP_eq_singleton hw, List.filter_cons_of_pos (by simpa using hne)]
  rfl

/-- By induction on the lines. -/
theorem words_lines {lines : List Text} (hc : isSpace c = true)
    (h : ∀ w ∈ lines, w ≠ [] ∧ ∀ x ∈ w, isSpace x = false) :
    words (lines.flatMap (fun w => w ++ [c])) = lines := by
  induction lines with
  | nil => rfl
  | cons w lines ih =>
    obtain ⟨hne, hw⟩ := h w List.mem_cons_self
    rw [List.flatMap_cons, List.append_assoc, List.singleton_append, words_append_cons hw hne hc,
      ih (fun w hw => h w (List.mem_cons_of_mem _ hw))]

end Words

end Python
end TrShared
