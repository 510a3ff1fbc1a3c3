import TrShared.Python.Text
import TrShared.Sql.Like

/-!
# TrShared.Db.EscapeLike

`escape_like` of `db/utils.py`: three replacements, each on the output of the one before. The backslash
comes first, so the backslashes that the other two add stay single, and the result is the literal form of
the value (`escapeLike_eq_literal`).

* `escape_like_exact`: what the escaped value matches, alone and between two `%`.
-/

namespace TrShared
namespace Db

open Python Sql

def likeEscapeChar : Text := text "\\"

def escapeLike (value : Text) : Text :=
  let value := replaceAll likeEscapeChar (likeEscapeChar ++ likeEscapeChar) value
  let value := replaceAll (text "%") (likeEscapeChar ++ text "%") value
  replaceAll (text "_") (likeEscapeChar ++ text "_") value

/-- The pattern characters of SQL with `escape="\\"`. -/
def sqlWildcards : Wildcards CodePoint where
  escape := codePoint '\\'
  any := codePoint '%'
  one := codePoint '_'
  escape_ne_any := by decide
  escape_ne_one := by decide
  any_ne_one := by decide

theorem escapeLike_eq_literal (value : Text) : escapeLike value = literal sqlWildcards value := by
  have hesc : likeEscapeChar = [sqlWildcards.escape] := rfl
  have hany : text "%" = [sqlWildcards.any] := rfl
  have hone : text "_" = [sqlWildcards.one] := rfl
  have hea := sqlWildcards.escape_ne_any
  have heo := sqlWildcards.escape_ne_one
  have hao := sqlWildcards.any_ne_one
  simp only [escapeLike, hesc, hany, hone, replaceAll_singleton, List.flatMap_assoc, literal]
  congr 1
  funext a
  by_cases h1 : a = sqlWildcards.escape
  · simp [h1, hea, heo]
  · by_cases h2 : a = sqlWildcards.any
    · simp [h2, hea.symm, heo, hao]
    · by_cases h3 : a = sqlWildcards.one
      · simp [h3, heo.symm, hao.symm]
      · simp [h1, h2, h3]

/-- For all texts: `'%' + escape_like(term) + '%'` matches exactly the texts that contain the term,
`escape_like(term)` exactly the term, and no two terms are escaped alike. -/
theorem escape_like_exact :
    (∀ term s : Text, like sqlWildcards (text "%" ++ escapeLike term ++ text "%") s = true ↔
      term <:+: s) ∧
    (∀ term s : Text, like sqlWildcards (escapeLike term) s = true ↔ s = term) ∧
    Function.Injective escapeLike := by
  have hliteral : escapeLike = literal sqlWildcards := funext escapeLike_eq_literal
  rw [hliteral]
  exact ⟨fun term s => like_contains term, fun term s => like_literal term,
    literal_injective sqlWildcards⟩

/-- A backslash at the end of the term does not reach the closing `%`. -/
example : like sqlWildcards (text "%" ++ escapeLike (text "50%\\") ++ text "%") (text "a50%\\b") =
    true := by decide +kernel

end Db
end TrShared
