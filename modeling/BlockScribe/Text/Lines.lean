/-!
# Lines of a text

A text is cut at every separator character into pieces (`pieces`); there is always one piece
more than there are separators, and joining the pieces with the separator gives the text back
(`intercalate_pieces`).  The lines of a text are its pieces at the newline character.

Source: `cumin-compiler/src/literal.rs`: the lines of `multiline_quote` and `prefix_lines`.
-/

namespace BlockScribe
namespace Text

/-- The pieces of a list of characters between the occurrences of `sep`. -/
def pieces (sep : Char) : List Char → List (List Char)
  | [] => [[]]
  | c :: rest =>
    if c = sep then [] :: pieces sep rest
    else match pieces sep rest with
      | p :: ps => (c :: p) :: ps
      | [] => [[c]]

theorem pieces_ne_nil (sep : Char) (cs : List Char) : pieces sep cs ≠ [] := by
  cases cs with
  | nil => simp [pieces]
  | cons c rest =>
    unfold pieces
    split
    · simp
    · split <;> simp

/-- **Joining the pieces with the separator gives the text back.** -/
theorem intercalate_pieces (sep : Char) (cs : List Char) :
    [sep].intercalate (pieces sep cs) = cs := by
  induction cs with
  | nil => rfl
  | cons c rest ih =>
    unfold pieces
    by_cases h : c = sep
    · subst h
      have hne := pieces_ne_nil c rest
      obtain ⟨p, ps, hp⟩ : ∃ p ps, pieces c rest = p :: ps := by
        cases hq : pieces c rest with
        | nil => exact absurd hq hne
        | cons p ps => exact ⟨p, ps, rfl⟩
      rw [hp] at ih
      simp [hp, List.intercalate_cons_cons, ih]
    · simp only [h, if_false]
      cases hp : pieces sep rest with
      | nil => exact absurd hp (pieces_ne_nil sep rest)
      | cons p ps =>
        rw [hp] at ih
        cases ps with
        | nil => simpa using ih
        | cons q qs => simp [List.intercalate_cons_cons] at ih ⊢; exact ih

/-- The lines of a list of characters. -/
def lines (cs : List Char) : List (List Char) := pieces '\n' cs

/-- Lines joined by newlines. -/
def unlines (ls : List (List Char)) : List Char := ['\n'].intercalate ls

theorem unlines_lines (cs : List Char) : unlines (lines cs) = cs := intercalate_pieces '\n' cs

example : lines "a\nb\n".toList = ["a".toList, "b".toList, []] := by decide

end Text
end BlockScribe
