import BlockScribe.Proofs.Text.Tidy
/-!
# What finishing a program text changes

`Layout.tidy` finishes a program text in three steps: it drops the blank lines before the first
line, collapses the blanks after the last character to one line break, and removes the trailing
spaces and tabs of every line but the last.  The last step keeps the number of lines and the
last line as they are (`Text.lines_trimLineEnds`).  The first two remove line breaks, or leave a
last line other than the text's own: dropping a blank line at the start leaves fewer lines
(`Layout.length_lines_dropLeadingLines_lt`), and so does closing blank lines at the end, unless
only blanks without a line break followed the first break there, which are then cut from the
last line (`Layout.closeTrailing_changes`).

So finishing a text removes nothing but trailing spaces and tabs exactly when the blanks before
its first line hold no line break and the blanks after its last character hold at most one,
which ends the text (`Layout.tidy_eq_trimLineEnds_iff`).  Blank lines before a text go with the
first step (`Layout.tidy_newlines_append`), so the definitions and the code of the roots are
finished as the code alone when there are no definitions (`Layout.assemble_eq_tidy_draft`).
-/

namespace BlockScribe

namespace Text

theorem length_lines_append (a b : List Char) :
    (lines (a ++ b)).length + 1 = (lines a).length + (lines b).length := by
  obtain ⟨A, x, y, B, ha, hb, hab⟩ := lines_append a b
  rw [hab, ha, hb]
  simp only [List.length_append, List.length_cons, List.length_nil]
  omega

theorem length_lines_of_not_mem {a : List Char} (h : '\n' ∉ a) : (lines a).length = 1 := by
  rw [lines_of_not_mem h, List.length_singleton]

theorem two_le_length_lines {a : List Char} (h : '\n' ∈ a) : 2 ≤ (lines a).length := by
  obtain ⟨l, rest, hl, rfl⟩ := exists_first_newline h
  rw [lines_append_newline hl, List.length_cons]
  have := List.length_pos_iff.2 (lines_ne_nil rest)
  omega

/-- After a line break, the last line is that of the text after it. -/
theorem getLast?_lines_append_newline (a b : List Char) :
    (lines (a ++ '\n' :: b)).getLast? = (lines b).getLast? := by
  obtain ⟨A, x, y, B, -, hb, hab⟩ := lines_append a ('\n' :: b)
  rw [lines_cons_newline] at hb
  obtain ⟨rfl, rfl⟩ := List.cons.inj hb
  obtain ⟨z, C, hC⟩ := List.exists_cons_of_ne_nil (lines_ne_nil b)
  rw [hab, hC, List.getLast?_append, List.getLast?_cons_cons,
    List.getLast?_eq_some_getLast (List.cons_ne_nil z C), Option.some_or]

/-- **Trimming line ends keeps the lines but for their trailing spaces and tabs**, and the last
line whole. -/
theorem lines_trimLineEnds (cs : List Char) :
    ∃ A x, lines cs = A ++ [x] ∧ lines (Layout.trimLineEnds cs) = A.map Layout.trimLineEnd ++ [x] := by
  obtain ⟨A, x, hls, hA, hx⟩ := exists_lines_concat cs
  have htrim : ∀ l ∈ A.map Layout.trimLineEnd ++ [x], '\n' ∉ l := by
    intro l hl
    simp only [List.mem_append, List.mem_map, List.mem_singleton] at hl
    rcases hl with ⟨m, hm, rfl⟩ | rfl
    · exact newline_not_mem_trimLineEnd (hA m hm)
    · exact hx
  refine ⟨A, x, hls, ?_⟩
  rw [Layout.trimLineEnds, hls, List.dropLast_concat, List.getLast?_concat, Option.toList_some]
  exact lines_unlines (by simp) htrim

theorem length_lines_trimLineEnds (cs : List Char) :
    (lines (Layout.trimLineEnds cs)).length = (lines cs).length := by
  obtain ⟨A, x, hls, htrim⟩ := lines_trimLineEnds cs
  rw [hls, htrim, List.length_append, List.length_append, List.length_map]

theorem getLast?_lines_trimLineEnds (cs : List Char) :
    (lines (Layout.trimLineEnds cs)).getLast? = (lines cs).getLast? := by
  obtain ⟨A, x, hls, htrim⟩ := lines_trimLineEnds cs
  rw [hls, htrim, List.getLast?_concat, List.getLast?_concat]

end Text

namespace Layout

open Text

/-- Finishing the text `cs` removes nothing but trailing spaces and tabs: the blanks before its
first line hold no line break, and the blanks after its last character hold at most one, which
ends the text. -/
def OnlyTrims (cs : List Char) : Prop :=
  '\n' ∉ cs.takeWhile isBlank ∧ '\n' ∉ (cs.reverse.takeWhile isBlank).reverse.dropLast

instance : DecidablePred OnlyTrims := fun _ => inferInstanceAs (Decidable (_ ∧ _))

/-- A blank line at the start is dropped with those after it. -/
theorem dropLeadingLines_newline_cons (rest : List Char) :
    dropLeadingLines ('\n' :: rest) = dropLeadingLines rest := by
  simpa using dropLeadingLines_line_cons (l := []) List.not_mem_nil rest

/-- Dropping a blank line at the start leaves fewer lines. -/
theorem length_lines_dropLeadingLines_lt {cs : List Char} (h : '\n' ∈ cs.takeWhile isBlank) :
    (lines (dropLeadingLines cs)).length < (lines cs).length := by
  rw [dropLeadingLines_eq, if_pos h]
  -- the blanks kept are those after the last line break among them
  have hkept : '\n' ∉ ((cs.takeWhile isBlank).reverse.takeWhile (· != '\n')).reverse := by
    intro hm
    have := List.mem_takeWhile_imp (List.mem_reverse.1 hm)
    simp at this
  have hcs := length_lines_append (cs.takeWhile isBlank) (cs.dropWhile isBlank)
  have hdrop := length_lines_append
    ((cs.takeWhile isBlank).reverse.takeWhile (· != '\n')).reverse (cs.dropWhile isBlank)
  rw [List.takeWhile_append_dropWhile] at hcs
  rw [length_lines_of_not_mem hkept] at hdrop
  have := two_le_length_lines h
  omega

/-- The text that is not blank at its end, and its trailing blanks. -/
theorem eq_trailing_split (cs : List Char) :
    cs = (cs.reverse.dropWhile isBlank).reverse ++ (cs.reverse.takeWhile isBlank).reverse ∧
      (∀ c, (cs.reverse.dropWhile isBlank).reverse.getLast? = some c → isBlank c = false) ∧
      ∀ c ∈ (cs.reverse.takeWhile isBlank).reverse, isBlank c = true := by
  refine ⟨?_, fun c hc => ?_, fun c hc => List.mem_takeWhile_imp (List.mem_reverse.1 hc)⟩
  · rw [← List.reverse_append, List.takeWhile_append_dropWhile, List.reverse_reverse]
  · have hhead := List.head?_dropWhile_not isBlank cs.reverse
    rw [List.getLast?_reverse] at hc
    rw [hc] at hhead
    exact hhead

/-- `closeTrailing` cuts the trailing blanks at their first line break, which then ends the
text. -/
theorem closeTrailing_eq (cs : List Char) :
    closeTrailing cs = if '\n' ∈ (cs.reverse.takeWhile isBlank).reverse then
      (cs.reverse.dropWhile isBlank).reverse ++
        (cs.reverse.takeWhile isBlank).reverse.takeWhile (· != '\n') ++ ['\n']
    else cs := by
  obtain ⟨hcs, hX, hY⟩ := eq_trailing_split cs
  have h := closeTrailing_split hX hY
  rw [← hcs] at h
  exact h

/-- Closing the blanks at the end never adds a line. -/
theorem length_lines_closeTrailing_le (cs : List Char) :
    (lines (closeTrailing cs)).length ≤ (lines cs).length := by
  obtain ⟨hcs, -, -⟩ := eq_trailing_split cs
  rw [closeTrailing_eq]
  split
  · rename_i hn
    generalize (cs.reverse.dropWhile isBlank).reverse = X at hcs ⊢
    generalize (cs.reverse.takeWhile isBlank).reverse = Y at hcs hn ⊢
    obtain ⟨Y₁, Y₂, hY₁, rfl⟩ := exists_first_newline hn
    subst hcs
    rw [takeWhile_ne_newline hY₁, ← List.append_assoc]
    -- one line break in place of the trailing blanks' first one, and what follows it
    have hclosed := length_lines_append (X ++ Y₁) ['\n']
    have hopen := length_lines_append (X ++ Y₁) ('\n' :: Y₂)
    rw [lines_cons_newline, List.length_cons] at hopen
    have hone : (lines ['\n']).length = 2 := rfl
    have := List.length_pos_iff.2 (lines_ne_nil Y₂)
    omega
  · exact le_refl _

/-- Blanks after a first line break: cut at the break, the text has fewer lines, or the blanks,
with no line break among them, are cut from its last line. -/
theorem length_or_getLast?_lines_ne {X Y₁ Y₂ : List Char} (hY₂ : Y₂ ≠ []) :
    (lines (X ++ Y₁ ++ ['\n'])).length < (lines (X ++ Y₁ ++ '\n' :: Y₂)).length ∨
      (lines (X ++ Y₁ ++ ['\n'])).getLast? ≠ (lines (X ++ Y₁ ++ '\n' :: Y₂)).getLast? := by
  by_cases hnl : '\n' ∈ Y₂
  · left
    have hclosed := length_lines_append (X ++ Y₁) ['\n']
    have hopen := length_lines_append (X ++ Y₁) ('\n' :: Y₂)
    rw [lines_cons_newline, List.length_cons] at hopen
    have hone : (lines ['\n']).length = 2 := rfl
    have := two_le_length_lines hnl
    omega
  · right
    rw [getLast?_lines_append_newline, getLast?_lines_append_newline, lines_of_not_mem hnl,
      show lines [] = [[]] from rfl]
    simpa using hY₂.symm

/-- **Closing blank lines at the end changes the lines** when a line break among the trailing
blanks is not the last character. -/
theorem closeTrailing_changes {cs : List Char}
    (h : '\n' ∈ (cs.reverse.takeWhile isBlank).reverse.dropLast) :
    (lines (closeTrailing cs)).length < (lines cs).length ∨
      (lines (closeTrailing cs)).getLast? ≠ (lines cs).getLast? := by
  obtain ⟨hcs, -, -⟩ := eq_trailing_split cs
  have hn : '\n' ∈ (cs.reverse.takeWhile isBlank).reverse := List.dropLast_subset _ h
  rw [closeTrailing_eq, if_pos hn]
  generalize (cs.reverse.dropWhile isBlank).reverse = X at hcs ⊢
  generalize (cs.reverse.takeWhile isBlank).reverse = Y at hcs h hn ⊢
  obtain ⟨Y₁, Y₂, hY₁, rfl⟩ := exists_first_newline hn
  subst hcs
  -- the first line break is not the last character: blanks follow it
  have hY₂ : Y₂ ≠ [] := by
    rintro rfl
    rw [List.dropLast_append_cons, List.dropLast_singleton, List.append_nil] at h
    exact hY₁ h
  rw [takeWhile_ne_newline hY₁, ← List.append_assoc]
  exact length_or_getLast?_lines_ne hY₂

/-- Trailing blanks whose only line break ends the text are kept. -/
theorem closeTrailing_eq_self {cs : List Char}
    (h : '\n' ∉ (cs.reverse.takeWhile isBlank).reverse.dropLast) : closeTrailing cs = cs := by
  obtain ⟨hcs, -, -⟩ := eq_trailing_split cs
  rw [closeTrailing_eq]
  split
  · rename_i hn
    generalize (cs.reverse.dropWhile isBlank).reverse = X at hcs ⊢
    generalize (cs.reverse.takeWhile isBlank).reverse = Y at hcs h hn ⊢
    obtain ⟨Y₁, Y₂, hY₁, rfl⟩ := exists_first_newline hn
    subst hcs
    -- the line break is the last character
    cases Y₂ with
    | nil => rw [takeWhile_ne_newline hY₁, List.append_assoc]
    | cons d Y₂ =>
      rw [List.dropLast_append_cons, List.dropLast_cons_cons] at h
      exact absurd (List.mem_append_right _ List.mem_cons_self) h
  · rfl

/-- **Finishing removes nothing but trailing spaces and tabs exactly when** the blanks before the
first line hold no line break, and those after the last character at most one, which ends the
text: trimming keeps the number of lines and the last line, which the first two steps change
otherwise. -/
theorem trimLineEnds_finish_iff (cs : List Char) :
    trimLineEnds (closeTrailing (dropLeadingLines cs)) = trimLineEnds cs ↔ OnlyTrims cs := by
  constructor
  · intro h
    have hlen := congrArg (fun x => (lines x).length) h
    have hlast := congrArg (fun x => (lines x).getLast?) h
    simp only [length_lines_trimLineEnds, getLast?_lines_trimLineEnds] at hlen hlast
    by_cases hlead : '\n' ∈ cs.takeWhile isBlank
    · have := length_lines_dropLeadingLines_lt hlead
      have := length_lines_closeTrailing_le (dropLeadingLines cs)
      omega
    · rw [dropLeadingLines_eq, if_neg hlead] at hlen hlast
      refine ⟨hlead, fun htrail => ?_⟩
      rcases closeTrailing_changes htrail with hlt | hne
      · omega
      · exact hne hlast
  · rintro ⟨hlead, htrail⟩
    rw [dropLeadingLines_eq, if_neg hlead, closeTrailing_eq_self htrail]

theorem tidy_eq_trimLineEnds_iff (s : String) :
    tidy s = String.ofList (trimLineEnds s.toList) ↔ OnlyTrims s.toList := by
  rw [tidy, String.ofList_inj]
  exact trimLineEnds_finish_iff s.toList

/-- Blank lines before a text are dropped with those at its start. -/
theorem tidy_newlines_append (s : String) : tidy ("\n\n\n" ++ s) = tidy s := by
  have hnl : ("\n\n\n" ++ s).toList = '\n' :: '\n' :: '\n' :: s.toList := by simp
  rw [tidy, tidy, hnl, dropLeadingLines_newline_cons, dropLeadingLines_newline_cons,
    dropLeadingLines_newline_cons]

/-- The program text before it is finished: the definitions, each apart, then the code of the
roots; with no definitions, the code of the roots alone. -/
def draft (definitions : List String) (code : String) : String :=
  if definitions = [] then code else "\n\n".intercalate definitions ++ "\n\n\n" ++ code

/-- A program is its draft, finished: with no definitions, the blank lines before the code of the
roots are dropped when it is finished. -/
theorem assemble_eq_tidy_draft (definitions : List String) (code : String) :
    assemble definitions code = tidy (draft definitions code) := by
  unfold assemble draft
  split
  · rename_i hnil
    rw [hnil, String.intercalate_nil, String.empty_append]
    exact tidy_newlines_append code
  · rfl

end Layout

end BlockScribe
