import BlockScribe.Proofs.Text.Reindent
import BlockScribe.Generate.Layout
import Mathlib.Data.List.TakeWhile
/-!
# Tidying commutes with re-indenting

`Layout.tidy` normalises a program text in three steps: the blank lines before the first line
that holds more than blanks are dropped (`dropLeadingLines`), the blank lines after the last such
line collapse into one line break (`closeTrailing`), and every line but the last loses its
trailing spaces and tabs (`trimLineEnds`).

Re-indenting to a unit made of spaces and tabs changes only the indentation at the start of each
line.  A line stays blank exactly when it was (`all_isBlank_reindentLine`), trimming the end of a
line and re-indenting its start do not meet (`trimLineEnd_reindentLine`), and the characters after
a line's indentation stay where they are.  So each of the three steps commutes with re-indenting,
and so does `tidy` (`tidy_reindent`).
-/

namespace BlockScribe

namespace Text

theorem mem_unlines {c : Char} {ls : List (List Char)} (h : c ∈ unlines ls) :
    c = '\n' ∨ ∃ l ∈ ls, c ∈ l := by
  induction ls with
  | nil => simp [unlines] at h
  | cons l ls ih =>
    cases ls with
    | nil => exact .inr ⟨l, List.mem_singleton_self l, by simpa [unlines] using h⟩
    | cons l' ls =>
      rw [unlines_cons_of_ne_nil _ (List.cons_ne_nil _ _)] at h
      simp only [List.mem_append, List.mem_singleton] at h
      rcases h with (h | h) | h
      · exact .inr ⟨l, List.mem_cons_self, h⟩
      · exact .inl h
      · rcases ih h with h | ⟨m, hm, hc⟩
        · exact .inl h
        · exact .inr ⟨m, List.mem_cons_of_mem _ hm, hc⟩

theorem mem_of_mem_lines {c : Char} {cs l : List Char} (hl : l ∈ lines cs) (hc : c ∈ l) :
    c ∈ cs := by
  induction cs generalizing l with
  | nil =>
    simp only [lines, pieces, List.mem_singleton] at hl
    simp [hl] at hc
  | cons d cs ih =>
    obtain ⟨y, B, hcs⟩ := List.exists_cons_of_ne_nil (pieces_ne_nil '\n' cs)
    have hcs' : lines cs = y :: B := hcs
    by_cases hd : d = '\n'
    · subst hd
      rw [lines_cons_newline] at hl
      rcases List.mem_cons.1 hl with rfl | hl
      · simp at hc
      · exact List.mem_cons_of_mem _ (ih hl hc)
    · rw [show lines (d :: cs) = (d :: y) :: B from pieces_cons_of_ne hd hcs] at hl
      rcases List.mem_cons.1 hl with rfl | hl
      · rcases List.mem_cons.1 hc with rfl | hc
        · exact List.mem_cons_self
        · exact List.mem_cons_of_mem _ (ih (by rw [hcs']; exact List.mem_cons_self) hc)
      · exact List.mem_cons_of_mem _ (ih (by rw [hcs']; exact List.mem_cons_of_mem _ hl) hc)

/-- A text with a line break in it: its first line, the break, and the rest. -/
theorem exists_first_newline {cs : List Char} (h : '\n' ∈ cs) :
    ∃ l rest, '\n' ∉ l ∧ cs = l ++ '\n' :: rest := by
  induction cs with
  | nil => simp at h
  | cons c cs ih =>
    by_cases hc : c = '\n'
    · exact ⟨[], cs, by simp, by simp [hc]⟩
    · obtain ⟨l, rest, hl, rfl⟩ := ih ((List.mem_cons.1 h).resolve_left (Ne.symm hc))
      exact ⟨c :: l, rest, by simp [Ne.symm hc, hl], rfl⟩

/-- The characters up to the first line break. -/
theorem takeWhile_ne_newline {t : List Char} (ht : '\n' ∉ t) (rest : List Char) :
    (t ++ '\n' :: rest).takeWhile (· != '\n') = t := by
  rw [List.takeWhile_append_of_pos fun d hd => by simpa using ne_of_mem_of_not_mem hd ht,
    List.takeWhile_cons_of_neg (by simp), List.append_nil]

/-- The lines of a text: those before the last, and the last; none holds a line break. -/
theorem exists_lines_concat (cs : List Char) :
    ∃ A x, lines cs = A ++ [x] ∧ (∀ l ∈ A, '\n' ∉ l) ∧ '\n' ∉ x := by
  obtain ⟨A, x, hls⟩ : ∃ A x, lines cs = A ++ [x] :=
    ⟨_, _, (List.dropLast_concat_getLast (lines_ne_nil cs)).symm⟩
  have hlines : ∀ l ∈ A ++ [x], '\n' ∉ l := fun l hl => not_mem_of_mem_lines (hls ▸ hl)
  exact ⟨A, x, hls, fun l hl => hlines l (by simp [hl]), hlines x (by simp)⟩

end Text

section Reindent

variable {unit : List Char} (hu : ∀ c ∈ unit, c = ' ' ∨ c = '\t')
include hu

theorem newline_not_mem_unit : '\n' ∉ unit := fun h => by
  rcases hu '\n' h with h | h <;> cases h

theorem isBlank_of_mem_unit {c : Char} (hc : c ∈ unit) : Text.isBlank c = true := by
  rcases hu c hc with rfl | rfl <;> rfl

omit hu in
theorem mem_reindentLine {c : Char} {l : List Char} (h : c ∈ reindentLine unit l) :
    c ∈ unit ∨ c ∈ l := by
  fun_induction reindentLine unit l with
  | case1 rest ih =>
    rcases List.mem_append.1 h with h | h
    · exact .inl h
    · exact (ih h).imp_right fun h => List.mem_cons_of_mem _ (List.mem_cons_of_mem _ h)
  | case2 => exact .inr h

omit hu in
/-- Re-indenting keeps every character of a line but spaces. -/
theorem mem_reindentLine_of_ne {c : Char} {l : List Char} (hc : c ∈ l) (hsp : c ≠ ' ') :
    c ∈ reindentLine unit l := by
  fun_induction reindentLine unit l with
  | case1 rest ih =>
    simp only [List.mem_cons] at hc
    rcases hc with rfl | rfl | hc
    · exact absurd rfl hsp
    · exact absurd rfl hsp
    · exact List.mem_append_right _ (ih hc)
  | case2 => exact hc

/-- A re-indented line is blank exactly when the line was. -/
theorem all_isBlank_reindentLine (l : List Char) :
    (reindentLine unit l).all Text.isBlank = l.all Text.isBlank := by
  fun_induction reindentLine unit l with
  | case1 rest ih =>
    have hunit : unit.all Text.isBlank = true :=
      List.all_eq_true.2 fun c hc => isBlank_of_mem_unit hu hc
    rw [List.all_append, hunit, ih]
    rfl
  | case2 => rfl

/-- Re-indenting a text of blanks gives blanks. -/
theorem isBlank_of_mem_reindentList {cs : List Char} (h : ∀ c ∈ cs, Text.isBlank c = true)
    {c : Char} (hc : c ∈ reindentList unit cs) : Text.isBlank c = true := by
  rcases Text.mem_unlines hc with rfl | ⟨l, hl, hcl⟩
  · rfl
  · obtain ⟨m, hm, rfl⟩ := List.mem_map.1 hl
    rcases mem_reindentLine hcl with hcu | hcm
    · exact isBlank_of_mem_unit hu hcu
    · exact h c (Text.mem_of_mem_lines hm hcm)

omit hu in
/-- Re-indenting a text line by line: its first line, then the rest. -/
theorem reindentList_line_cons {l : List Char} (hl : '\n' ∉ l) (rest : List Char) :
    reindentList unit (l ++ '\n' :: rest) = reindentLine unit l ++ '\n' :: reindentList unit rest := by
  rw [reindentList, Text.lines_append_newline hl, List.map_cons,
    Text.unlines_cons_of_ne_nil _ (by simpa using Text.lines_ne_nil rest), reindentList]
  simp

omit hu in
/-- After a character other than a space and a line break, the rest of the line stays as it
is. -/
theorem reindentList_append_of_getLast_line {a b : List Char} {c : Char}
    (ha : a.getLast? = some c) (hsp : c ≠ ' ') (hnl : c ≠ '\n') (hb : '\n' ∉ b) :
    reindentList unit (a ++ b) = reindentList unit a ++ b := by
  obtain ⟨a', rfl⟩ := List.getLast?_eq_some_iff.1 ha
  obtain ⟨A, x, y, B, ha', hb', hab⟩ := Text.lines_append (a' ++ [c]) b
  rw [Text.lines_of_not_mem hb] at hb'
  obtain ⟨rfl, rfl⟩ := List.cons.inj hb'
  -- the last line of `a` holds `c`
  have hx : ∃ d ∈ x, d ≠ ' ' := by
    obtain ⟨A', x', y', B', -, hc, hac⟩ := Text.lines_append a' [c]
    rw [Text.lines_of_not_mem (by simpa using hnl.symm)] at hc
    obtain ⟨rfl, rfl⟩ := List.cons.inj hc
    have hx : x = x' ++ [c] := by simpa using (List.append_inj' (ha'.symm.trans hac) rfl).2
    exact ⟨c, by simp [hx], hsp⟩
  rw [reindentList, reindentList, hab, ha', List.map_append, List.map_append, List.map_singleton,
    List.map_singleton, reindentLine_append_of_mem hx, ← Text.unlines_append]
  simp [Text.unlines]

/-! ### Trailing spaces and tabs -/

omit hu in
theorem trimLineEnd_append (a : List Char) {b : List Char}
    (hb : ∃ c ∈ b, ¬(c = ' ' ∨ c = '\t')) : Layout.trimLineEnd (a ++ b) = a ++ Layout.trimLineEnd b := by
  have hdrop : (b.reverse.dropWhile fun c => c == ' ' || c == '\t').isEmpty = false := by
    obtain ⟨c, hc, hsp⟩ := hb
    rw [Bool.eq_false_iff, ne_eq, List.isEmpty_iff, List.dropWhile_eq_nil_iff]
    intro hall
    have := hall c (List.mem_reverse.2 hc)
    simp only [Bool.or_eq_true, beq_iff_eq] at this
    exact hsp this
  rw [Layout.trimLineEnd, Layout.trimLineEnd, List.reverse_append, List.dropWhile_append, hdrop]
  simp

omit hu in
theorem trimLineEnd_of_forall {l : List Char} (h : ∀ c ∈ l, c = ' ' ∨ c = '\t') :
    Layout.trimLineEnd l = [] := by
  rw [Layout.trimLineEnd, List.reverse_eq_nil_iff, List.dropWhile_eq_nil_iff]
  intro c hc
  simpa using h c (List.mem_reverse.1 hc)

omit hu in
theorem trimLineEnd_prefix (l : List Char) : Layout.trimLineEnd l <+: l := by
  rw [Layout.trimLineEnd, ← List.reverse_suffix, List.reverse_reverse]
  exact List.dropWhile_suffix _

omit hu in
theorem newline_not_mem_trimLineEnd {l : List Char} (h : '\n' ∉ l) :
    '\n' ∉ Layout.trimLineEnd l := by
  obtain ⟨t, ht⟩ := trimLineEnd_prefix l
  exact fun hm => h (ht ▸ List.mem_append_left t hm)

/-- Trimming the end of a line and re-indenting its start do not meet. -/
theorem trimLineEnd_reindentLine (l : List Char) :
    Layout.trimLineEnd (reindentLine unit l) = reindentLine unit (Layout.trimLineEnd l) := by
  fun_induction reindentLine unit l with
  | case1 rest ih =>
    by_cases hall : ∀ c ∈ rest, c = ' ' ∨ c = '\t'
    · -- a line of spaces and tabs is trimmed away, before and after
      have hl : ∀ c ∈ ' ' :: ' ' :: rest, c = ' ' ∨ c = '\t' := by
        intro c hc
        simp only [List.mem_cons] at hc
        rcases hc with rfl | rfl | hc
        · exact .inl rfl
        · exact .inl rfl
        · exact hall c hc
      rw [trimLineEnd_of_forall hl, reindentLine_nil, trimLineEnd_of_forall]
      intro c hc
      rcases List.mem_append.1 hc with hc | hc
      · exact hu c hc
      · rcases mem_reindentLine hc with hc | hc
        · exact hu c hc
        · exact hall c hc
    · obtain ⟨c, hc, hsp⟩ : ∃ c ∈ rest, ¬(c = ' ' ∨ c = '\t') := by
        by_contra hnone
        exact hall fun c hc => by_contra fun hsp => hnone ⟨c, hc, hsp⟩
      -- the character `c` stays, and the trimming stops after it
      have hr : ∃ d ∈ reindentLine unit rest, ¬(d = ' ' ∨ d = '\t') :=
        ⟨c, mem_reindentLine_of_ne hc fun h => hsp (.inl h), hsp⟩
      rw [trimLineEnd_append unit hr, ih, show ' ' :: ' ' :: rest = [' ', ' '] ++ rest from rfl,
        trimLineEnd_append _ ⟨c, hc, hsp⟩]
      rfl
  | case2 cs hcs =>
    refine (reindentLine_of_not_two fun rest h => ?_).symm
    obtain ⟨t, ht⟩ := trimLineEnd_prefix cs
    rw [h] at ht
    exact hcs (rest ++ t) ht.symm

/-- **Trimming line ends commutes with re-indenting.** -/
theorem trimLineEnds_reindentList (cs : List Char) :
    Layout.trimLineEnds (reindentList unit cs) = reindentList unit (Layout.trimLineEnds cs) := by
  have hnl := newline_not_mem_unit hu
  obtain ⟨A, x, hls, hA, hx⟩ := Text.exists_lines_concat cs
  have htrim : ∀ l ∈ A.map Layout.trimLineEnd ++ [x], '\n' ∉ l := by
    intro l hl
    simp only [List.mem_append, List.mem_map, List.mem_singleton] at hl
    rcases hl with ⟨m, hm, rfl⟩ | rfl
    · exact newline_not_mem_trimLineEnd (hA m hm)
    · exact hx
  rw [Layout.trimLineEnds, Layout.trimLineEnds, lines_reindentList hnl, hls, List.map_append,
    List.map_singleton, List.dropLast_concat, List.dropLast_concat, List.getLast?_concat,
    List.getLast?_concat, Option.toList_some, Option.toList_some, reindentList,
    Text.lines_unlines (by simp) htrim, List.map_append, List.map_map, List.map_map,
    List.map_singleton]
  congr 2
  exact List.map_congr_left fun l _ => trimLineEnd_reindentLine hu l

/-! ### Blank lines at the start -/

omit hu in
theorem drop_length_takeWhile (p : Char → Bool) (cs : List Char) :
    cs.drop (cs.takeWhile p).length = cs.dropWhile p := by
  induction cs with
  | nil => rfl
  | cons c cs ih =>
    by_cases hc : p c = true
    · simp [List.takeWhile_cons_of_pos hc, List.dropWhile_cons_of_pos hc, ih]
    · simp [List.takeWhile_cons_of_neg hc, List.dropWhile_cons_of_neg hc]

omit hu in
theorem takeWhile_append_of_not {p : Char → Bool} {xs : List Char} (h : ∃ x ∈ xs, p x = false)
    (ys : List Char) : (xs ++ ys).takeWhile p = xs.takeWhile p := by
  induction xs with
  | nil => simp at h
  | cons x xs ih =>
    by_cases hx : p x = true
    · obtain ⟨y, hy, hpy⟩ := h
      have hy' : y ∈ xs := by
        rcases List.mem_cons.1 hy with rfl | hy
        · simp [hx] at hpy
        · exact hy
      rw [List.cons_append, List.takeWhile_cons_of_pos hx, List.takeWhile_cons_of_pos hx,
        ih ⟨y, hy', hpy⟩]
    · rw [List.cons_append, List.takeWhile_cons_of_neg hx, List.takeWhile_cons_of_neg hx]

omit hu in
/-- `dropLeadingLines` keeps, of the leading blanks, those after the last line break among
them. -/
theorem dropLeadingLines_eq (cs : List Char) :
    Layout.dropLeadingLines cs =
      if '\n' ∈ cs.takeWhile Text.isBlank then
        ((cs.takeWhile Text.isBlank).reverse.takeWhile (· != '\n')).reverse ++
          cs.dropWhile Text.isBlank
      else cs := by
  dsimp only [Layout.dropLeadingLines]
  rw [drop_length_takeWhile]
  by_cases h : '\n' ∈ cs.takeWhile Text.isBlank
  · rw [if_pos h, if_pos (List.contains_iff_mem.2 h)]
  · rw [if_neg h, if_neg (mt List.contains_iff_mem.1 h)]

omit hu in
theorem dropLeadingLines_of_not_mem {l : List Char} (h : '\n' ∉ l) :
    Layout.dropLeadingLines l = l := by
  rw [dropLeadingLines_eq, if_neg fun hm => h (List.takeWhile_subset _ hm)]

omit hu in
/-- A first line of blanks is dropped, and the text after it is tidied at its start in its
place; a first line with more than blanks stops the dropping. -/
theorem dropLeadingLines_line_cons {l : List Char} (hl : '\n' ∉ l) (rest : List Char) :
    Layout.dropLeadingLines (l ++ '\n' :: rest) =
      if l.all Text.isBlank then Layout.dropLeadingLines rest else l ++ '\n' :: rest := by
  split
  · rename_i hblank
    have hall := List.all_eq_true.1 hblank
    have hlead : (l ++ '\n' :: rest).takeWhile Text.isBlank =
        l ++ '\n' :: rest.takeWhile Text.isBlank := by
      rw [List.takeWhile_append_of_pos hall, List.takeWhile_cons_of_pos (by rfl)]
    have hdrop : (l ++ '\n' :: rest).dropWhile Text.isBlank = rest.dropWhile Text.isBlank := by
      rw [List.dropWhile_append, if_pos (by simpa [List.dropWhile_eq_nil_iff] using hall),
        List.dropWhile_cons_of_pos (by rfl)]
    rw [dropLeadingLines_eq, dropLeadingLines_eq rest, hlead, hdrop, if_pos (by simp),
      List.reverse_append, List.reverse_cons, List.append_assoc, List.singleton_append]
    by_cases hL : '\n' ∈ rest.takeWhile Text.isBlank
    · -- the last line break among the blanks is in `rest`
      rw [if_pos hL, takeWhile_append_of_not ⟨'\n', List.mem_reverse.2 hL, by simp⟩]
    · -- the last line break among the blanks ends `l`, and `rest` is kept whole
      rw [if_neg hL, List.takeWhile_append_of_pos (fun c hc => ?_),
        List.takeWhile_cons_of_neg (by simp), List.append_nil, List.reverse_reverse,
        List.takeWhile_append_dropWhile]
      have hc' : c ≠ '\n' := fun h => hL (h ▸ List.mem_reverse.1 hc)
      simpa using hc'
  · rename_i hblank
    have hnot : ∃ c ∈ l, Text.isBlank c = false := by simpa using hblank
    rw [dropLeadingLines_eq, takeWhile_append_of_not hnot,
      if_neg fun hm => hl (List.takeWhile_subset _ hm)]

/-- **Dropping leading blank lines commutes with re-indenting.** -/
theorem dropLeadingLines_reindentList (cs : List Char) :
    Layout.dropLeadingLines (reindentList unit cs) = reindentList unit (Layout.dropLeadingLines cs) := by
  have hnl := newline_not_mem_unit hu
  induction h : cs.length using Nat.strong_induction_on generalizing cs with
  | _ n ih =>
    by_cases hcs : '\n' ∈ cs
    · obtain ⟨l, rest, hl, rfl⟩ := Text.exists_first_newline hcs
      have hrl : '\n' ∉ reindentLine unit l := not_mem_reindentLine hnl hl
      rw [reindentList_line_cons hl, dropLeadingLines_line_cons hrl, dropLeadingLines_line_cons hl,
        all_isBlank_reindentLine hu]
      split
      · exact ih rest.length (by rw [← h, List.length_append, List.length_cons]; omega) rest rfl
      · rw [reindentList_line_cons hl]
    · rw [dropLeadingLines_of_not_mem hcs, reindentList, Text.lines_of_not_mem hcs]
      exact dropLeadingLines_of_not_mem (by simpa [Text.unlines] using not_mem_reindentLine hnl hcs)

/-! ### Blank lines at the end -/

omit hu in
/-- A text that is empty or ends with a character other than a blank, then blanks: `closeTrailing`
cuts the blanks at their first line break, which then ends the text. -/
theorem closeTrailing_split {X Y : List Char}
    (hX : ∀ c, X.getLast? = some c → Text.isBlank c = false) (hY : ∀ c ∈ Y, Text.isBlank c = true) :
    Layout.closeTrailing (X ++ Y) =
      if '\n' ∈ Y then X ++ Y.takeWhile (· != '\n') ++ ['\n'] else X ++ Y := by
  have hkeep : X.reverse.dropWhile Text.isBlank = X.reverse := by
    cases hx : X.reverse with
    | nil => rfl
    | cons c rest =>
      have hc : Text.isBlank c = false := hX c (by rw [← List.head?_reverse, hx]; rfl)
      rw [List.dropWhile_cons_of_neg (by simp [hc])]
  have hbody : Text.dropTrailingBlanks (X ++ Y) = X := by
    have hY' : (Y.reverse.dropWhile Text.isBlank).isEmpty = true := by
      rw [List.isEmpty_iff, List.dropWhile_eq_nil_iff]
      exact fun c hc => hY c (List.mem_reverse.1 hc)
    rw [Text.dropTrailingBlanks, List.reverse_append, List.dropWhile_append, if_pos hY', hkeep,
      List.reverse_reverse]
  dsimp only [Layout.closeTrailing]
  rw [hbody, List.drop_left]
  by_cases h : '\n' ∈ Y
  · rw [if_pos (List.contains_iff_mem.2 h), if_pos h]
  · rw [if_neg (mt List.contains_iff_mem.1 h), if_neg h]

omit hu in
/-- Every text is a text that is empty or ends with a character other than a blank, then
blanks. -/
theorem exists_trailing_split (cs : List Char) :
    ∃ X Y, cs = X ++ Y ∧ (∀ c, X.getLast? = some c → Text.isBlank c = false) ∧
      ∀ c ∈ Y, Text.isBlank c = true := by
  refine ⟨(cs.reverse.dropWhile Text.isBlank).reverse, (cs.reverse.takeWhile Text.isBlank).reverse,
    ?_, fun c hc => ?_, fun c hc => List.mem_takeWhile_imp (List.mem_reverse.1 hc)⟩
  · rw [← List.reverse_append, List.takeWhile_append_dropWhile, List.reverse_reverse]
  · have hhead := List.head?_dropWhile_not Text.isBlank cs.reverse
    rw [List.getLast?_reverse] at hc
    rw [hc] at hhead
    exact hhead

omit hu in
theorem reindentList_line {l : List Char} (hl : '\n' ∉ l) :
    reindentList unit l = reindentLine unit l := by
  rw [reindentList, Text.lines_of_not_mem hl]
  simp [Text.unlines]

omit hu in
/-- Before a line that does not start with a space, the line stays as it is. -/
theorem reindentList_append_line_of_head (a : List Char) {b : List Char} (hnl : '\n' ∉ b)
    (hb : b.head? ≠ some ' ') : reindentList unit (a ++ b) = reindentList unit a ++ b := by
  rw [reindentList_append_of_head a hb, reindentList_line hnl, reindentLine_of_head hb]

/-- A text of blanks, re-indented: its blank lines collapse as they did. -/
theorem closeTrailing_reindentList_blanks {Y : List Char} (hY : ∀ c ∈ Y, Text.isBlank c = true) :
    Layout.closeTrailing (reindentList unit Y) = reindentList unit (Layout.closeTrailing Y) := by
  have hnl := newline_not_mem_unit hu
  have hnone : ∀ c, ([] : List Char).getLast? = some c → Text.isBlank c = false := by simp
  have hA := closeTrailing_split hnone (fun c hc => isBlank_of_mem_reindentList hu hY hc)
  have hB := closeTrailing_split hnone hY
  simp only [List.nil_append] at hA hB
  rw [hA, hB]
  by_cases hYnl : '\n' ∈ Y
  · obtain ⟨t, rest, ht, rfl⟩ := Text.exists_first_newline hYnl
    have hrt : '\n' ∉ reindentLine unit t := not_mem_reindentLine hnl ht
    rw [reindentList_line_cons ht, if_pos (by simp), if_pos hYnl, Text.takeWhile_ne_newline hrt,
      Text.takeWhile_ne_newline ht, reindentList_append_newline, reindentList_line ht]
  · have hrY : '\n' ∉ reindentList unit Y := by
      rw [reindentList_line hYnl]
      exact not_mem_reindentLine hnl hYnl
    rw [if_neg hrY, if_neg hYnl]

/-- **Collapsing trailing blank lines commutes with re-indenting.** -/
theorem closeTrailing_reindentList (cs : List Char) :
    Layout.closeTrailing (reindentList unit cs) = reindentList unit (Layout.closeTrailing cs) := by
  obtain ⟨X, Y, rfl, hX, hY⟩ := exists_trailing_split cs
  rcases List.eq_nil_or_concat X with rfl | ⟨X', c, rfl⟩
  · rw [List.nil_append]
    exact closeTrailing_reindentList_blanks hu hY
  rw [List.concat_eq_append] at hX ⊢
  -- `X` ends with a character `c` other than a blank, which re-indenting keeps last
  have hc : Text.isBlank c = false := hX c (by simp)
  have hsp : c ≠ ' ' := fun h => by simp [h] at hc; cases hc
  have hnl : c ≠ '\n' := fun h => by simp [h] at hc; cases hc
  have hlast : ∀ d, (reindentList unit (X' ++ [c])).getLast? = some d → Text.isBlank d = false := by
    rw [reindentList_append_line_of_head X' (by simpa using hnl.symm) (by simpa using hsp)]
    intro d hd
    simp only [List.getLast?_concat, Option.some.injEq] at hd
    exact hd ▸ hc
  have hX'c : (X' ++ [c]).getLast? = some c := by simp
  rw [closeTrailing_split hX hY]
  by_cases hYnl : '\n' ∈ Y
  · obtain ⟨t, rest, ht, rfl⟩ := Text.exists_first_newline hYnl
    have hblank : ∀ d ∈ t ++ '\n' :: reindentList unit rest, Text.isBlank d = true := by
      intro d hd
      simp only [List.mem_append, List.mem_cons] at hd
      rcases hd with hd | rfl | hd
      · exact hY d (by simp [hd])
      · rfl
      · exact isBlank_of_mem_reindentList hu (fun e he => hY e (by simp [he])) hd
    rw [if_pos hYnl, Text.takeWhile_ne_newline ht, reindentList_append_newline,
      reindentList_append_of_getLast_line hX'c hsp hnl ht,
      show t ++ '\n' :: rest = (t ++ ['\n']) ++ rest by simp, ← List.append_assoc,
      reindentList_append_of_endsLine (by simp [Text.endsLine_append, Text.endsLine]),
      ← List.append_assoc, reindentList_append_newline,
      reindentList_append_of_getLast_line hX'c hsp hnl ht, List.append_assoc, List.append_assoc,
      List.singleton_append, closeTrailing_split hlast hblank, if_pos (by simp),
      Text.takeWhile_ne_newline ht, List.append_assoc]
  · rw [if_neg hYnl, reindentList_append_of_getLast_line hX'c hsp hnl hYnl,
      closeTrailing_split hlast hY, if_neg hYnl]

/-- **Tidying commutes with re-indenting** to a unit of spaces and tabs. -/
theorem tidy_reindentList (cs : List Char) :
    Layout.trimLineEnds (Layout.closeTrailing (Layout.dropLeadingLines (reindentList unit cs))) =
      reindentList unit
        (Layout.trimLineEnds (Layout.closeTrailing (Layout.dropLeadingLines cs))) := by
  rw [dropLeadingLines_reindentList hu, closeTrailing_reindentList hu, trimLineEnds_reindentList hu]

end Reindent

/-- **Tidying a program commutes with re-indenting it** to a unit of spaces and tabs. -/
theorem tidy_reindent {u : String} (hu : ∀ c ∈ u.toList, c = ' ' ∨ c = '\t') (s : String) :
    Layout.tidy (reindent s u) = reindent (Layout.tidy s) u := by
  rw [reindent_eq, reindent_eq, Layout.tidy, Layout.tidy, String.toList_ofList, String.toList_ofList,
    tidy_reindentList hu]

end BlockScribe
