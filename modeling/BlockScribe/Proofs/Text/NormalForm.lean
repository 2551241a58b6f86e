import BlockScribe.Proofs.Text.Tidy
import Mathlib.Data.List.Chain
/-!
# Tidying is a normal form

`Layout.tidy` deletes blanks and nothing else: each of its three steps keeps every other
character and the order of all it keeps (`Text.DropsBlanks`).  What it leaves is tidy
(`Layout.Normal`): no space or tab stands before a line break, since every line but the last is
trimmed at its end and the last is followed by none; there is no line break among the leading
blanks, since the first step drops them up to the last break; and among the trailing blanks
there is at most one, as the last character, since the second step cuts them at their first
break.  The later steps only delete blanks, and the blanks at either end of what is left are
some of those of what they were given (`Text.DropsBlanks.takeWhile_isBlank`,
`Text.DropsBlanks.trailingBlanks`), so the first two properties survive them.

A tidy text is left as it is by each of the three steps, so tidying twice is tidying once
(`tidy_deletes_blanks_to_normal_form`).
-/

namespace BlockScribe

namespace Text

/-- `ys` is `xs` with some of its blanks deleted and nothing else changed. -/
inductive DropsBlanks : List Char → List Char → Prop
  | nil : DropsBlanks [] []
  | keep (c : Char) {xs ys : List Char} : DropsBlanks xs ys → DropsBlanks (c :: xs) (c :: ys)
  | drop {c : Char} {xs ys : List Char} (hc : isBlank c = true) :
      DropsBlanks xs ys → DropsBlanks (c :: xs) ys

/-- The blanks at the end of a text. -/
def trailingBlanks (cs : List Char) : List Char := (cs.reverse.takeWhile isBlank).reverse

namespace DropsBlanks

theorem refl (xs : List Char) : DropsBlanks xs xs := by
  induction xs with
  | nil => exact .nil
  | cons c xs ih => exact .keep c ih

theorem of_blanks {xs : List Char} (h : ∀ c ∈ xs, isBlank c = true) : DropsBlanks xs [] := by
  induction xs with
  | nil => exact .nil
  | cons c xs ih =>
    exact .drop (h c List.mem_cons_self) (ih fun d hd => h d (List.mem_cons_of_mem c hd))

theorem append {xs ys xs' ys' : List Char} (h : DropsBlanks xs ys) (h' : DropsBlanks xs' ys') :
    DropsBlanks (xs ++ xs') (ys ++ ys') := by
  induction h with
  | nil => exact h'
  | keep c _ ih => exact .keep c ih
  | drop hc _ ih => exact .drop hc ih

theorem trans {xs ys zs : List Char} (h : DropsBlanks xs ys) (h' : DropsBlanks ys zs) :
    DropsBlanks xs zs := by
  induction h generalizing zs with
  | nil => exact h'
  | keep c _ ih =>
    cases h' with
    | keep _ h' => exact .keep c (ih h')
    | drop hc h' => exact .drop hc (ih h')
  | drop hc _ ih => exact .drop hc (ih h')

theorem reverse {xs ys : List Char} (h : DropsBlanks xs ys) :
    DropsBlanks xs.reverse ys.reverse := by
  induction h with
  | nil => exact .nil
  | keep c _ ih => simpa using ih.append (refl [c])
  | @drop c _ _ hc _ ih =>
    have hc' : ∀ d ∈ [c], isBlank d = true := by simpa using hc
    simpa using ih.append (of_blanks hc')

/-- **The leading blanks of what is left are some of the leading blanks of the text**: a
character that is no blank is never deleted, so nothing after it can come to lead. -/
theorem takeWhile_isBlank {xs ys : List Char} (h : DropsBlanks xs ys) :
    List.Sublist (ys.takeWhile isBlank) (xs.takeWhile isBlank) := by
  induction h with
  | nil => exact .slnil
  | keep c _ ih =>
    cases hc : isBlank c with
    | true =>
      rw [List.takeWhile_cons_of_pos hc, List.takeWhile_cons_of_pos hc]
      exact ih.cons_cons c
    | false =>
      rw [List.takeWhile_cons_of_neg (by simp [hc])]
      exact List.nil_sublist _
  | @drop c _ _ hc _ ih =>
    rw [List.takeWhile_cons_of_pos hc]
    exact ih.cons c

/-- The trailing blanks of what is left are some of the trailing blanks of the text. -/
theorem trailingBlanks {xs ys : List Char} (h : DropsBlanks xs ys) :
    List.Sublist (Text.trailingBlanks ys) (Text.trailingBlanks xs) :=
  h.reverse.takeWhile_isBlank.reverse

end DropsBlanks

/-- The trailing blanks of a text that is empty or ends with a character other than a blank,
then blanks, are those blanks. -/
theorem trailingBlanks_split {X Y : List Char}
    (hX : ∀ c, X.getLast? = some c → isBlank c = false) (hY : ∀ c ∈ Y, isBlank c = true) :
    trailingBlanks (X ++ Y) = Y := by
  have hX' : X.reverse.takeWhile isBlank = [] := by
    cases hx : X.reverse with
    | nil => rfl
    | cons c rest =>
      have hc : isBlank c = false := hX c (by rw [← List.head?_reverse, hx]; rfl)
      rw [List.takeWhile_cons_of_neg (by simp [hc])]
  rw [trailingBlanks, List.reverse_append,
    List.takeWhile_append_of_pos fun c hc => hY c (List.mem_reverse.1 hc), hX', List.append_nil,
    List.reverse_reverse]

/-- Nothing of what follows the leading characters of one kind is of that kind. -/
theorem takeWhile_dropWhile {p : Char → Bool} (cs : List Char) :
    (cs.dropWhile p).takeWhile p = [] := by
  cases h : cs.dropWhile p with
  | nil => rfl
  | cons c rest =>
    have hc := List.head?_dropWhile_not p cs
    rw [h] at hc
    exact List.takeWhile_cons_of_neg (by simpa using hc)

end Text

namespace Layout

open Text

/-! ### Spaces and tabs before line breaks -/

/-- One character before another, unless it is a space or a tab before a line break. -/
def CleanBreak (a b : Char) : Prop := b = '\n' → a ≠ ' ' ∧ a ≠ '\t'

theorem cleanBreak_of_ne {a b : Char} (hb : b ≠ '\n') : CleanBreak a b := fun h => absurd h hb

@[simp] theorem cleanBreak_newline_iff {a : Char} : CleanBreak a '\n' ↔ a ≠ ' ' ∧ a ≠ '\t' :=
  ⟨fun h => h rfl, fun h _ => h⟩

theorem cleanBreak_newline (b : Char) : CleanBreak '\n' b := fun _ => by decide

/-- A text without line breaks has no space or tab before one. -/
theorem isChain_cleanBreak_of_not_mem {l : List Char} (h : '\n' ∉ l) : l.IsChain CleanBreak := by
  induction l with
  | nil => exact .nil
  | cons c l ih =>
    refine List.isChain_cons.2 ⟨fun d hd => cleanBreak_of_ne ?_,
      ih fun h' => h (List.mem_cons_of_mem c h')⟩
    rintro rfl
    exact h (List.mem_cons_of_mem c (List.mem_of_mem_head? hd))

/-- **Lines joined by line breaks have no space or tab before a break** exactly when no line but
the last ends with one. -/
theorem isChain_cleanBreak_unlines_iff {A : List (List Char)} {x : List Char}
    (hA : ∀ l ∈ A, '\n' ∉ l) (hx : '\n' ∉ x) :
    (unlines (A ++ [x])).IsChain CleanBreak ↔ ∀ l ∈ A, ∀ c ∈ l.getLast?, c ≠ ' ' ∧ c ≠ '\t' := by
  induction A with
  | nil => simpa [unlines] using isChain_cleanBreak_of_not_mem hx
  | cons l A ih =>
    have hl : l.IsChain CleanBreak := isChain_cleanBreak_of_not_mem (hA l List.mem_cons_self)
    -- the line, the break after it, then the other lines; a break may stand before anything
    rw [List.cons_append, unlines_cons_of_ne_nil l (by simp), List.append_assoc,
      List.singleton_append, List.isChain_append, List.isChain_cons,
      ih fun m hm => hA m (List.mem_cons_of_mem l hm)]
    simp only [hl, true_and, List.head?_cons, Option.mem_def, Option.some.injEq, forall_eq',
      cleanBreak_newline, implies_true, cleanBreak_newline_iff, List.forall_mem_cons]
    exact and_comm

/-- The last character of a trimmed line is no space or tab. -/
theorem getLast?_trimLineEnd (l : List Char) :
    ∀ c ∈ (trimLineEnd l).getLast?, c ≠ ' ' ∧ c ≠ '\t' := by
  intro c hc
  rw [trimLineEnd, List.getLast?_reverse, Option.mem_def] at hc
  have hhead := List.head?_dropWhile_not (fun c => c == ' ' || c == '\t') l.reverse
  rw [hc] at hhead
  simpa using hhead

/-- A line that does not end with a space or a tab is its own trimming. -/
theorem trimLineEnd_of_getLast {l : List Char} (h : ∀ c ∈ l.getLast?, c ≠ ' ' ∧ c ≠ '\t') :
    trimLineEnd l = l := by
  rw [trimLineEnd]
  cases hl : l.reverse with
  | nil => simpa using (List.reverse_eq_nil_iff.1 hl).symm
  | cons c rest =>
    have hc := h c (by rw [← List.head?_reverse, hl]; rfl)
    rw [List.dropWhile_cons_of_neg (by simpa using hc), ← hl, List.reverse_reverse]

/-- **No space or tab is left before a line break**: every line but the last is trimmed, and
the last is followed by none. -/
theorem isChain_cleanBreak_trimLineEnds (cs : List Char) :
    (trimLineEnds cs).IsChain CleanBreak := by
  obtain ⟨A, x, hls, hA, hx⟩ := exists_lines_concat cs
  have hA' : ∀ l ∈ A.map trimLineEnd, '\n' ∉ l := by
    intro l hl
    obtain ⟨m, hm, rfl⟩ := List.mem_map.1 hl
    exact newline_not_mem_trimLineEnd (hA m hm)
  rw [trimLineEnds, hls, List.dropLast_concat, List.getLast?_concat, Option.toList_some,
    isChain_cleanBreak_unlines_iff hA' hx]
  intro l hl
  obtain ⟨m, -, rfl⟩ := List.mem_map.1 hl
  exact getLast?_trimLineEnd m

/-- A text with no space or tab before a line break has nothing to trim. -/
theorem trimLineEnds_of_isChain {cs : List Char} (h : cs.IsChain CleanBreak) :
    trimLineEnds cs = cs := by
  obtain ⟨A, x, hls, hA, hx⟩ := exists_lines_concat cs
  have hends := (isChain_cleanBreak_unlines_iff hA hx).1 (by rwa [← hls, unlines_lines])
  have hmap : A.map trimLineEnd = A := by
    conv_rhs => rw [← List.map_id A]
    exact List.map_congr_left fun l hl => trimLineEnd_of_getLast (hends l hl)
  rw [trimLineEnds, hls, List.dropLast_concat, List.getLast?_concat, Option.toList_some, hmap,
    ← hls, unlines_lines]

/-! ### Each step deletes blanks only -/

theorem dropsBlanks_trimLineEnd (l : List Char) : DropsBlanks l (trimLineEnd l) := by
  have hsplit : trimLineEnd l ++ (l.reverse.takeWhile fun c => c == ' ' || c == '\t').reverse = l := by
    rw [trimLineEnd, ← List.reverse_append, List.takeWhile_append_dropWhile, List.reverse_reverse]
  -- what is trimmed is spaces and tabs
  have hblank : ∀ c ∈ (l.reverse.takeWhile fun c => c == ' ' || c == '\t').reverse,
      isBlank c = true := by
    intro c hc
    have hsp := List.mem_takeWhile_imp (List.mem_reverse.1 hc)
    simp only [Bool.or_eq_true, beq_iff_eq] at hsp
    rcases hsp with rfl | rfl <;> rfl
  have h := (DropsBlanks.refl (trimLineEnd l)).append (DropsBlanks.of_blanks hblank)
  rwa [List.append_nil, hsplit] at h

theorem dropsBlanks_trimLineEnds (cs : List Char) : DropsBlanks cs (trimLineEnds cs) := by
  obtain ⟨A, x, hls, -, -⟩ := exists_lines_concat cs
  have hcs : cs = unlines (A ++ [x]) := by rw [← hls, unlines_lines]
  rw [trimLineEnds, hls, List.dropLast_concat, List.getLast?_concat, Option.toList_some, hcs]
  clear hls hcs
  -- the lines before the last are trimmed one by one
  induction A with
  | nil => exact .refl _
  | cons a A ih =>
    rw [List.map_cons, List.cons_append, List.cons_append, unlines_cons_of_ne_nil _ (by simp),
      unlines_cons_of_ne_nil _ (by simp)]
    exact ((dropsBlanks_trimLineEnd a).append (.refl ['\n'])).append ih

/-- What `closeTrailing` does: a text is a part that is empty or ends with a character other
than a blank, then blanks; blanks that hold a line break are cut after the first, and otherwise
the text is kept. -/
theorem closeTrailing_cases (cs : List Char) :
    ∃ X Y, cs = X ++ Y ∧ (∀ c, X.getLast? = some c → isBlank c = false) ∧
      (∀ c ∈ Y, isBlank c = true) ∧
      ((∃ t rest, Y = t ++ '\n' :: rest ∧ '\n' ∉ t ∧ closeTrailing cs = X ++ t ++ ['\n']) ∨
        ('\n' ∉ Y ∧ closeTrailing cs = cs)) := by
  obtain ⟨X, Y, rfl, hX, hY⟩ := exists_trailing_split cs
  refine ⟨X, Y, rfl, hX, hY, ?_⟩
  rw [closeTrailing_split hX hY]
  by_cases hnl : '\n' ∈ Y
  · obtain ⟨t, rest, ht, rfl⟩ := exists_first_newline hnl
    exact .inl ⟨t, rest, rfl, ht, by rw [if_pos hnl, takeWhile_ne_newline ht]⟩
  · exact .inr ⟨hnl, if_neg hnl⟩

theorem dropsBlanks_closeTrailing (cs : List Char) : DropsBlanks cs (closeTrailing cs) := by
  obtain ⟨X, Y, rfl, -, hY, ⟨t, rest, rfl, -, hct⟩ | ⟨-, hct⟩⟩ := closeTrailing_cases cs
  · -- the blanks after the first break among the trailing blanks go
    have hrest : ∀ c ∈ rest, isBlank c = true := fun c hc => hY c (by simp [hc])
    rw [hct]
    simpa using (DropsBlanks.refl (X ++ t ++ ['\n'])).append (DropsBlanks.of_blanks hrest)
  · rw [hct]
    exact .refl _

theorem dropsBlanks_dropLeadingLines (cs : List Char) : DropsBlanks cs (dropLeadingLines cs) := by
  rw [dropLeadingLines_eq]
  split
  · -- the blanks kept are the last of the leading blanks
    obtain ⟨pre, hpre⟩ : ((cs.takeWhile isBlank).reverse.takeWhile (· != '\n')).reverse <:+
        cs.takeWhile isBlank :=
      List.reverse_prefix.1 (by rw [List.reverse_reverse]; exact List.takeWhile_prefix _)
    have hblank : ∀ c ∈ pre, isBlank c = true := fun c hc =>
      List.mem_takeWhile_imp (hpre ▸ List.mem_append_left _ hc)
    have h := (DropsBlanks.of_blanks hblank).append
      (DropsBlanks.refl (((cs.takeWhile isBlank).reverse.takeWhile (· != '\n')).reverse ++
        cs.dropWhile isBlank))
    rwa [List.nil_append, ← List.append_assoc, hpre, List.takeWhile_append_dropWhile] at h
  · exact .refl cs

/-- Tidying deletes blanks and nothing else. -/
theorem dropsBlanks_tidy (cs : List Char) :
    DropsBlanks cs (trimLineEnds (closeTrailing (dropLeadingLines cs))) :=
  ((dropsBlanks_dropLeadingLines cs).trans (dropsBlanks_closeTrailing _)).trans
    (dropsBlanks_trimLineEnds _)

/-! ### The ends of the text -/

/-- **No line break is left among the leading blanks**: what is kept of them comes after the
last break among them, and what follows them is no blank. -/
theorem newline_not_mem_takeWhile_dropLeadingLines (cs : List Char) :
    '\n' ∉ (dropLeadingLines cs).takeWhile isBlank := by
  rw [dropLeadingLines_eq]
  split
  · have hkept : ∀ c ∈ ((cs.takeWhile isBlank).reverse.takeWhile (· != '\n')).reverse,
        isBlank c = true ∧ c ≠ '\n' := by
      intro c hc
      have hc' := List.mem_reverse.1 hc
      exact ⟨List.mem_takeWhile_imp (List.mem_reverse.1 (List.takeWhile_subset _ hc')),
        by simpa using List.mem_takeWhile_imp hc'⟩
    rw [List.takeWhile_append_of_pos fun c hc => (hkept c hc).1, takeWhile_dropWhile,
      List.append_nil]
    exact fun hm => (hkept _ hm).2 rfl
  · assumption

/-- **Among the trailing blanks at most one line break is left, as the last character.** -/
theorem newline_not_mem_dropLast_trailingBlanks_closeTrailing (cs : List Char) :
    '\n' ∉ (trailingBlanks (closeTrailing cs)).dropLast := by
  obtain ⟨X, Y, rfl, hX, hY, ⟨t, rest, rfl, ht, hct⟩ | ⟨hnl, hct⟩⟩ := closeTrailing_cases cs
  · have hblank : ∀ c ∈ t ++ ['\n'], isBlank c = true := by
      intro c hc
      rcases List.mem_append.1 hc with hc | hc
      · exact hY c (by simp [hc])
      · rw [List.mem_singleton.1 hc]
        rfl
    rw [hct, List.append_assoc, trailingBlanks_split hX hblank, List.dropLast_concat]
    exact ht
  · rw [hct, trailingBlanks_split hX hY]
    exact fun hm => hnl (List.dropLast_subset _ hm)

theorem dropLeadingLines_of_not_mem_takeWhile {cs : List Char}
    (h : '\n' ∉ cs.takeWhile isBlank) : dropLeadingLines cs = cs := by
  rw [dropLeadingLines_eq, if_neg h]

/-- Trailing blanks with at most one line break, as the last character, are left as they
are. -/
theorem closeTrailing_of_trailingBlanks {cs : List Char}
    (h : '\n' ∉ (trailingBlanks cs).dropLast) : closeTrailing cs = cs := by
  obtain ⟨X, Y, rfl, hX, hY, ⟨t, rest, rfl, -, hct⟩ | ⟨-, hct⟩⟩ := closeTrailing_cases cs
  · rw [trailingBlanks_split hX hY] at h
    -- the first break among the trailing blanks is the last character
    obtain rfl : rest = [] := by
      by_contra hne
      apply h
      rw [List.dropLast_append_cons, List.dropLast_cons_of_ne_nil hne]
      simp
    rw [hct, List.append_assoc]
  · exact hct

/-! ### Tidy texts -/

/-- A tidy program text: no space or tab before a line break, no line break among its leading
blanks, and among its trailing blanks at most one, as the last character. -/
structure Normal (cs : List Char) : Prop where
  cleanBreaks : cs.IsChain CleanBreak
  leading : '\n' ∉ cs.takeWhile isBlank
  trailing : '\n' ∉ (trailingBlanks cs).dropLast

/-- **What tidying leaves is tidy.**  The last step leaves no space or tab before a break; the
first two make the ends tidy, and the steps after them delete blanks only, which keeps them
tidy. -/
theorem normal_tidy (cs : List Char) :
    Normal (trimLineEnds (closeTrailing (dropLeadingLines cs))) where
  cleanBreaks := isChain_cleanBreak_trimLineEnds _
  leading := fun hm => newline_not_mem_takeWhile_dropLeadingLines cs
    (((dropsBlanks_closeTrailing _).trans (dropsBlanks_trimLineEnds _)).takeWhile_isBlank.subset hm)
  trailing := by
    have hsub := (dropsBlanks_trimLineEnds (closeTrailing (dropLeadingLines cs))).trailingBlanks
    -- the trailing blanks before the last, as a sublist of those before the last
    have hdrop := hsub.reverse.tail
    rw [List.tail_reverse, List.tail_reverse, List.reverse_sublist] at hdrop
    exact fun hm => newline_not_mem_dropLast_trailingBlanks_closeTrailing _ (hdrop.subset hm)

/-- **A tidy text is left as it is** by each step of tidying. -/
theorem tidy_of_normal {cs : List Char} (h : Normal cs) :
    trimLineEnds (closeTrailing (dropLeadingLines cs)) = cs := by
  rw [dropLeadingLines_of_not_mem_takeWhile h.leading, closeTrailing_of_trailingBlanks h.trailing,
    trimLineEnds_of_isChain h.cleanBreaks]

/-- **Tidying deletes blanks into a normal form.**  The tidied program is the program with some
blanks deleted and nothing else changed; no space or tab in it stands before a line break; its
leading blanks hold no line break; its trailing blanks hold at most one, as its last character;
and tidying it again leaves it as it is. -/
theorem tidy_deletes_blanks_to_normal_form (s : String) :
    DropsBlanks s.toList (tidy s).toList ∧
      (∀ c, [c, '\n'] <:+: (tidy s).toList → c ≠ ' ' ∧ c ≠ '\t') ∧
      '\n' ∉ (tidy s).toList.takeWhile isBlank ∧
      '\n' ∉ (trailingBlanks (tidy s).toList).dropLast ∧
      tidy (tidy s) = tidy s := by
  have htidy : (tidy s).toList = trimLineEnds (closeTrailing (dropLeadingLines s.toList)) := by
    rw [tidy, String.toList_ofList]
  have hnormal := normal_tidy s.toList
  rw [← htidy] at hnormal
  refine ⟨?_, fun c hc => ?_, hnormal.leading, hnormal.trailing, ?_⟩
  · rw [htidy]
    exact dropsBlanks_tidy s.toList
  · -- the two characters stand next to each other somewhere in the text
    obtain ⟨pre, post, hy⟩ := hc
    have hsplit : (tidy s).toList = pre ++ c :: '\n' :: post := by
      rw [← hy]
      simp
    exact List.isChain_iff_forall_rel_of_append_cons_cons.1 hnormal.cleanBreaks hsplit rfl
  · calc tidy (tidy s)
        = String.ofList (trimLineEnds (closeTrailing (dropLeadingLines (tidy s).toList))) :=
          tidy.eq_1 _
      _ = tidy s := by rw [tidy_of_normal hnormal, String.ofList_toList]

end Layout

end BlockScribe
