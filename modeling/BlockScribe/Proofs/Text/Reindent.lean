import BlockScribe.Naming.Registry
import BlockScribe.Text.Literal
/-!
# Re-indenting a text

`reindent` replaces, on every line of a text, each leading two-space unit by another unit of
indentation and keeps a leftover odd space (`reindentLine`).  Read line by line
(`reindentList`), it is a map over the lines of a text, and so it goes through a concatenation
wherever the line the two parts share is re-indented as their two pieces are
(`reindentList_append`): after a text that ends its last line (`Text.Closed`), and before a text
none of whose lines starts with a space (`Text.Flush`), which re-indenting leaves as it is.

Putting a unit before every line of a text that ends its lines commutes with re-indenting
(`reindentList_prefixList`), so indenting a body one level with two spaces and re-indenting the
result gives the body re-indented and indented one level with the other unit.
-/

namespace BlockScribe

namespace Text

/-! ### Lines -/

theorem pieces_cons_of_ne {sep c : Char} {cs p : List Char} {ps : List (List Char)}
    (hc : c ≠ sep) (h : pieces sep cs = p :: ps) : pieces sep (c :: cs) = (c :: p) :: ps := by
  simp [pieces, hc, h]

theorem lines_ne_nil (cs : List Char) : lines cs ≠ [] := pieces_ne_nil _ _

theorem lines_cons_newline (cs : List Char) : lines ('\n' :: cs) = [] :: lines cs := by
  simp [lines, pieces]

theorem lines_of_not_mem {cs : List Char} (h : '\n' ∉ cs) : lines cs = [cs] := by
  induction cs with
  | nil => rfl
  | cons c cs ih =>
    simp only [List.mem_cons, not_or] at h
    exact pieces_cons_of_ne (Ne.symm h.1) (ih h.2)

/-- A line break ends the first line. -/
theorem lines_append_newline {a : List Char} (h : '\n' ∉ a) (b : List Char) :
    lines (a ++ '\n' :: b) = a :: lines b := by
  induction a with
  | nil => exact lines_cons_newline b
  | cons c a ih =>
    simp only [List.mem_cons, not_or] at h
    exact pieces_cons_of_ne (Ne.symm h.1) (ih h.2)

/-- Lines without line breaks joined and cut again are the same lines. -/
theorem lines_unlines {ls : List (List Char)} (hne : ls ≠ []) (h : ∀ l ∈ ls, '\n' ∉ l) :
    lines (unlines ls) = ls := by
  induction ls with
  | nil => exact absurd rfl hne
  | cons l ls ih =>
    cases ls with
    | nil =>
      rw [unlines, List.intercalate_singleton]
      exact lines_of_not_mem (h l List.mem_cons_self)
    | cons l' ls =>
      rw [unlines, List.intercalate_cons_cons, List.append_assoc, List.singleton_append,
        lines_append_newline (h l List.mem_cons_self), ← unlines,
        ih (List.cons_ne_nil _ _) fun m hm => h m (List.mem_cons_of_mem l hm)]

/-- The lines of two texts one after the other: the last line of the first and the first line of
the second become one. -/
theorem lines_append (a b : List Char) :
    ∃ A x y B, lines a = A ++ [x] ∧ lines b = y :: B ∧ lines (a ++ b) = A ++ (x ++ y) :: B := by
  induction a with
  | nil =>
    obtain ⟨y, B, hb⟩ : ∃ y B, lines b = y :: B := List.exists_cons_of_ne_nil (pieces_ne_nil _ _)
    exact ⟨[], [], y, B, rfl, hb, by simpa using hb⟩
  | cons c a ih =>
    obtain ⟨A, x, y, B, ha, hb, hab⟩ := ih
    by_cases hc : c = '\n'
    · subst hc
      refine ⟨[] :: A, x, y, B, ?_, hb, ?_⟩
      · rw [lines_cons_newline, ha, List.cons_append]
      · rw [List.cons_append, lines_cons_newline, hab, List.cons_append]
    · -- the first line of `a` gets `c` in front
      cases A with
      | nil =>
        refine ⟨[], c :: x, y, B, ?_, hb, ?_⟩
        · exact pieces_cons_of_ne hc ha
        · exact pieces_cons_of_ne hc hab
      | cons p A =>
        refine ⟨(c :: p) :: A, x, y, B, ?_, hb, ?_⟩
        · exact pieces_cons_of_ne hc ha
        · exact pieces_cons_of_ne hc hab

/-- A text starts with its first line. -/
theorem lines_head_prefix {cs y : List Char} {B : List (List Char)} (h : lines cs = y :: B) :
    ∃ t, cs = y ++ t := by
  rw [← unlines_lines cs, h]
  cases B with
  | nil => exact ⟨[], by simp [unlines]⟩
  | cons z B => exact ⟨['\n'] ++ unlines (z :: B), by simp [unlines, List.intercalate_cons_cons]⟩

theorem unlines_cons_of_ne_nil (l : List Char) {ls : List (List Char)} (h : ls ≠ []) :
    unlines (l :: ls) = l ++ ['\n'] ++ unlines ls :=
  List.intercalate_cons_of_ne_nil h

/-- Joining two texts by lines: the last line of the first goes on with the first of the
second. -/
theorem unlines_append (A : List (List Char)) (x y : List Char) (B : List (List Char)) :
    unlines (A ++ [x]) ++ unlines (y :: B) = unlines (A ++ (x ++ y) :: B) := by
  induction A with
  | nil =>
    cases B with
    | nil => simp [unlines]
    | cons z B => simp [unlines, List.intercalate_cons_cons]
  | cons a A ih =>
    rw [List.cons_append, List.cons_append, unlines_cons_of_ne_nil a (by simp),
      unlines_cons_of_ne_nil a (by simp), List.append_assoc, ih]

theorem unlines_append_nil {ls : List (List Char)} (h : ls ≠ []) :
    unlines (ls ++ [[]]) = unlines ls ++ ['\n'] := by
  obtain ⟨A, x, rfl⟩ : ∃ A x, ls = A ++ [x] :=
    ⟨ls.dropLast, ls.getLast h, (List.dropLast_concat_getLast h).symm⟩
  have h₁ := unlines_append A x [] [[]]
  have h₂ : unlines [[], []] = ['\n'] := rfl
  rw [List.append_nil, h₂] at h₁
  rw [List.append_assoc, List.singleton_append, ← h₁]

/-- A text that ends with a line break has an empty last line. -/
theorem lines_append_newline_end (a : List Char) : lines (a ++ ['\n']) = lines a ++ [[]] := by
  obtain ⟨A, x, y, B, ha, hb, hab⟩ := lines_append a ['\n']
  have hnl : lines ['\n'] = [[], []] := rfl
  rw [hnl] at hb
  obtain ⟨rfl, rfl⟩ := List.cons.inj hb
  rw [hab, ha, List.append_nil, List.append_assoc, List.singleton_append]

/-- A unit before every line, as `prefixList` writes it. -/
theorem prefix_intercalate (pre : List Char) {ls : List (List Char)} (h : ls ≠ []) :
    pre ++ ('\n' :: pre).intercalate ls = unlines (ls.map (pre ++ ·)) := by
  induction ls with
  | nil => exact absurd rfl h
  | cons l ls ih =>
    cases ls with
    | nil => simp [unlines]
    | cons l' ls =>
      rw [List.intercalate_cons_cons, List.map_cons, unlines_cons_of_ne_nil _ (by simp),
        ← ih (List.cons_ne_nil _ _)]
      simp

/-- A unit before every line of a text that ends with a line break. -/
theorem prefixList_of_getLast {cs : List Char} (h : cs.getLast? = some '\n') (pre : List Char) :
    prefixList cs pre = unlines ((lines cs.dropLast).map (pre ++ ·)) ++ ['\n'] := by
  have hne : cs ≠ [] := by
    rintro rfl
    cases h
  rw [prefixList, if_neg (by simpa using hne), if_pos h]
  dsimp only
  have hlines : lines cs.dropLast ≠ [] := pieces_ne_nil _ _
  rw [prefix_intercalate pre hlines]

/-! ### Texts whose lines start with no space -/

/-- Whether no line of a text starts with a space, the text read from the start of a line
(`true`) or from within one (`false`). -/
def flushFrom : Bool → List Char → Bool
  | _, [] => true
  | start, c :: cs => !(start && c == ' ') && flushFrom (c == '\n') cs

/-- Whether reading a text leaves the reader at the start of a line. -/
def endsLine : Bool → List Char → Bool
  | start, [] => start
  | _, c :: cs => endsLine (c == '\n') cs

theorem flushFrom_append (start : Bool) (a b : List Char) :
    flushFrom start (a ++ b) = (flushFrom start a && flushFrom (endsLine start a) b) := by
  induction a generalizing start with
  | nil => simp [flushFrom, endsLine]
  | cons c a ih => simp [flushFrom, endsLine, ih, Bool.and_assoc]

/-- Read from within a line, a text is flush if it is flush from the start of one. -/
theorem flushFrom_false {start : Bool} {cs : List Char} (h : flushFrom start cs = true) :
    flushFrom false cs = true := by
  cases cs with
  | nil => rfl
  | cons c cs =>
    simp only [flushFrom, Bool.and_eq_true] at h ⊢
    exact ⟨by simp, h.2⟩

/-- Characters that are neither spaces nor line breaks: a text of them fits anywhere in a line. -/
def Plain (cs : List Char) : Prop := ∀ c ∈ cs, c ≠ ' ' ∧ c ≠ '\n'

instance : DecidablePred Plain := fun _ => inferInstanceAs (Decidable (∀ _ ∈ _, _))

theorem plain_nil : Plain [] := List.forall_mem_nil _

theorem plain_cons {c : Char} {cs : List Char} (hc : c ≠ ' ' ∧ c ≠ '\n') (h : Plain cs) :
    Plain (c :: cs) :=
  List.forall_mem_cons.2 ⟨hc, h⟩

theorem Plain.append {a b : List Char} (ha : Plain a) (hb : Plain b) : Plain (a ++ b) :=
  List.forall_mem_append.2 ⟨ha, hb⟩

theorem Plain.sublist {a b : List Char} (hb : Plain b) (h : a.Sublist b) : Plain a :=
  fun c hc => hb c (h.subset hc)

theorem plain_flatMap {α : Type} {f : α → List Char} {xs : List α} (h : ∀ x ∈ xs, Plain (f x)) :
    Plain (xs.flatMap f) := by
  intro c hc
  obtain ⟨x, hx, hcx⟩ := List.mem_flatMap.1 hc
  exact h x hx c hcx

/-- A text with neither spaces nor line breaks is flush. -/
theorem flushFrom_of_plain {cs : List Char} (h : Plain cs) (start : Bool) :
    flushFrom start cs = true := by
  induction cs generalizing start with
  | nil => rfl
  | cons c cs ih =>
    obtain ⟨⟨hsp, -⟩, hcs⟩ := List.forall_mem_cons.1 h
    simp [flushFrom, hsp, ih hcs]

/-- The lines of a flush text: none but possibly the first starts with a space, and the first
neither when the text is read from the start of a line. -/
theorem flushFrom_lines {start : Bool} {cs : List Char} (h : flushFrom start cs = true) :
    ∃ y B, lines cs = y :: B ∧ (start = true → y.head? ≠ some ' ') ∧
      ∀ l ∈ B, l.head? ≠ some ' ' := by
  induction cs generalizing start with
  | nil => exact ⟨[], [], rfl, by simp, by simp⟩
  | cons c cs ih =>
    simp only [flushFrom, Bool.and_eq_true] at h
    have hfirst : start = true → c ≠ ' ' := by
      rintro rfl rfl
      simp at h
    obtain ⟨y, B, hcs, hy, hB⟩ := ih h.2
    by_cases hc : c = '\n'
    · subst hc
      refine ⟨[], y :: B, by rw [lines_cons_newline, hcs], by simp, ?_⟩
      intro l hl
      rcases List.mem_cons.1 hl with rfl | hl
      · exact hy (by simp)
      · exact hB l hl
    · refine ⟨c :: y, B, pieces_cons_of_ne hc hcs, fun hstart => ?_, hB⟩
      simpa using hfirst hstart

/-- A text none of whose lines starts with a space is flush. -/
theorem flushFrom_of_lines {start : Bool} {cs : List Char} {y : List Char}
    {B : List (List Char)} (h : lines cs = y :: B) (hy : start = true → y.head? ≠ some ' ')
    (hB : ∀ l ∈ B, l.head? ≠ some ' ') : flushFrom start cs = true := by
  induction cs generalizing start y B with
  | nil => rfl
  | cons c cs ih =>
    obtain ⟨y', B', hcs⟩ : ∃ y B, lines cs = y :: B :=
      List.exists_cons_of_ne_nil (pieces_ne_nil '\n' cs)
    by_cases hc : c = '\n'
    · subst hc
      rw [lines_cons_newline, hcs] at h
      obtain ⟨rfl, rfl⟩ := List.cons.inj h
      simp only [flushFrom, Bool.and_eq_true]
      exact ⟨by simp, ih hcs (fun _ => hB y' List.mem_cons_self)
        fun l hl => hB l (List.mem_cons_of_mem _ hl)⟩
    · have hl : lines (c :: cs) = (c :: y') :: B' := pieces_cons_of_ne hc hcs
      rw [hl] at h
      obtain ⟨rfl, rfl⟩ := List.cons.inj h
      have hsp : start = true → c ≠ ' ' := fun hs hsp => hy hs (by simp [hsp])
      simp only [flushFrom, Bool.and_eq_true]
      refine ⟨?_, ih hcs (by simp [hc]) hB⟩
      cases start <;> simp_all

theorem endsLine_append (start : Bool) (a b : List Char) :
    endsLine start (a ++ b) = endsLine (endsLine start a) b := by
  induction a generalizing start with
  | nil => rfl
  | cons c a ih => exact ih _

/-- A text ends a line where it ends with a line break, or where it is empty and started at one. -/
theorem endsLine_iff {start : Bool} {cs : List Char} :
    endsLine start cs = true ↔ (cs = [] ∧ start = true) ∨ cs.getLast? = some '\n' := by
  induction cs generalizing start with
  | nil => simp [endsLine]
  | cons c cs ih =>
    rw [endsLine, ih]
    cases cs with
    | nil => simp
    | cons d cs => simp

/-- Where a nonempty text leaves the reader does not depend on where it started. -/
theorem endsLine_cons_eq (c : Char) (cs : List Char) (start start' : Bool) :
    endsLine start (c :: cs) = endsLine start' (c :: cs) := rfl

/-- Read from within a line, a text ends a line only if it does read from the start of one. -/
theorem endsLine_true_of_false {cs : List Char} (h : endsLine false cs = true) :
    endsLine true cs = true := by
  cases cs with
  | nil => cases h
  | cons c cs => exact h

/-- A text that ends its last line has an empty last line. -/
theorem lines_of_endsLine {cs : List Char} (h : endsLine true cs = true) :
    ∃ A, lines cs = A ++ [[]] := by
  rcases endsLine_iff.1 h with ⟨rfl, -⟩ | hlast
  · exact ⟨[], rfl⟩
  · obtain ⟨a, rfl⟩ := List.getLast?_eq_some_iff.1 hlast
    exact ⟨lines a, lines_append_newline_end a⟩

/-- A line of a text holds no line break. -/
theorem not_mem_of_mem_lines {cs l : List Char} (h : l ∈ lines cs) : '\n' ∉ l := by
  induction cs generalizing l with
  | nil =>
    simp only [lines, pieces, List.mem_singleton] at h
    simp [h]
  | cons c cs ih =>
    obtain ⟨y, B, hcs⟩ := List.exists_cons_of_ne_nil (pieces_ne_nil '\n' cs)
    by_cases hc : c = '\n'
    · subst hc
      rw [lines_cons_newline] at h
      rcases List.mem_cons.1 h with rfl | h
      · simp
      · exact ih h
    · have hcs' : lines cs = y :: B := hcs
      rw [show lines (c :: cs) = (c :: y) :: B from pieces_cons_of_ne hc hcs] at h
      rcases List.mem_cons.1 h with rfl | h
      · simp only [List.mem_cons, not_or]
        exact ⟨Ne.symm hc, ih (by rw [hcs']; exact List.mem_cons_self)⟩
      · exact ih (by rw [hcs']; exact List.mem_cons_of_mem _ h)

/-- A line of a text is made of characters of the text, in their order. -/
theorem sublist_of_mem_lines {cs l : List Char} (h : l ∈ lines cs) : l.Sublist cs := by
  induction cs generalizing l with
  | nil =>
    simp only [lines, pieces, List.mem_singleton] at h
    simp [h]
  | cons c cs ih =>
    obtain ⟨y, B, hcs⟩ := List.exists_cons_of_ne_nil (pieces_ne_nil '\n' cs)
    by_cases hc : c = '\n'
    · subst hc
      rw [lines_cons_newline] at h
      rcases List.mem_cons.1 h with rfl | h
      · exact List.nil_sublist _
      · exact (ih h).cons _
    · have hcs' : lines cs = y :: B := hcs
      rw [show lines (c :: cs) = (c :: y) :: B from pieces_cons_of_ne hc hcs] at h
      rcases List.mem_cons.1 h with rfl | h
      · exact (ih (by rw [hcs']; exact List.mem_cons_self)).cons_cons c
      · exact (ih (by rw [hcs']; exact List.mem_cons_of_mem _ h)).cons c

/-- A unit before every line of a text that ends its lines, line by line. -/
theorem lines_prefixList {a : List Char} {pre : List Char} (hpre : '\n' ∉ pre) :
    lines (prefixList (a ++ ['\n']) pre) = (lines a).map (pre ++ ·) ++ [[]] := by
  rw [prefixList_of_getLast (by simp), List.dropLast_concat,
    ← unlines_append_nil (by simpa using lines_ne_nil a)]
  refine lines_unlines (by simp) fun l hl => ?_
  simp only [List.mem_append, List.mem_map, List.mem_singleton] at hl
  rcases hl with ⟨m, hm, rfl⟩ | rfl
  · simpa [hpre] using not_mem_of_mem_lines hm
  · simp

end Text

/-! ### Re-indenting line by line -/

/-- A text with every line re-indented from two-space units to `unit`: `reindent` without its
shortcut for two spaces. -/
def reindentList (unit cs : List Char) : List Char :=
  Text.unlines ((Text.lines cs).map (reindentLine unit))

section Reindent

variable {unit : List Char}

@[simp] theorem reindentLine_nil : reindentLine unit [] = [] := rfl

theorem reindentLine_twoSpaces (l : List Char) : reindentLine [' ', ' '] l = l := by
  fun_induction reindentLine [' ', ' '] l with
  | case1 rest ih => rw [ih]; rfl
  | case2 => rfl

/-- A line that does not start with two spaces is left as it is. -/
theorem reindentLine_of_not_two {l : List Char} (h : ∀ rest, l ≠ ' ' :: ' ' :: rest) :
    reindentLine unit l = l := by
  rw [reindentLine.eq_def]
  split
  · rename_i rest
    exact absurd rfl (h rest)
  · rfl

theorem reindentLine_of_head {l : List Char} (h : l.head? ≠ some ' ') :
    reindentLine unit l = l :=
  reindentLine_of_not_two fun rest hl => h (by simp [hl])

/-- Re-indenting stops before a line's first character other than a space. -/
theorem reindentLine_append_of_head (x : List Char) {y : List Char} (hy : y.head? ≠ some ' ') :
    reindentLine unit (x ++ y) = reindentLine unit x ++ y := by
  fun_induction reindentLine unit x with
  | case1 rest ih =>
    rw [List.cons_append, List.cons_append, reindentLine, ih, List.append_assoc]
  | case2 cs hcs =>
    refine reindentLine_of_not_two fun rest h => ?_
    rcases cs with _ | ⟨c, _ | ⟨d, r⟩⟩
    · simp only [List.nil_append] at h
      exact hy (by simp [h])
    · simp only [List.cons_append, List.nil_append, List.cons.injEq] at h
      exact hy (by simp [h.2])
    · simp only [List.cons_append, List.cons.injEq] at h
      exact hcs r (by rw [h.1, h.2.1])

/-- Re-indenting a line that holds a character other than a space stops before the end. -/
theorem reindentLine_append_of_mem {x : List Char} (hx : ∃ c ∈ x, c ≠ ' ') (y : List Char) :
    reindentLine unit (x ++ y) = reindentLine unit x ++ y := by
  fun_induction reindentLine unit x with
  | case1 rest ih =>
    obtain ⟨c, hc, hsp⟩ := hx
    have hrest : ∃ c ∈ rest, c ≠ ' ' := by
      simp only [List.mem_cons] at hc
      rcases hc with rfl | rfl | hc
      · exact absurd rfl hsp
      · exact absurd rfl hsp
      · exact ⟨c, hc, hsp⟩
    rw [List.cons_append, List.cons_append, reindentLine, ih hrest, List.append_assoc]
  | case2 cs hcs =>
    refine reindentLine_of_not_two fun rest h => ?_
    obtain ⟨c, hc, hsp⟩ := hx
    rcases cs with _ | ⟨c', _ | ⟨d, r⟩⟩
    · simp at hc
    · simp only [List.mem_singleton] at hc
      simp only [List.cons_append, List.nil_append, List.cons.injEq] at h
      exact hsp (hc.trans h.1)
    · simp only [List.cons_append, List.cons.injEq] at h
      exact hcs r (by rw [h.1, h.2.1])

/-- **Re-indenting goes through a concatenation** wherever the line that the two texts share is
re-indented as its two pieces are. -/
theorem reindentList_append {a b : List Char}
    (h : ∀ A x y B, Text.lines a = A ++ [x] → Text.lines b = y :: B →
      reindentLine unit (x ++ y) = reindentLine unit x ++ reindentLine unit y) :
    reindentList unit (a ++ b) = reindentList unit a ++ reindentList unit b := by
  obtain ⟨A, x, y, B, ha, hb, hab⟩ := Text.lines_append a b
  rw [reindentList, reindentList, reindentList, ha, hb, hab]
  simp only [List.map_append, List.map_cons, List.map_nil]
  rw [h A x y B ha hb, Text.unlines_append]

/-- After a text that ends its last line, re-indenting goes through a concatenation. -/
theorem reindentList_append_of_endsLine {a : List Char} (ha : Text.endsLine true a = true)
    (b : List Char) : reindentList unit (a ++ b) = reindentList unit a ++ reindentList unit b := by
  obtain ⟨A', hA'⟩ := Text.lines_of_endsLine ha
  refine reindentList_append fun A x y B hA _ => ?_
  have hx : x = [] := by simpa using (List.append_inj' (hA.symm.trans hA') rfl).2
  rw [hx]
  rfl

/-- Before a text that does not start with a space, re-indenting goes through a
concatenation. -/
theorem reindentList_append_of_head (a : List Char) {b : List Char} (hb : b.head? ≠ some ' ') :
    reindentList unit (a ++ b) = reindentList unit a ++ reindentList unit b := by
  refine reindentList_append fun A x y B _ hB => ?_
  -- the first line of `b` starts as `b` does
  have hy : y.head? ≠ some ' ' := by
    obtain ⟨t, rfl⟩ := Text.lines_head_prefix hB
    cases y with
    | nil => simp
    | cons c y => simpa using hb
  rw [reindentLine_append_of_head x hy, reindentLine_of_head hy]

/-- After a character other than a space and a line break, re-indenting goes through a
concatenation with a text that does not start with two spaces. -/
theorem reindentList_append_of_getLast {a b : List Char} {c : Char} (ha : a.getLast? = some c)
    (hsp : c ≠ ' ') (hnl : c ≠ '\n') (hb : ∀ rest, b ≠ ' ' :: ' ' :: rest) :
    reindentList unit (a ++ b) = reindentList unit a ++ reindentList unit b := by
  obtain ⟨a', rfl⟩ := List.getLast?_eq_some_iff.1 ha
  -- the last line of `a` ends with `c`
  obtain ⟨A', x', y', B', ha', hc, hac⟩ := Text.lines_append a' [c]
  rw [Text.lines_of_not_mem (by simpa using hnl.symm)] at hc
  obtain ⟨rfl, rfl⟩ := List.cons.inj hc
  refine reindentList_append fun A x y B hA hB => ?_
  have hx : x = x' ++ [c] := by simpa using (List.append_inj' (hA.symm.trans hac) rfl).2
  have hy : ∀ rest, y ≠ ' ' :: ' ' :: rest := by
    rintro rest rfl
    obtain ⟨t, rfl⟩ := Text.lines_head_prefix hB
    exact hb (rest ++ t) rfl
  rw [reindentLine_append_of_mem ⟨c, by simp [hx], hsp⟩, reindentLine_of_not_two hy]

/-- A text with no line that starts with two spaces is left as it is. -/
theorem reindentList_of_lines {cs : List Char}
    (h : ∀ l ∈ Text.lines cs, ∀ rest, l ≠ ' ' :: ' ' :: rest) : reindentList unit cs = cs := by
  rw [reindentList, List.map_congr_left fun l hl => reindentLine_of_not_two (h l hl),
    List.map_id', Text.unlines_lines]

theorem reindentList_of_flush {cs : List Char} (h : Text.flushFrom true cs = true) :
    reindentList unit cs = cs := by
  obtain ⟨y, B, hcs, hy, hB⟩ := Text.flushFrom_lines h
  refine reindentList_of_lines fun l hl rest hr => ?_
  rw [hcs] at hl
  rcases List.mem_cons.1 hl with rfl | hl
  · exact hy rfl (by simp [hr])
  · exact hB l hl (by simp [hr])

theorem not_mem_reindentLine {l : List Char} (hu : '\n' ∉ unit) (hl : '\n' ∉ l) :
    '\n' ∉ reindentLine unit l := by
  fun_induction reindentLine unit l with
  | case1 rest ih =>
    simp only [List.mem_cons, not_or] at hl
    simp [hu, ih hl.2.2]
  | case2 => exact hl

/-- Re-indenting keeps the lines of a text where they are. -/
theorem lines_reindentList (hu : '\n' ∉ unit) (cs : List Char) :
    Text.lines (reindentList unit cs) = (Text.lines cs).map (reindentLine unit) := by
  refine Text.lines_unlines (by simpa using Text.lines_ne_nil cs) fun l hl => ?_
  obtain ⟨m, hm, rfl⟩ := List.mem_map.1 hl
  exact not_mem_reindentLine hu (Text.not_mem_of_mem_lines hm)

/-- Re-indenting a text that ends with a line break. -/
theorem reindentList_append_newline (a : List Char) :
    reindentList unit (a ++ ['\n']) = reindentList unit a ++ ['\n'] := by
  rw [reindentList, Text.lines_append_newline_end, List.map_append, List.map_singleton,
    reindentLine_nil, Text.unlines_append_nil (by simpa using Text.lines_ne_nil a)]
  rfl

/-- A text that ends its lines is re-indented to the empty text only if it is empty. -/
theorem reindentList_eq_nil {cs : List Char} (h : Text.endsLine true cs = true) :
    reindentList unit cs = [] ↔ cs = [] := by
  rcases Text.endsLine_iff.1 h with ⟨rfl, -⟩ | hlast
  · exact iff_of_true rfl rfl
  · obtain ⟨a, rfl⟩ := List.getLast?_eq_some_iff.1 hlast
    rw [reindentList_append_newline]
    simp

/-- **Indenting commutes with re-indenting**: a text that ends its lines, indented by two
spaces and re-indented, is the text re-indented and indented by the unit. -/
theorem reindentList_prefixList (hu : '\n' ∉ unit) {cs : List Char}
    (h : Text.endsLine true cs = true) :
    reindentList unit (Text.prefixList cs [' ', ' ']) = Text.prefixList (reindentList unit cs) unit := by
  rcases Text.endsLine_iff.1 h with ⟨rfl, -⟩ | hlast
  · rfl
  · obtain ⟨a, rfl⟩ := List.getLast?_eq_some_iff.1 hlast
    rw [reindentList_append_newline, reindentList,
      Text.lines_prefixList (by simp), Text.prefixList_of_getLast (by simp),
      List.dropLast_concat, lines_reindentList hu, List.map_append, List.map_map,
      List.map_map, List.map_singleton, reindentLine_nil,
      Text.unlines_append_nil (by simpa using Text.lines_ne_nil a)]
    rfl

theorem reindentList_twoSpaces (cs : List Char) : reindentList [' ', ' '] cs = cs := by
  rw [reindentList, List.map_congr_left fun l _ => reindentLine_twoSpaces l, List.map_id',
    Text.unlines_lines]

/-- A leading two-space unit becomes the unit. -/
theorem reindentList_twoSpaces_append (cs : List Char) :
    reindentList unit (' ' :: ' ' :: cs) = unit ++ reindentList unit cs := by
  obtain ⟨y, B, hcs⟩ := List.exists_cons_of_ne_nil (Text.lines_ne_nil cs)
  have hl : Text.lines (' ' :: ' ' :: cs) = (' ' :: ' ' :: y) :: B :=
    Text.pieces_cons_of_ne (by decide) (Text.pieces_cons_of_ne (by decide) hcs)
  rw [reindentList, reindentList, hl, hcs, List.map_cons, List.map_cons, reindentLine]
  cases B with
  | nil => simp [Text.unlines]
  | cons z B => simp [Text.unlines_cons_of_ne_nil]

end Reindent

/-! ### Texts -/

namespace Text

/-- No line of a text starts with a space. -/
def Flush (s : String) : Prop := flushFrom true s.toList = true

/-- A text that is empty or ends with a line break: what follows it starts a line. -/
def Closed (s : String) : Prop := endsLine true s.toList = true

/-- A text that can go on after other text on a line: no line but its first starts with a space,
and it does not end with a line break. -/
def Fits (s : String) : Prop := flushFrom false s.toList = true ∧ endsLine false s.toList = false

/-- A text that can stand for an expression: no line of it starts with a space, and it is not
closed, so neither empty nor ending with a line break. -/
def Inline (s : String) : Prop := Flush s ∧ ¬Closed s

instance : DecidablePred Flush := fun _ => inferInstanceAs (Decidable (flushFrom true _ = true))

instance : DecidablePred Closed := fun _ => inferInstanceAs (Decidable (endsLine true _ = true))

instance : DecidablePred Fits := fun _ => inferInstanceAs (Decidable (_ ∧ _))

instance : DecidablePred Inline := fun s => inferInstanceAs (Decidable (Flush s ∧ ¬Closed s))

theorem flushFrom_false_of_not_mem {cs : List Char} (h : '\n' ∉ cs) : flushFrom false cs = true := by
  induction cs with
  | nil => rfl
  | cons c cs ih =>
    simp only [List.mem_cons, not_or] at h
    rw [flushFrom, beq_false_of_ne (Ne.symm h.1), ih h.2]
    rfl

theorem endsLine_false_of_not_mem {cs : List Char} (h : '\n' ∉ cs) : endsLine false cs = false := by
  induction cs with
  | nil => rfl
  | cons c cs ih =>
    simp only [List.mem_cons, not_or] at h
    rw [endsLine, beq_false_of_ne (Ne.symm h.1), ih h.2]

theorem Flush.head {s : String} (h : Flush s) : s.toList.head? ≠ some ' ' := by
  unfold Flush at h
  cases hs : s.toList with
  | nil => simp
  | cons c cs =>
    rw [hs] at h
    simp only [flushFrom, Bool.and_eq_true] at h
    simpa using h.1

theorem Flush.append {a b : String} (ha : Flush a) (hc : Closed a) (hb : Flush b) :
    Flush (a ++ b) := by
  unfold Flush Closed at *
  rw [String.toList_append, flushFrom_append, ha, hc, hb]
  rfl

theorem closed_empty : Closed "" := rfl

theorem Closed.append {a b : String} (ha : Closed a) (hb : Closed b) : Closed (a ++ b) := by
  unfold Closed at *
  rw [String.toList_append, endsLine_append, ha, hb]

theorem closed_append_newline (a : String) : Closed (a ++ "\n") := by
  unfold Closed
  rw [String.toList_append, endsLine_append]
  rfl

theorem Fits.append {a b : String} (ha : Fits a) (hb : Fits b) : Fits (a ++ b) := by
  obtain ⟨ha₁, ha₂⟩ := ha
  obtain ⟨hb₁, hb₂⟩ := hb
  refine ⟨?_, ?_⟩
  · rw [String.toList_append, flushFrom_append, ha₁, ha₂, hb₁]
    rfl
  · rw [String.toList_append, endsLine_append, ha₂, hb₂]

theorem Inline.append {a b : String} (ha : Inline a) (hb : Fits b) : Inline (a ++ b) := by
  obtain ⟨ha₁, ha₂⟩ := ha
  obtain ⟨hb₁, hb₂⟩ := hb
  unfold Flush Closed at *
  rw [Bool.not_eq_true] at ha₂
  refine ⟨?_, ?_⟩
  · show flushFrom true (a ++ b).toList = true
    rw [String.toList_append, flushFrom_append, ha₁, ha₂, hb₁]
    rfl
  · show ¬endsLine true (a ++ b).toList = true
    rw [String.toList_append, endsLine_append, ha₂, hb₂]
    simp

theorem Inline.fits {a : String} (h : Inline a) : Fits a := by
  refine ⟨flushFrom_false h.1, ?_⟩
  cases hc : endsLine false a.toList with
  | false => rfl
  | true => exact absurd (endsLine_true_of_false hc) h.2

theorem Inline.ne_empty {a : String} (h : Inline a) : a ≠ "" := by
  rintro rfl
  exact h.2 closed_empty

/-- A text with neither spaces nor line breaks, if it is not empty, is inline. -/
theorem inline_of_plain {s : String} (hne : s ≠ "") (h : Plain s.toList) : Inline s := by
  refine ⟨flushFrom_of_plain h true, ?_⟩
  obtain ⟨c, cs, hs⟩ := List.exists_cons_of_ne_nil (mt String.toList_eq_nil_iff.1 hne)
  have hnl : '\n' ∉ s.toList := fun hm => (h _ hm).2 rfl
  unfold Closed
  rw [hs, endsLine_cons_eq c cs true false, ← hs, endsLine_false_of_not_mem hnl]
  simp

/-- Whole lines, none of which starts with a space: a statement that nothing indents. -/
def Unindented (s : String) : Prop := Flush s ∧ Closed s

/-- The end of a line begun before it: no later line starts with a space, and the last one is
ended. -/
def Closes (s : String) : Prop := flushFrom false s.toList = true ∧ endsLine false s.toList = true

instance : DecidablePred Unindented := fun s => inferInstanceAs (Decidable (Flush s ∧ Closed s))

instance : DecidablePred Closes := fun _ => inferInstanceAs (Decidable (_ ∧ _))

theorem unindented_empty : Unindented "" := ⟨rfl, rfl⟩

theorem Unindented.append {a b : String} (ha : Unindented a) (hb : Unindented b) :
    Unindented (a ++ b) :=
  ⟨ha.1.append ha.2 hb.1, ha.2.append hb.2⟩

/-- A line begun inline and ended by what follows is a whole unindented line. -/
theorem Inline.append_closes {a b : String} (ha : Inline a) (hb : Closes b) : Unindented (a ++ b) := by
  obtain ⟨ha₁, ha₂⟩ := ha
  obtain ⟨hb₁, hb₂⟩ := hb
  unfold Flush at ha₁
  unfold Closed at ha₂
  rw [Bool.not_eq_true] at ha₂
  refine ⟨?_, ?_⟩
  · show flushFrom true (a ++ b).toList = true
    rw [String.toList_append, flushFrom_append, ha₁, ha₂, hb₁]
    rfl
  · show endsLine true (a ++ b).toList = true
    rw [String.toList_append, endsLine_append, ha₂, hb₂]

theorem Fits.append_closes {a b : String} (ha : Fits a) (hb : Closes b) : Closes (a ++ b) := by
  obtain ⟨ha₁, ha₂⟩ := ha
  obtain ⟨hb₁, hb₂⟩ := hb
  refine ⟨?_, ?_⟩
  · rw [String.toList_append, flushFrom_append, ha₁, ha₂, hb₁]
    rfl
  · rw [String.toList_append, endsLine_append, ha₂, hb₂]

/-- A nonempty text that ends its last line still does after anything. -/
theorem Closed.append_of_ne {b : String} (hb : Closed b) (hne : b ≠ "") (a : String) :
    Closed (a ++ b) := by
  unfold Closed at *
  rw [String.toList_append, endsLine_append]
  rcases endsLine_iff.1 hb with ⟨hnil, -⟩ | hlast
  · exact absurd (String.toList_eq_nil_iff.1 hnil) hne
  · exact endsLine_iff.2 (Or.inr hlast)

end Text

/-! ### Re-indenting texts -/

section Strings

variable {u : String}

/-- `reindent` re-indents line by line; its shortcut for two spaces changes nothing. -/
theorem reindent_eq (s u : String) :
    reindent s u = String.ofList (reindentList u.toList s.toList) := by
  unfold reindent
  split
  · rename_i h
    rw [show u = "  " by simpa using h, show ("  " : String).toList = [' ', ' '] from rfl,
      reindentList_twoSpaces, String.ofList_toList]
  · rfl

theorem reindent_of_flush {s : String} (h : Text.Flush s) : reindent s u = s := by
  rw [reindent_eq, reindentList_of_flush h, String.ofList_toList]

theorem reindent_append_of_closed {a : String} (h : Text.Closed a) (b : String) :
    reindent (a ++ b) u = reindent a u ++ reindent b u := by
  rw [reindent_eq, reindent_eq, reindent_eq, String.toList_append,
    reindentList_append_of_endsLine h, String.ofList_append]

theorem reindent_of_unindented {s : String} (h : Text.Unindented s) : reindent s u = s :=
  reindent_of_flush h.1

theorem reindent_append_of_head (a : String) {b : String} (h : b.toList.head? ≠ some ' ') :
    reindent (a ++ b) u = reindent a u ++ reindent b u := by
  rw [reindent_eq, reindent_eq, reindent_eq, String.toList_append, reindentList_append_of_head _ h,
    String.ofList_append]

/-- Before a flush text, only the text before it is re-indented. -/
theorem reindent_append_flush (a : String) {b : String} (h : Text.Flush b) :
    reindent (a ++ b) u = reindent a u ++ b := by
  rw [reindent_append_of_head a h.head, reindent_of_flush h]

/-- After a character other than a space and a line break, re-indenting goes through a
concatenation with a text that does not start with two spaces. -/
theorem reindent_append_of_getLast {a b : String} {c : Char} (ha : a.toList.getLast? = some c)
    (hsp : c ≠ ' ') (hnl : c ≠ '\n') (hb : ∀ rest, b.toList ≠ ' ' :: ' ' :: rest) :
    reindent (a ++ b) u = reindent a u ++ reindent b u := by
  rw [reindent_eq, reindent_eq, reindent_eq, String.toList_append,
    reindentList_append_of_getLast ha hsp hnl hb, String.ofList_append]

/-- A leading two-space unit becomes the unit. -/
theorem reindent_twoSpaces_append (s : String) : reindent ("  " ++ s) u = u ++ reindent s u := by
  rw [reindent_eq, reindent_eq, String.toList_append, show ("  " : String).toList = [' ', ' '] from rfl,
    List.cons_append, List.cons_append, List.nil_append, reindentList_twoSpaces_append,
    String.ofList_append, String.ofList_toList]

/-- A text of one line that does not start with two spaces is left as it is. -/
theorem reindent_of_line {s : String} (hnl : '\n' ∉ s.toList)
    (h : ∀ rest, s.toList ≠ ' ' :: ' ' :: rest) : reindent s u = s := by
  rw [reindent_eq, reindentList_of_lines, String.ofList_toList]
  rw [Text.lines_of_not_mem hnl]
  intro l hl
  rw [List.mem_singleton.1 hl]
  exact h

/-- A closed text is re-indented to the empty text only if it is empty. -/
theorem reindent_eq_empty {s : String} (h : Text.Closed s) : reindent s u = "" ↔ s = "" := by
  rw [reindent_eq, ← String.toList_inj, ← String.toList_inj, String.toList_ofList,
    String.toList_empty, reindentList_eq_nil h]

/-- **Indenting commutes with re-indenting**: a closed text indented by two spaces and
re-indented is the text re-indented and indented by the unit. -/
theorem reindent_prefixLines (hu : '\n' ∉ u.toList) {s : String} (h : Text.Closed s) :
    reindent (Text.prefixLines s "  ") u = Text.prefixLines (reindent s u) u := by
  rw [reindent_eq, reindent_eq, Text.prefixLines, Text.prefixLines, String.toList_ofList,
    String.toList_ofList, reindentList_prefixList hu h, String.toList_ofList]

end Strings

end BlockScribe
