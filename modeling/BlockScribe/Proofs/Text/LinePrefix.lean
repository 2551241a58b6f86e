import BlockScribe.Proofs.Text.Denotation
/-!
# A prefix before every line

`Text.prefixLines` puts a prefix before every line of a text and leaves a final line break
alone.  Read on characters it is one rule (`Text.prefixList_concat`): a nonempty text gets the
prefix at its start and after each of its line breaks but the last character, which stays
where it is (`Text.spread` puts the prefix after each line break).  So a text and its prefixed
form are empty together, and, for a prefix with no line break, the lines of the prefixed text
are the prefixed lines of the text, a final line break making one empty line more
(`Text.lines_prefix_spread`).

Prefixing twice is prefixing once with the two prefixes joined, the outer one first
(`Text.prefixList_prefixList`): the prefix of the inner text has no line break, so the outer
prefix lands exactly before the inner one.  This is what lets nested bodies, loop traps and exit
suffixes be indented one level at a time.  The main statement is
`Text.prefixLines_prefixes_each_line`.
-/

namespace BlockScribe
namespace Text

/-- **A prefix before every line**, on characters: the prefix, then the text with the prefix
after each line break but its last character. -/
theorem prefixList_concat (pre a : List Char) (c : Char) :
    prefixList (a ++ [c]) pre = pre ++ spread pre a ++ [c] := by
  by_cases hc : c = '\n'
  · subst hc
    exact prefixList_append_newline pre a
  · -- no final line break: every line of the text, the last one too, gets the prefix
    have hlast : (a ++ [c]).getLast? ≠ some '\n' := by simpa using hc
    rw [prefixList, if_neg (by simp), if_neg hlast]
    dsimp only
    rw [List.append_nil, intercalate_newline_eq_spread pre fun l hl => not_mem_of_mem_lines hl,
      unlines_lines, spread_append, spread_cons_of_ne hc, spread_nil, List.append_assoc]

/-- Only the empty text gets no prefix. -/
theorem prefixList_eq_nil_iff (cs pre : List Char) : prefixList cs pre = [] ↔ cs = [] := by
  rcases List.eq_nil_or_concat' cs with rfl | ⟨a, c, rfl⟩
  · simp [prefixList]
  · rw [prefixList_concat]
    simp

/-- The lines of a text with a prefix at its start and after each line break are its lines, each
with the prefix, when the prefix has no line break. -/
theorem lines_prefix_spread {pre : List Char} (hpre : '\n' ∉ pre) (x : List Char) :
    lines (pre ++ spread pre x) = (lines x).map (pre ++ ·) := by
  have hlines : ∀ l ∈ lines x, '\n' ∉ l := fun l hl => not_mem_of_mem_lines hl
  rw [← unlines_lines x, ← intercalate_newline_eq_spread pre hlines, unlines_lines,
    prefix_intercalate pre (lines_ne_nil x)]
  refine lines_unlines (by simpa using lines_ne_nil x) fun l hl => ?_
  obtain ⟨m, hm, rfl⟩ := List.mem_map.1 hl
  simpa [hpre] using hlines m hm

/-- **Prefixing twice is prefixing once**, with the outer prefix before the inner one, when the
inner prefix has no line break. -/
theorem prefixList_prefixList {p : List Char} (hp : '\n' ∉ p) (cs q : List Char) :
    prefixList (prefixList cs p) q = prefixList cs (q ++ p) := by
  rcases List.eq_nil_or_concat' cs with rfl | ⟨a, c, rfl⟩
  · simp [prefixList]
  · -- the inner text keeps the last character, so the outer prefix goes where the inner went
    rw [prefixList_concat, prefixList_concat, prefixList_concat, spread_append,
      spread_of_not_mem hp, spread_spread hp]
    simp only [List.append_assoc]

/-- **Prefixed lines.**  For a prefix `p` with no line break: the prefixed text is empty exactly
when the text is; a text that ends with a line break has as lines the lines before it, each
after `p`, and an empty last line, so the final line break stays without prefix; a nonempty
text that does not end with one has as lines its lines, each after `p`; and prefixing the
result again with `q` is prefixing the text once with `q ++ p`. -/
theorem prefixLines_prefixes_each_line {t p : String} (hp : '\n' ∉ p.toList) :
    (prefixLines t p = "" ↔ t = "") ∧
      (∀ b : String, t = b ++ "\n" →
        lines (prefixLines t p).toList = (lines b.toList).map (p.toList ++ ·) ++ [[]]) ∧
      (t ≠ "" → t.toList.getLast? ≠ some '\n' →
        lines (prefixLines t p).toList = (lines t.toList).map (p.toList ++ ·)) ∧
      ∀ q, prefixLines (prefixLines t p) q = prefixLines t (q ++ p) := by
  refine ⟨?_, fun b hb => ?_, fun hne hlast => ?_, fun q => ?_⟩
  · rw [← String.toList_inj, ← String.toList_inj, prefixLines, String.toList_ofList,
      String.toList_empty, prefixList_eq_nil_iff]
  · rw [prefixLines, String.toList_ofList, hb, String.toList_append]
    exact lines_prefixList hp
  · obtain ⟨a, c, hac⟩ := (List.eq_nil_or_concat' t.toList).resolve_left
      (mt String.toList_eq_nil_iff.1 hne)
    have hc : c ≠ '\n' := fun h => hlast (by simp [hac, h])
    -- the last character is no line break, so it is spread over as any other
    have hspread : spread p.toList (a ++ [c]) = spread p.toList a ++ [c] := by
      rw [spread_append, spread_cons_of_ne hc, spread_nil]
    rw [prefixLines, String.toList_ofList, hac, prefixList_concat, List.append_assoc, ← hspread]
    exact lines_prefix_spread hp _
  · rw [prefixLines, prefixLines, prefixLines, String.toList_ofList, String.toList_append,
      prefixList_prefixList hp]

/-- Two lines ended by a line break, indented by two spaces. -/
theorem prefixLines_indents_closed_lines :
    '\n' ∉ "  ".toList ∧
      (prefixLines "a\nb\n" "  " = "" ↔ "a\nb\n" = "") ∧
      (∀ b : String, "a\nb\n" = b ++ "\n" →
        lines (prefixLines "a\nb\n" "  ").toList = (lines b.toList).map ("  ".toList ++ ·) ++ [[]]) ∧
      ("a\nb\n" ≠ "" → "a\nb\n".toList.getLast? ≠ some '\n' →
        lines (prefixLines "a\nb\n" "  ").toList = (lines "a\nb\n".toList).map ("  ".toList ++ ·)) ∧
      ∀ q, prefixLines (prefixLines "a\nb\n" "  ") q = prefixLines "a\nb\n" (q ++ "  ") :=
  ⟨by decide, prefixLines_prefixes_each_line (by decide)⟩

end Text
end BlockScribe
