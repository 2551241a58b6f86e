import BlockScribe.Proofs.Script.Recognition
/-!
# Code that the generator's tests cannot tell apart

The generator asks four questions of code it has written: is it a string literal
(`isStringLiteral`), a word (`isWord`), a quoted word (`isQuotedWord`) or a number (`isNumber`),
and is it empty.  Code with a bracket in it is no word, no quoted word, no number and not empty
(`isNumber_eq_false_of_paren`, …); if it is no string literal either, it is `Opaque`: every
question has the same answer for it.  Two codes that are the same, or that both hold a bracket,
are `TestedAlike`: the tests of words, numbers and emptiness answer alike for them, and this is
kept by putting code around them (`TestedAlike.append`).

Whether code is a string literal depends on its ends.  Code is `Solid` when it ends with a
character other than a blank or a backslash, and, when that is a single quote, with a literal
that opens after no backslash: the value of every block ends this way.  Code that starts before a
solid code with a character other than a blank, and ends after no backslash (`Lead`), keeps the
whole from being a string literal (`isStringLiteral_append_solid`): the quote that opens the last
literal then stands inside it, after no backslash.
-/

namespace BlockScribe
namespace Text

/-! ### Trimming -/

theorem getLast?_dropWhile {p : Char → Bool} {cs : List Char} (h : cs.dropWhile p ≠ []) :
    (cs.dropWhile p).getLast? = cs.getLast? := by
  conv_rhs => rw [← List.takeWhile_append_dropWhile (p := p) (l := cs)]
  rw [List.getLast?_append_of_ne_nil _ h]

theorem dropTrailingBlanks_of_getLast {cs : List Char} {c : Char} (h : cs.getLast? = some c)
    (hc : isBlank c = false) : dropTrailingBlanks cs = cs := by
  obtain ⟨xs, rfl⟩ : ∃ xs, cs = xs ++ [c] := List.getLast?_eq_some_iff.1 h
  rw [dropTrailingBlanks, List.reverse_append, List.reverse_singleton, List.singleton_append,
    List.dropWhile_cons_of_neg (by simp [hc]), List.reverse_cons, List.reverse_reverse]

/-- Code that ends with a character other than a blank is trimmed at its start only, and keeps
its last character. -/
theorem trim_of_getLast {s : String} {c : Char} (h : s.toList.getLast? = some c)
    (hc : isBlank c = false) :
    (trim s).toList = dropBlanks s.toList ∧ (dropBlanks s.toList).getLast? = some c := by
  have hne : dropBlanks s.toList ≠ [] := by
    intro hnil
    have hall := List.dropWhile_eq_nil_iff.1 hnil c (List.mem_of_getLast? h)
    rw [hc] at hall
    exact Bool.false_ne_true hall
  have hlast : (dropBlanks s.toList).getLast? = some c := by
    rw [dropBlanks, getLast?_dropWhile hne, h]
  refine ⟨?_, hlast⟩
  rw [trim, String.toList_ofList, dropTrailingBlanks_of_getLast hlast hc]

theorem mem_dropBlanks {cs : List Char} {c : Char} (h : c ∈ cs) (hc : isBlank c = false) :
    c ∈ dropBlanks cs := by
  rw [← List.takeWhile_append_dropWhile (p := isBlank) (l := cs), List.mem_append] at h
  rcases h with h | h
  · have := List.mem_takeWhile_imp h
    rw [hc] at this
    exact absurd this Bool.false_ne_true
  · exact h

/-- A character other than a blank is kept by trimming. -/
theorem mem_trim {s : String} {c : Char} (h : c ∈ s.toList) (hc : isBlank c = false) :
    c ∈ (trim s).toList := by
  rw [trim, String.toList_ofList, dropTrailingBlanks, List.mem_reverse]
  exact mem_dropBlanks (List.mem_reverse.2 (mem_dropBlanks h hc)) hc

/-! ### Solid ends -/

/-- Code that ends with a character other than a blank or a backslash and, when that is a single
quote, with a literal that opens after no backslash. -/
def Solid (cs : List Char) : Prop :=
  (∃ c, cs.getLast? = some c ∧ isBlank c = false ∧ c ≠ '\\') ∧
    (cs.getLast? = some '\'' → ∃ p b, cs = p ++ '\'' :: (b ++ ['\'']) ∧ p.getLast? ≠ some '\\')

/-- Whether code ends with a character that is neither a blank, nor a backslash, nor a single
quote. -/
def endsPlain (cs : List Char) : Bool :=
  cs.getLast?.any fun c => !isBlank c && c != '\\' && c != '\''

/-- Code that holds a character other than a blank and ends with no backslash. -/
def Lead (cs : List Char) : Prop := (∃ c ∈ cs, isBlank c = false) ∧ cs.getLast? ≠ some '\\'

theorem endsPlain_iff {cs : List Char} :
    endsPlain cs = true ↔ ∃ c, cs.getLast? = some c ∧ isBlank c = false ∧ c ≠ '\\' ∧ c ≠ '\'' := by
  unfold endsPlain
  cases cs.getLast? with
  | none => simp
  | some c => simp [and_assoc]

/-- Code that ends with code that ends plainly ends plainly. -/
theorem endsPlain_append (x : String) {y : String} (h : endsPlain y.toList = true) :
    endsPlain (x ++ y).toList = true := by
  obtain ⟨c, hc, hrest⟩ := endsPlain_iff.1 h
  exact endsPlain_iff.2 ⟨c, by rw [String.toList_append, List.getLast?_append, hc]; rfl, hrest⟩

theorem solid_of_endsPlain {cs : List Char} (h : endsPlain cs = true) : Solid cs := by
  obtain ⟨c, hc, hb, hbs, hq⟩ := endsPlain_iff.1 h
  refine ⟨⟨c, hc, hb, hbs⟩, fun hq' => ?_⟩
  rw [hc] at hq'
  exact absurd (Option.some.inj hq') hq

theorem Solid.ne_nil {cs : List Char} (h : Solid cs) : cs ≠ [] := by
  rintro rfl
  obtain ⟨c, hc, -⟩ := h.1
  cases hc

theorem Solid.lead {cs : List Char} (h : Solid cs) : Lead cs := by
  obtain ⟨c, hc, hb, hbs⟩ := h.1
  exact ⟨⟨c, List.mem_of_getLast? hc, hb⟩, by rw [hc]; simpa using hbs⟩

theorem Lead.of_endsPlain {cs : List Char} (h : endsPlain cs = true) : Lead cs :=
  (solid_of_endsPlain h).lead

theorem Lead.append {xs ys : List Char} (hx : Lead xs) (hy : ys.getLast? ≠ some '\\') :
    Lead (xs ++ ys) := by
  obtain ⟨⟨c, hc, hb⟩, hl⟩ := hx
  exact ⟨⟨c, List.mem_append_left _ hc, hb⟩, Script.Form.getLast?_append_ne_backslash hl hy⟩

theorem Solid.getLast_ne {cs : List Char} (h : Solid cs) : cs.getLast? ≠ some '\\' := h.lead.2

/-- Code before a text that ends with no backslash. -/
theorem Lead.append_text {x : String} (hx : Lead x.toList) (y : String)
    (hy : y.toList.getLast? ≠ some '\\') : Lead (x ++ y).toList := by
  rw [String.toList_append]
  exact hx.append hy

/-- Code between single quotes is solid. -/
theorem solid_quoted {cs : List Char} (b : List Char) (h : cs = '\'' :: (b ++ ['\''])) : Solid cs := by
  subst h
  refine ⟨⟨'\'', by simp [List.getLast?_cons, List.getLast?_append], by decide, by decide⟩,
    fun _ => ⟨[], b, rfl, by simp⟩⟩

/-- The literal of the empty text, the default of the slots of texts. -/
theorem solid_emptyQuote : Solid "''".toList := solid_quoted [] (by simp)

/-- Solid code after code that ends with no backslash is solid. -/
theorem Solid.append_left {xs ys : List Char} (hx : xs.getLast? ≠ some '\\') (hy : Solid ys) :
    Solid (xs ++ ys) := by
  obtain ⟨⟨c, hc, hb, hbs⟩, hq⟩ := hy
  have hlast : (xs ++ ys).getLast? = ys.getLast? := by rw [List.getLast?_append, hc]; rfl
  refine ⟨⟨c, hlast.trans hc, hb, hbs⟩, fun hend => ?_⟩
  obtain ⟨p, b, rfl, hp⟩ := hq (hlast ▸ hend)
  exact ⟨xs ++ p, b, by simp, Script.Form.getLast?_append_ne_backslash hx hp⟩

/-- A string literal is solid. -/
theorem solid_quoteList (cs : List Char) : Solid (quoteList cs) :=
  solid_quoted (cs.flatMap escapeChar) rfl

theorem solid_quote (s : String) : Solid (quote s).toList := by
  rw [quote, String.toList_ofList]
  exact solid_quoteList _

/-- Literals of lines, joined by explicit newlines and line breaks, end with a solid literal. -/
theorem solid_intercalate_quoteList :
    ∀ {ls : List (List Char)}, ls ≠ [] → Solid (" + '\\n' +\n".toList.intercalate (ls.map quoteList))
  | [], h => absurd rfl h
  | [l], _ => by simpa using solid_quoteList l
  | l :: l' :: ls, _ => by
    rw [List.map_cons, List.map_cons, List.intercalate_cons_cons, ← List.map_cons]
    exact Solid.append_left (by simp) (solid_intercalate_quoteList (List.cons_ne_nil l' ls))

theorem solid_multilineQuote (s : String) : Solid (multilineQuote s).toList := by
  rw [multilineQuote, String.toList_ofList]
  exact solid_intercalate_quoteList (pieces_ne_nil _ _)

/-- A name ends plainly: its characters are letters, digits, underscores and dollar signs. -/
theorem endsPlain_of_isName {cs : List Char} (h : Script.Lx.IsName cs) : endsPlain cs = true := by
  obtain ⟨a, as, rfl, ha, has⟩ := h
  have hlast : ∃ c, (a :: as).getLast? = some c ∧ Script.isNamePart c = true := by
    rcases List.eq_nil_or_concat as with rfl | ⟨xs, x, rfl⟩
    · exact ⟨a, rfl, Script.isNamePart_of_isNameStart ha⟩
    · refine ⟨x, ?_, has x (by simp)⟩
      rw [List.concat_eq_append, ← List.cons_append,
        List.getLast?_append_of_ne_nil _ (List.cons_ne_nil _ _)]
      rfl
  obtain ⟨c, hc, hpart⟩ := hlast
  refine endsPlain_iff.2 ⟨c, hc, Script.isBlank_eq_false_of_isNamePart hpart, ?_, ?_⟩ <;>
    (rintro rfl; exact absurd hpart (by decide))

/-! ### String literals -/

/-- Code that ends with a character other than a blank or a single quote is no string literal. -/
theorem isStringLiteral_eq_false_of_endsPlain {s : String} (h : endsPlain s.toList = true) :
    isStringLiteral s = false := by
  obtain ⟨c, hc, hb, -, hq⟩ := endsPlain_iff.1 h
  rw [Bool.eq_false_iff]
  intro hlit
  obtain ⟨inner, htrim, -⟩ := (isStringLiteral_iff s).1 hlit
  obtain ⟨htrim', hlast⟩ := trim_of_getLast hc hb
  rw [← htrim', htrim] at hlast
  simp [List.getLast?_cons, List.getLast?_append] at hlast
  exact hq hlast.symm

/-- **Code that starts with something other than blanks, before solid code, is no string
literal**: the quote that opens the literal the solid code ends with stands inside the whole,
after no backslash. -/
theorem isStringLiteral_append_solid {x y : String} (hx : Lead x.toList) (hy : Solid y.toList) :
    isStringLiteral (x ++ y) = false := by
  obtain ⟨⟨c, hc, hb, -⟩, hq⟩ := hy
  obtain ⟨⟨d, hd, hdb⟩, hxl⟩ := hx
  rw [Bool.eq_false_iff]
  intro hlit
  obtain ⟨inner, htrim, hinner⟩ := (isStringLiteral_iff _).1 hlit
  have hlast : (x ++ y).toList.getLast? = some c := by
    rw [String.toList_append, List.getLast?_append, hc]
    rfl
  obtain ⟨htrim', -⟩ := trim_of_getLast hlast hb
  -- trimming takes blanks off the start of `x` only
  have hdrop : dropBlanks (x ++ y).toList = dropBlanks x.toList ++ y.toList := by
    have hne : dropBlanks x.toList ≠ [] := List.ne_nil_of_mem (mem_dropBlanks hd hdb)
    rw [String.toList_append, dropBlanks, List.dropWhile_append,
      if_neg (by rw [List.isEmpty_iff]; exact hne)]
    rfl
  rw [htrim', hdrop] at htrim
  -- so `y` ends with the closing quote, and with a literal that opens after no backslash
  have hyq : y.toList.getLast? = some '\'' := by
    have hends := congrArg List.getLast? htrim
    rw [List.getLast?_append, hc] at hends
    have hcq : c = '\'' := by simpa [List.getLast?_cons, List.getLast?_append] using hends
    exact hcq ▸ hc
  obtain ⟨p, b, hyp, hp⟩ := hq hyq
  obtain ⟨e, es, hes⟩ := List.exists_cons_of_ne_nil (List.ne_nil_of_mem (mem_dropBlanks hd hdb))
  rw [hes, hyp, List.cons_append, List.cons.injEq] at htrim
  obtain ⟨-, hrest⟩ := htrim
  have hinner' : inner = (es ++ p) ++ '\'' :: b := by
    have hsnoc : inner ++ ['\''] = (es ++ p ++ '\'' :: b) ++ ['\''] := by
      rw [← hrest]
      simp
    exact List.append_cancel_right hsnoc
  -- the part before that quote ends as `x` or `p` does, with no backslash
  have hes' : es.getLast? ≠ some '\\' := by
    cases hz : es.getLast? with
    | none => simp
    | some z =>
      have hx' : (e :: es).getLast? = x.toList.getLast? := by
        rw [← hes, dropBlanks, getLast?_dropWhile (by rw [← dropBlanks, hes]; simp)]
      rw [List.getLast?_cons, hz, Option.getD_some] at hx'
      rw [← hx'] at hxl
      exact hxl
  exact Script.Form.getLast?_append_ne_backslash hes' hp (hinner _ _ hinner')

/-- A solid code after a lead is solid. -/
theorem Solid.append_lead {x y : String} (hx : Lead x.toList) (hy : Solid y.toList) :
    Solid (x ++ y).toList := by
  rw [String.toList_append]
  exact Solid.append_left hx.2 hy

/-! ### Brackets -/

theorem isEmpty_append (a b : String) : (a ++ b).isEmpty = (a.isEmpty && b.isEmpty) := by
  rw [Bool.eq_iff_iff, Bool.and_eq_true, String.isEmpty_iff, String.isEmpty_iff, String.isEmpty_iff,
    String.append_eq_empty_iff]

/-- Code with a bracket in it is no word. -/
theorem isWord_eq_false_of_paren {s : String} (h : '(' ∈ s.toList) : isWord s = false := by
  simp only [isWord, Bool.and_eq_false_iff, List.all_eq_false]
  exact .inr ⟨'(', h, by decide⟩

theorem mem_dropFirst {q c : Char} {cs : List Char} (h : c ∈ cs) (hc : c ≠ q) :
    c ∈ dropFirst q cs := by
  cases cs with
  | nil => cases h
  | cons d rest =>
    rw [dropFirst]
    split_ifs with hd
    · rcases List.mem_cons.1 h with rfl | h
      · exact absurd hd hc
      · exact h
    · exact h

theorem mem_dropLastIf {q c : Char} {cs : List Char} (h : c ∈ cs) (hc : c ≠ q) :
    c ∈ dropLastIf q cs := by
  unfold dropLastIf
  split
  · rename_i hlast
    obtain ⟨xs, rfl⟩ := List.getLast?_eq_some_iff.1 hlast
    rw [List.dropLast_concat]
    rcases List.mem_append.1 h with h | h
    · exact h
    · exact absurd (List.mem_singleton.1 h) hc
  · exact h

/-- Code with a bracket in it is no word, with or without quotes around it. -/
theorem isQuotedWord_eq_false_of_paren {s : String} (h : '(' ∈ s.toList) :
    isQuotedWord s = false := by
  have hmem := mem_dropLastIf (q := '\'') (mem_dropFirst (q := '\'') h (by decide)) (by decide)
  simp only [isQuotedWord, Bool.and_eq_false_iff, List.all_eq_false]
  exact .inr ⟨'(', hmem, by decide⟩

/-- Code with a bracket in it is no number: a bracket is neither a digit, nor a sign, nor a
point. -/
theorem isNumber_eq_false_of_paren {s : String} (h : '(' ∈ s.toList) : isNumber s = false := by
  rw [Bool.eq_false_iff]
  intro hnum
  obtain ⟨d, hd⟩ := (isNumber_iff s).1 hnum
  have hmem := mem_trim h (by decide)
  rw [hd] at hmem
  rcases Script.Form.PlainDecimal.mem_text hmem with h' | h' | h'
  · exact absurd h' (by decide)
  · exact absurd h' (by decide)
  · exact absurd h' (by decide)

/-- Code that holds a bracket and is no string literal: every test of code fails on it. -/
def Opaque (s : String) : Prop := '(' ∈ s.toList ∧ isStringLiteral s = false

theorem Opaque.of_endsPlain {s : String} (hp : '(' ∈ s.toList) (he : endsPlain s.toList = true) :
    Opaque s :=
  ⟨hp, isStringLiteral_eq_false_of_endsPlain he⟩

/-- Two codes that the tests of words, numbers and emptiness cannot tell apart: the same code,
or two codes that each hold a bracket. -/
def TestedAlike (a b : String) : Prop := a = b ∨ '(' ∈ a.toList ∧ '(' ∈ b.toList

namespace TestedAlike

variable {a b c d : String}

theorem refl (a : String) : TestedAlike a a := .inl rfl

theorem of_opaqueCodes (ha : Opaque a) (hb : Opaque b) : TestedAlike a b := .inr ⟨ha.1, hb.1⟩

/-- Code put together from parts that are tested alike is tested alike. -/
theorem append (h₁ : TestedAlike a b) (h₂ : TestedAlike c d) : TestedAlike (a ++ c) (b ++ d) := by
  rcases h₁ with rfl | ⟨ha, hb⟩
  · rcases h₂ with rfl | ⟨hc, hd⟩
    · exact .inl rfl
    · exact .inr ⟨by simp [hc], by simp [hd]⟩
  · exact .inr ⟨by simp [ha], by simp [hb]⟩

theorem isWord_eq (h : TestedAlike a b) : isWord a = isWord b := by
  rcases h with rfl | ⟨ha, hb⟩
  · rfl
  · rw [isWord_eq_false_of_paren ha, isWord_eq_false_of_paren hb]

theorem isNumber_eq (h : TestedAlike a b) : isNumber a = isNumber b := by
  rcases h with rfl | ⟨ha, hb⟩
  · rfl
  · rw [isNumber_eq_false_of_paren ha, isNumber_eq_false_of_paren hb]

theorem isQuotedWord_eq (h : TestedAlike a b) : isQuotedWord a = isQuotedWord b := by
  rcases h with rfl | ⟨ha, hb⟩
  · rfl
  · rw [isQuotedWord_eq_false_of_paren ha, isQuotedWord_eq_false_of_paren hb]

theorem isEmpty_eq (h : TestedAlike a b) : a.isEmpty = b.isEmpty := by
  rcases h with rfl | ⟨ha, hb⟩
  · rfl
  · have hne : ∀ {s : String}, '(' ∈ s.toList → s.isEmpty = false := by
      intro s hs
      rw [Bool.eq_false_iff, Ne, String.isEmpty_iff]
      rintro rfl
      simp at hs
    rw [hne ha, hne hb]

/-- A number is read from code tested alike only where the code is the same. -/
theorem parse_of_isNumber (h : TestedAlike a b) (hnum : isNumber a = true) : a = b := by
  rcases h with h | ⟨ha, -⟩
  · exact h
  · rw [isNumber_eq_false_of_paren ha] at hnum
    cases hnum

end TestedAlike

end Text
end BlockScribe
