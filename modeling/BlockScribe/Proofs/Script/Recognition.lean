import BlockScribe.Proofs.Script.Form
import BlockScribe.Proofs.Text.StringLiterals
import BlockScribe.Proofs.Number.PlainDecimals
/-!
# What the generator's tests see in printed code

Before it writes an expression around a piece of code, the generator asks questions of the code
itself: whether it is a string literal (`Text.isStringLiteral`), a word in quotes or without
(`Text.isQuotedWord`), or a number (`Text.isNumber`).  On the code of a well-formed form each
test answers by the form's outermost shape alone: a string literal exactly for a literal
(`WF.isStringLiteral_code`), a word exactly for a name, a numeral or a literal made of letters,
digits and underscores (`WF.isQuotedWord_code`), and a number only for a numeral or a negated one
(`WF.isNumber_code`).

Two tests trim blanks first; the code of a form neither begins nor ends with one
(`WF.trim_code`).  The test for literals looks only at the character before each single quote.
A literal inside other code opens after a character that is no backslash (`WF.last_literal`), so
in code that begins and ends with a quote but is no literal the test finds that quote unescaped.
-/

namespace BlockScribe
namespace Script

/-! ### Characters -/

/-- No character of a name is a blank. -/
theorem isBlank_eq_false_of_isNamePart {c : Char} (h : isNamePart c = true) :
    Text.isBlank c = false := by
  rw [isNamePart_iff] at h
  simp only [Text.isBlank, Bool.or_eq_false_iff, Bool.and_eq_false_iff, decide_eq_false_iff_not,
    beq_eq_false_iff_ne, ne_eq]
  omega

theorem isBlank_eq_false_of_isDigit {c : Char} (h : c.isDigit = true) : Text.isBlank c = false :=
  isBlank_eq_false_of_isNamePart (by simp [isNamePart, Char.isAlphanum, h])

/-- The first character of a name is neither a digit, nor a minus sign, nor a point. -/
theorem not_numberChar_of_isNameStart {c : Char} (h : isNameStart c = true) :
    ¬(c.isDigit = true ∨ c = '-' ∨ c = '.') := by
  simp only [isNameStart, Char.isAlpha, Char.isUpper, Char.isLower, Char.isDigit, Bool.or_eq_true,
    Bool.and_eq_true, decide_eq_true_eq, beq_iff_eq, ge_iff_le, UInt32.le_iff_toNat_le,
    ← Char.toNat_inj, Char.toNat_val, Char.reduceToNat] at h ⊢
  omega

namespace Lx

/-- A numeral grows by digits and points alone: a step that completes it emits it. -/
theorem run_num_chars {xs acc : List Char} {p : Bool} {st : Lx}
    (h : run (num acc p) xs = some (st, [])) : ∀ c ∈ xs, c.isDigit = true ∨ c = '.' := by
  induction xs generalizing acc p st with
  | nil => simp
  | cons x xs ih =>
    rw [run_cons] at h
    obtain ⟨r, hr, h⟩ := Option.bind_eq_some_iff.1 h
    obtain ⟨r', hr', hout⟩ := Option.map_eq_some_iff.1 h
    obtain ⟨hnil, hnil'⟩ := List.append_eq_nil_iff.1 (Prod.mk.inj hout).2
    -- the step kept the numeral open, by a digit or by a point
    have hx : (x.isDigit = true ∨ x = '.') ∧ ∃ q, r.1 = num (acc ++ [x]) q := by
      simp only [step] at hr
      split_ifs at hr with hd _ hpt hend
      · exact ⟨.inl hd, p, by rw [← Option.some.inj hr]⟩
      · exact ⟨.inr (by simp at hpt; exact hpt.1), true, by rw [← Option.some.inj hr]⟩
      · unfold close at hr
        obtain ⟨b, -, rfl⟩ := Option.map_eq_some_iff.1 hr
        simp at hnil
    obtain ⟨hxc, q, hq⟩ := hx
    rw [hq] at hr'
    have hrest : run (num (acc ++ [x]) q) xs = some (r'.1, []) := by rw [hr', ← hnil']
    intro c hc
    rcases List.mem_cons.1 hc with rfl | hc
    · exact hxc
    · exact ih hrest c hc

/-- The characters of a numeral are digits and points. -/
theorem Numeral.chars {s : List Char} (hs : Numeral s) : ∀ c ∈ s, c.isDigit = true ∨ c = '.' := by
  obtain ⟨⟨d, ds, rfl, hd⟩, point, hrun⟩ := hs
  have hstep : step start d = some (num [d] false, []) := by
    have hpart : isNamePart d = true := by simp [isNamePart, Char.isAlphanum, hd]
    have hname : isNameStart d = false := by
      have := not_numberChar_of_isNameStart (c := d)
      cases h : isNameStart d
      · rfl
      · exact absurd (.inl hd) (this h)
    simp [step, begin, isGap_eq_false_of_isNamePart hpart, hname, hd]
  rw [run_cons_of_step hstep] at hrun
  intro c hc
  rcases List.mem_cons.1 hc with rfl | hc
  · exact .inl hd
  · exact run_num_chars hrun c hc

end Lx

namespace Form

variable {B : List Char → Prop}

/-- Whether a form is a string literal. -/
def isStr : Form → Bool
  | str _ => true
  | _ => false

/-- Whether a form is a name, a numeral or a literal made of letters, digits and underscores:
what the generator takes for a word. -/
def quotedWord : Form → Bool
  | name n | num n | str n => !n.isEmpty && n.all Text.isWordChar
  | _ => false

/-- Whether a form is a numeral or a negated numeral. -/
def isNumeric : Form → Bool
  | num _ => true
  | neg (num _) => true
  | _ => false

theorem code_ne_nil {f : Form} (hf : f.WF B) : f.code ≠ [] := by
  obtain ⟨t, ht⟩ := hf.code_eq_head_cons
  rw [ht]
  exact List.cons_ne_nil _ _

/-- The last character of code that ends with nonempty code. -/
theorem getLast?_append_code {f : Form} (hf : f.WF B) (xs : List Char) :
    (xs ++ f.code).getLast? = f.code.getLast? :=
  List.getLast?_append_of_ne_nil _ (code_ne_nil hf)

/-! ### The ends of printed code -/

/-- Code ends with a quote, a character of a name, a bracket, a slash or a point. -/
def EndChar (c : Char) : Prop :=
  c = '\'' ∨ isNamePart c = true ∨ c = ')' ∨ c = ']' ∨ c = '/' ∨ c = '.'

/-- Every character of a name goes on in a name. -/
theorem isNamePart_of_mem_name {n : List Char} (hn : Lx.IsName n) {c : Char} (hc : c ∈ n) :
    isNamePart c = true := by
  obtain ⟨a, as, rfl, ha, has⟩ := hn
  rcases List.mem_cons.1 hc with rfl | hc
  · exact isNamePart_of_isNameStart ha
  · exact has c hc

theorem endChar_of_name {n : List Char} (hn : Lx.IsName n) : ∀ c, n.getLast? = some c → EndChar c :=
  fun _ hc => .inr (.inl (isNamePart_of_mem_name hn (List.mem_of_getLast? hc)))

/-- **The last character of printed code**: what ends a name, a numeral, a literal or a
bracket. -/
theorem WF.last_endChar {f : Form} (hf : f.WF B) : ∀ c, f.code.getLast? = some c → EndChar c := by
  induction hf with
  | name h => simpa using endChar_of_name h.1
  | num h =>
    intro c hc
    rcases Lx.Numeral.chars h c (List.mem_of_getLast? (by simpa using hc)) with hd | rfl
    · exact .inr (.inl (by simp [isNamePart, Char.isAlphanum, hd]))
    · exact .inr (.inr (.inr (.inr (.inr rfl))))
  | str =>
    intro c hc
    simp [List.getLast?_cons, List.getLast?_append] at hc
    exact .inl hc.symm
  | @regex b fl _ hflags =>
    intro c hc
    rcases List.eq_nil_or_concat fl with rfl | ⟨fs, x, rfl⟩
    · simp [List.getLast?_cons, List.getLast?_append] at hc
      exact .inr (.inr (.inr (.inr (.inl hc.symm))))
    · simp [List.getLast?_cons, List.getLast?_append] at hc
      exact .inr (.inl (hc ▸ hflags x (by simp)))
  | array =>
    intro c hc
    simp [List.getLast?_cons, List.getLast?_append] at hc
    exact .inr (.inr (.inr (.inl hc.symm)))
  | member _ _ _ hn =>
    intro c hc
    rw [code_member, ← List.singleton_append, ← List.append_assoc,
      List.getLast?_append_of_ne_nil _ (by obtain ⟨a, as, rfl, -⟩ := hn; simp)] at hc
    exact endChar_of_name hn c hc
  | call =>
    intro c hc
    simp [List.getLast?_cons, List.getLast?_append] at hc
    exact .inr (.inr (.inl hc.symm))
  | @not e he _ _ ih =>
    intro c hc
    rw [code_not, ← List.singleton_append, getLast?_append_code he] at hc
    exact ih c hc
  | @neg e he _ _ _ ih =>
    intro c hc
    rw [code_neg, ← List.singleton_append, getLast?_append_code he] at hc
    exact ih c hc
  | @bin op l r _ hr _ _ _ ih | @chain op l r _ _ hr _ _ _ ih =>
    intro c hc
    have hsplit : (Form.bin op l r).code = (l.code ++ ' ' :: (op.text ++ [' '])) ++ r.code := by simp
    rw [hsplit, getLast?_append_code hr] at hc
    exact ih c hc
  | @addBreak l r _ hr _ _ _ ih =>
    intro c hc
    have hsplit : (Form.addBreak l r).code = (l.code ++ [' ', '+', '\n']) ++ r.code := by simp
    rw [hsplit, getLast?_append_code hr] at hc
    exact ih c hc
  | @cond c' a b _ _ hb _ _ _ _ _ ih =>
    intro c hc
    have hsplit : (Form.cond c' a b).code =
        (c'.code ++ ' ' :: '?' :: ' ' :: (a.code ++ [' ', ':', ' '])) ++ b.code := by simp
    rw [hsplit, getLast?_append_code hb] at hc
    exact ih c hc
  | paren =>
    intro c hc
    simp [List.getLast?_cons, List.getLast?_append] at hc
    exact .inr (.inr (.inl hc.symm))

theorem EndChar.not_blank {c : Char} (h : EndChar c) : Text.isBlank c = false := by
  rcases h with rfl | h | rfl | rfl | rfl | rfl
  · decide
  · exact isBlank_eq_false_of_isNamePart h
  all_goals decide

theorem WF.head_not_blank {f : Form} (hf : f.WF B) : Text.isBlank f.head = false := by
  rcases head_cases hf with h | h | h | h | h | h | h | h
  · exact isBlank_eq_false_of_isNamePart (isNamePart_of_isNameStart h)
  · exact isBlank_eq_false_of_isDigit h
  all_goals rw [h]; decide

/-- **Printed code has no blank at either end**, so trimming leaves it as it is. -/
theorem WF.trim_code {f : Form} (hf : f.WF B) : Text.trim (String.ofList f.code) = String.ofList f.code := by
  obtain ⟨t, ht⟩ := hf.code_eq_head_cons
  have hdrop : Text.dropBlanks f.code = f.code := by
    rw [ht, Text.dropBlanks, List.dropWhile_cons_of_neg (by simp [hf.head_not_blank])]
  obtain ⟨xs, c, hxs⟩ := (List.eq_nil_or_concat f.code).resolve_left (code_ne_nil hf)
  rw [List.concat_eq_append] at hxs
  have hc : EndChar c := hf.last_endChar c (by rw [hxs]; simp)
  have htrail : Text.dropTrailingBlanks f.code = f.code := by
    rw [Text.dropTrailingBlanks, hxs, List.reverse_concat,
      List.dropWhile_cons_of_neg (by simp [hc.not_blank]), List.reverse_cons, List.reverse_reverse]
  rw [Text.trim, String.toList_ofList, hdrop, htrail]

/-! ### String literals -/

/-- Code that ends after no backslash keeps doing so when more code that does comes after it. -/
theorem getLast?_append_ne_backslash {X p : List Char} (hX : X.getLast? ≠ some '\\')
    (hp : p.getLast? ≠ some '\\') : (X ++ p).getLast? ≠ some '\\' := by
  rw [List.getLast?_append]
  cases h : p.getLast? with
  | none => simpa using hX
  | some c => simpa [h] using hp

/-- A literal that ends other code opens after no backslash: nothing before it, in code made of
it alone, and otherwise the blank, bracket or operator that the printing puts before it. -/
theorem WF.last_literal {f : Form} (hf : f.WF B) (hend : f.code.getLast? = some '\'') :
    ∃ p b, f.code = p ++ '\'' :: (b ++ ['\'']) ∧ p.getLast? ≠ some '\\' ∧
      (f.isStr = false → p ≠ []) := by
  -- code made of a part `X` that ends after no backslash and of a form ending with a literal
  have after : ∀ {g : Form} (X : List Char), X ≠ [] → X.getLast? ≠ some '\\' →
      (∃ p b, g.code = p ++ '\'' :: (b ++ ['\'']) ∧ p.getLast? ≠ some '\\' ∧
        (g.isStr = false → p ≠ [])) →
      ∃ p b, X ++ g.code = p ++ '\'' :: (b ++ ['\'']) ∧ p.getLast? ≠ some '\\' ∧ p ≠ [] := by
    rintro g X hX hXl ⟨p, b, hp, hpl, -⟩
    exact ⟨X ++ p, b, by rw [hp, List.append_assoc], getLast?_append_ne_backslash hXl hpl,
      by simp [hX]⟩
  induction hf with
  | name h =>
    have := isNamePart_of_mem_name h.1 (List.mem_of_getLast? (by simpa using hend))
    exact absurd this (by decide)
  | num h =>
    rcases Lx.Numeral.chars h _ (List.mem_of_getLast? (by simpa using hend)) with h | h
    · exact absurd h (by decide)
    · exact absurd h (by decide)
  | @str b => exact ⟨[], b, by simp, by simp, by simp [isStr]⟩
  | @regex b fl _ hflags =>
    rcases List.eq_nil_or_concat fl with rfl | ⟨fs, x, rfl⟩
    · simp [List.getLast?_cons, List.getLast?_append] at hend
    · simp [List.getLast?_cons, List.getLast?_append] at hend
      exact absurd (hend ▸ hflags x (by simp)) (by decide)
  | member _ _ _ hn =>
    rw [code_member, ← List.singleton_append, ← List.append_assoc,
      List.getLast?_append_of_ne_nil _ (by obtain ⟨a, as, rfl, -⟩ := hn; simp)] at hend
    exact absurd (isNamePart_of_mem_name hn (List.mem_of_getLast? hend)) (by decide)
  | array | call | paren => simp [List.getLast?_cons, List.getLast?_append] at hend
  | @not e he _ _ ih =>
    rw [code_not, ← List.singleton_append, getLast?_append_code he] at hend
    obtain ⟨p, b, hp, hpl, hne⟩ := after ['!'] (by simp) (by simp) (ih hend)
    exact ⟨p, b, by simpa using hp, hpl, fun _ => hne⟩
  | @neg e he _ _ _ ih =>
    rw [code_neg, ← List.singleton_append, getLast?_append_code he] at hend
    obtain ⟨p, b, hp, hpl, hne⟩ := after ['-'] (by simp) (by simp) (ih hend)
    exact ⟨p, b, by simpa using hp, hpl, fun _ => hne⟩
  | @bin op l r _ hr _ _ _ ih | @chain op l r _ _ hr _ _ _ ih =>
    have hsplit : (Form.bin op l r).code = (l.code ++ ' ' :: (op.text ++ [' '])) ++ r.code := by simp
    rw [hsplit, getLast?_append_code hr] at hend
    obtain ⟨p, b, hp, hpl, hne⟩ := after (l.code ++ ' ' :: (op.text ++ [' '])) (by simp)
      (by simp [List.getLast?_append, List.getLast?_cons]) (ih hend)
    exact ⟨p, b, by rw [hsplit, hp], hpl, fun _ => hne⟩
  | @addBreak l r _ hr _ _ _ ih =>
    have hsplit : (Form.addBreak l r).code = (l.code ++ [' ', '+', '\n']) ++ r.code := by simp
    rw [hsplit, getLast?_append_code hr] at hend
    obtain ⟨p, b, hp, hpl, hne⟩ := after (l.code ++ [' ', '+', '\n']) (by simp)
      (by simp [List.getLast?_append]) (ih hend)
    exact ⟨p, b, by rw [hsplit, hp], hpl, fun _ => hne⟩
  | @cond c a b' _ _ hb _ _ _ _ _ ih =>
    have hsplit : (Form.cond c a b').code =
        (c.code ++ ' ' :: '?' :: ' ' :: (a.code ++ [' ', ':', ' '])) ++ b'.code := by simp
    rw [hsplit, getLast?_append_code hb] at hend
    obtain ⟨p, b, hp, hpl, hne⟩ := after (c.code ++ ' ' :: '?' :: ' ' :: (a.code ++ [' ', ':', ' ']))
      (by simp) (by simp [List.getLast?_append, List.getLast?_cons]) (ih hend)
    exact ⟨p, b, by rw [hsplit, hp], hpl, fun _ => hne⟩

/-- Every single quote of a literal body keeping the script's rules is escaped. -/
theorem strBody_quotesEscaped {b : List Char} (h : Lx.StrBody b) :
    ∀ prev, Text.quotesEscaped prev b = true := by
  induction h with
  | nil => intro _; rfl
  | plain hq _ _ _ _ ih => intro _; simp [Text.quotesEscaped, hq, ih]
  | escape _ _ ih => intro _; simp [Text.quotesEscaped, ih]

/-- **The generator takes printed code for a string literal exactly when it is one.** -/
theorem WF.isStringLiteral_code {f : Form} (hf : f.WF B)
    (hB : ∀ b, B b → Text.quotesEscaped none b = true) :
    Text.isStringLiteral (String.ofList f.code) = f.isStr := by
  cases hs : f.isStr
  · rw [Bool.eq_false_iff]
    intro hlit
    obtain ⟨inner, hcode, hq⟩ := (Text.isStringLiteral_iff _).1 hlit
    rw [hf.trim_code, String.toList_ofList] at hcode
    have hend : f.code.getLast? = some '\'' := by
      rw [hcode]
      simp [List.getLast?_cons, List.getLast?_append]
    obtain ⟨p, b, hp, hpl, hne⟩ := hf.last_literal hend
    -- the code opens with the quote in front of `p`, and the literal it ends with opens unescaped
    obtain ⟨x, p', rfl⟩ := List.exists_cons_of_ne_nil (hne hs)
    rw [hcode, List.cons_append, List.cons.injEq] at hp
    obtain ⟨rfl, hinner⟩ := hp
    rw [← List.cons_append, ← List.append_assoc, List.append_cancel_right_eq] at hinner
    have hback := hq p' b hinner
    exact hpl (by simp [List.getLast?_cons, hback])
  · obtain ⟨b, rfl⟩ : ∃ b, f = Form.str b := by cases f <;> simp [isStr] at hs ⊢
    cases hf with
    | str hb =>
      rw [Text.isStringLiteral_iff]
      refine ⟨b, by rw [(WF.str hb).trim_code, String.toList_ofList, code_str], ?_⟩
      exact (Text.quotesEscaped_none_iff b).1 (hB b hb)

/-! ### Words -/

/-- A character that stays between the quotes the test for words drops. -/
theorem mem_dropLastIf {c : Char} {pre post : List Char} (hpost : post ≠ []) :
    c ∈ Text.dropLastIf '\'' (pre ++ c :: post) := by
  unfold Text.dropLastIf
  split
  · rw [List.dropLast_append_of_ne_nil (List.cons_ne_nil _ _), List.dropLast_cons_of_ne_nil hpost]
    simp
  · simp

/-- Code with a character that is no word character inside it is no word. -/
theorem isQuotedWord_of_inside {pre post : List Char} {c : Char} (hpre : pre ≠ [])
    (hpost : post ≠ []) (hc : Text.isWordChar c = false) :
    Text.isQuotedWord (String.ofList (pre ++ c :: post)) = false := by
  obtain ⟨x, xs, rfl⟩ := List.exists_cons_of_ne_nil hpre
  have hdrop : Text.dropFirst '\'' ((x :: xs) ++ c :: post) =
      Text.dropFirst '\'' [x] ++ (xs ++ c :: post) := by
    simp only [List.cons_append, Text.dropFirst]
    split <;> simp
  have hmem : c ∈ Text.dropLastIf '\'' (Text.dropFirst '\'' ((x :: xs) ++ c :: post)) := by
    rw [hdrop, ← List.append_assoc]
    exact mem_dropLastIf hpost
  simp only [Text.isQuotedWord, String.toList_ofList, Bool.and_eq_false_iff, List.all_eq_false]
  exact .inr ⟨c, hmem, by simp [hc]⟩

/-- Code that opens with a character that is neither a quote nor a word character is no word. -/
theorem isQuotedWord_of_head {c : Char} {post : List Char} (hq : c ≠ '\'')
    (hc : Text.isWordChar c = false) : Text.isQuotedWord (String.ofList (c :: post)) = false := by
  have hmem : c ∈ Text.dropLastIf '\'' (Text.dropFirst '\'' (c :: post)) := by
    simp only [Text.dropFirst, if_neg hq]
    rcases List.eq_nil_or_concat post with rfl | ⟨ys, y, rfl⟩
    · simp [Text.dropLastIf, hq]
    · rw [← List.nil_append (c :: _)]
      exact mem_dropLastIf (by simp)
  simp only [Text.isQuotedWord, String.toList_ofList, Bool.and_eq_false_iff, List.all_eq_false]
  exact .inr ⟨c, hmem, by simp [hc]⟩

/-- A word is one exactly when neither end of it is a quote. -/
theorem isQuotedWord_of_ends {cs : List Char} (hhead : ∀ c ∈ cs.head?, c ≠ '\'')
    (hlast : ∀ c ∈ cs.getLast?, c ≠ '\'') :
    Text.isQuotedWord (String.ofList cs) = (!cs.isEmpty && cs.all Text.isWordChar) := by
  have hfirst : Text.dropFirst '\'' cs = cs := by
    cases cs with
    | nil => rfl
    | cons c rest => simp [Text.dropFirst, hhead c rfl]
  have hlastIf : Text.dropLastIf '\'' cs = cs := by
    unfold Text.dropLastIf
    split
    · rename_i h
      exact absurd rfl (hlast _ h)
    · rfl
  simp only [Text.isQuotedWord, String.toList_ofList, hfirst, hlastIf]

/-- **The generator takes printed code for a word exactly when it is a name, a numeral or a
literal made of word characters.** -/
theorem WF.isQuotedWord_code {f : Form} (hf : f.WF B) :
    Text.isQuotedWord (String.ofList f.code) = f.quotedWord := by
  cases hf with
  | name h =>
    obtain ⟨a, as, ha_eq, ha, has⟩ := h.1
    refine (isQuotedWord_of_ends ?_ ?_).trans (by simp [quotedWord])
    · intro c hc
      simp [ha_eq] at hc
      subst hc
      rintro rfl
      exact absurd ha (by decide)
    · intro c hc
      have := isNamePart_of_mem_name h.1 (List.mem_of_getLast? (by simpa using hc))
      rintro rfl
      exact absurd this (by decide)
  | num h =>
    refine (isQuotedWord_of_ends ?_ ?_).trans (by simp [quotedWord])
    · intro c hc
      rcases Lx.Numeral.chars h c (List.mem_of_mem_head? (by simpa using hc)) with hd | rfl
      · rintro rfl
        exact absurd hd (by decide)
      · decide
    · intro c hc
      rcases Lx.Numeral.chars h c (List.mem_of_getLast? (by simpa using hc)) with hd | rfl
      · rintro rfl
        exact absurd hd (by decide)
      · decide
  | @str b =>
    simp [Text.isQuotedWord, Text.dropFirst, Text.dropLastIf, quotedWord]
  | regex =>
    rw [code_regex]
    exact isQuotedWord_of_head (by decide) (by decide)
  | array =>
    rw [code_array]
    exact isQuotedWord_of_head (by decide) (by decide)
  | not =>
    rw [code_not]
    exact isQuotedWord_of_head (by decide) (by decide)
  | neg =>
    rw [code_neg]
    exact isQuotedWord_of_head (by decide) (by decide)
  | paren =>
    rw [code_paren]
    exact isQuotedWord_of_head (by decide) (by decide)
  | member hobj _ _ hn =>
    obtain ⟨a, as, rfl, -⟩ := hn
    rw [code_member]
    exact isQuotedWord_of_inside (code_ne_nil hobj) (List.cons_ne_nil _ _) (by decide)
  | call hg _ _ _ =>
    rw [code_call]
    exact isQuotedWord_of_inside (code_ne_nil hg) (by simp) (by decide)
  | bin hl _ _ _ | chain _ hl _ _ _ =>
    rw [code_bin]
    exact isQuotedWord_of_inside (code_ne_nil hl) (by simp) (by decide)
  | addBreak hl _ _ _ =>
    rw [code_addBreak]
    exact isQuotedWord_of_inside (code_ne_nil hl) (by simp) (by decide)
  | cond hc _ _ _ _ _ =>
    rw [code_cond]
    exact isQuotedWord_of_inside (code_ne_nil hc) (by simp) (by decide)

/-! ### Numbers -/

/-- The characters of a plain decimal are digits, a minus sign and a point. -/
theorem PlainDecimal.mem_text {d : PlainDecimal} {c : Char} (h : c ∈ d.text) :
    c.isDigit = true ∨ c = '-' ∨ c = '.' := by
  simp only [PlainDecimal.text, PlainDecimal.unsigned, PlainDecimal.fracText, List.mem_append] at h
  rcases h with h | h | h
  · split at h <;> simp_all
  · exact .inl (d.isDigit_of_mem_whole h)
  · cases hf : d.frac with
    | none => simp [hf] at h
    | some fr =>
      simp only [hf, Option.map_some, Option.getD_some, List.mem_cons] at h
      rcases h with rfl | h
      · exact .inr (.inr rfl)
      · exact .inl ((Text.isDigits_iff.1 (d.isDigits_of_frac_eq hf)).2 c h)

/-- Printed code other than a numeral, negated or not, has a character that no number has. -/
theorem WF.exists_nonNumberChar {f : Form} (hf : f.WF B) (h : f.isNumeric = false) :
    ∃ c ∈ f.code, ¬(c.isDigit = true ∨ c = '-' ∨ c = '.') := by
  induction hf with
  | name hn =>
    obtain ⟨a, as, rfl, ha, -⟩ := hn.1
    exact ⟨a, by simp, not_numberChar_of_isNameStart ha⟩
  | num => simp [isNumeric] at h
  | member _ _ _ hn =>
    obtain ⟨a, as, rfl, ha, -⟩ := hn
    exact ⟨a, by simp, not_numberChar_of_isNameStart ha⟩
  | @neg e he _ hm _ ih =>
    -- the negated form is no numeral, since it is no numeral negated, nor negated again
    have he' : e.isNumeric = false := by
      cases e with
      | num => simp [isNumeric] at h
      | neg => simp [head] at hm
      | _ => rfl
    obtain ⟨c, hc, hnot⟩ := ih he'
    exact ⟨c, by simp [hc], hnot⟩
  | str => exact ⟨'\'', by simp, by decide⟩
  | regex => exact ⟨'/', by simp, by decide⟩
  | array => exact ⟨'[', by simp, by decide⟩
  | call => exact ⟨'(', by simp, by decide⟩
  | not => exact ⟨'!', by simp, by decide⟩
  | paren => exact ⟨'(', by simp, by decide⟩
  | bin | chain | addBreak | cond => exact ⟨' ', by simp, by decide⟩

/-- **The generator takes printed code for a number only when it is a numeral**, negated or
not. -/
theorem WF.isNumber_code {f : Form} (hf : f.WF B) (h : f.isNumeric = false) :
    Text.isNumber (String.ofList f.code) = false := by
  rw [Bool.eq_false_iff]
  intro hnum
  obtain ⟨d, hd⟩ := (Text.isNumber_iff _).1 hnum
  rw [hf.trim_code, String.toList_ofList] at hd
  obtain ⟨c, hc, hnot⟩ := hf.exists_nonNumberChar h
  exact hnot (PlainDecimal.mem_text (hd ▸ hc))

end Form

end Script
end BlockScribe
