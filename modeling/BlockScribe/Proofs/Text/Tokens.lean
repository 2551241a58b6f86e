import BlockScribe.Proofs.Text.Tidy
import Mathlib.Data.List.Basic
/-!
# Literals as a reader of code sees them

A reader of code splits it into literals and the characters outside them (`Lex.run`).  A single
quote opens a literal and the next single quote that no backslash takes closes it; inside a
literal a backslash takes the character after it into the literal, whatever that is, and a line
break that no backslash takes ends the reading, since a literal never spans lines.

A literal body, in which each character stands as itself or is a backslash with the character it
takes (`LiteralBody`), is read whole (`LiteralBody.run`).  `quote` writes a text as exactly one
literal (`run_quoteList`): read from outside literals, it gives one literal token, whose body is
the text escaped, and leaves the reader outside literals, so that what follows is read as it
would be alone (`run_append_of_eq`).  Its escapes form a
prefix code: each is a backslash and the character escaped, and a character written as itself is
never a backslash (`escapeChar_append_inj`), so two texts with the same literal are the same
(`quote_injective`).  `multilineQuote` writes one literal per line of the text, the lines being
the pieces between its line breaks (`lines_eq_splitOn`), joined by `+ '\n' +` and a line break;
so it holds a line break exactly when the text does, and each of them stands outside literals
(`breaksOutsideLiterals_multilineQuote`).

This reader knows literals only, and a raw carriage return stands in a literal for it.  Where
code is read as the script reads it, literals and all, the reader is `Script.Lx`, which ends a
literal at any line terminator; on a body that `quote` writes the two agree exactly when the
text holds no carriage return (`Script.Written.strBody_iff`).
-/

namespace BlockScribe
namespace Text

/-- A piece of code as a reader of literals sees it: a single-quoted literal, with its body as
written, or one character outside literals. -/
inductive Token where
  | literal (body : List Char)
  | code (c : Char)
  deriving DecidableEq, Repr

/-- Where a reader of code stands: outside literals, inside one with the body read so far, or
inside one just after a backslash. -/
inductive Lex where
  | code
  | body (acc : List Char)
  | escape (acc : List Char)
  deriving DecidableEq, Repr

namespace Lex

/-- One character read, with the tokens it completes; `none` for a line break inside a
literal. -/
def step : Lex → Char → Option (Lex × List Token)
  | code, c => if c = '\'' then some (body [], []) else some (code, [.code c])
  | body acc, c =>
    if c = '\'' then some (code, [.literal acc])
    else if c = '\n' then none
    else if c = '\\' then some (escape acc, [])
    else some (body (acc ++ [c]), [])
  | escape acc, c => some (body (acc ++ ['\\', c]), [])

/-- Characters read one after another: where the reader ends, and the tokens completed. -/
def run : Lex → List Char → Option (Lex × List Token)
  | st, [] => some (st, [])
  | st, c :: cs => (st.step c).bind fun r => (run r.1 cs).map fun r' => (r'.1, r.2 ++ r'.2)

/-- Inside a literal, a character that neither closes it, breaks the line nor escapes joins
the body. -/
theorem step_body_plain {c : Char} (hq : c ≠ '\'') (hn : c ≠ '\n') (hb : c ≠ '\\') (acc : List Char) :
    step (body acc) c = some (body (acc ++ [c]), []) := by
  simp [step, hq, hn, hb]

@[simp] theorem run_nil (st : Lex) : run st [] = some (st, []) := rfl

theorem run_cons (st : Lex) (c : Char) (cs : List Char) :
    run st (c :: cs) = (st.step c).bind fun r => (run r.1 cs).map fun r' => (r'.1, r.2 ++ r'.2) :=
  rfl

/-- A step hands the rest of the reading on, its tokens first. -/
theorem run_cons_emit {st m : Lex} {c : Char} {out : List Token} (h : st.step c = some (m, out))
    (cs : List Char) : run st (c :: cs) = (run m cs).map fun r => (r.1, out ++ r.2) := by
  simp [run_cons, h]

/-- A step that completes no token hands the rest of the reading on. -/
theorem run_cons_of_step {st m : Lex} {c : Char} (h : st.step c = some (m, [])) (cs : List Char) :
    run st (c :: cs) = run m cs := by
  simp [run_cons_emit h]

/-- **Reading is compositional**: once a part is read, what follows is read from where the
reader stands, and its tokens come after those of the part. -/
theorem run_append_of_eq {st m : Lex} {xs : List Char} {out : List Token}
    (h : run st xs = some (m, out)) (ys : List Char) :
    run st (xs ++ ys) = (run m ys).map fun r => (r.1, out ++ r.2) := by
  induction xs generalizing st out with
  | nil =>
    obtain ⟨rfl, rfl⟩ := Prod.mk.inj (Option.some.inj h.symm)
    simp
  | cons c xs ih =>
    rw [run_cons] at h
    obtain ⟨r, hr, h⟩ := Option.bind_eq_some_iff.1 h
    obtain ⟨r', hr', h⟩ := Option.map_eq_some_iff.1 h
    obtain ⟨rfl, rfl⟩ := Prod.mk.inj h
    simp [run_cons, hr, ih hr', Option.map_map, Function.comp_def]

end Lex

/-! ### Quoted texts -/

/-- The characters a literal escapes: the backslash, the line break and the single quote. -/
def Escaped (c : Char) : Prop := c = '\\' ∨ c = '\n' ∨ c = '\''

instance : DecidablePred Escaped := fun c =>
  inferInstanceAs (Decidable (c = '\\' ∨ c = '\n' ∨ c = '\''))

theorem escapeChar_eq (c : Char) : escapeChar c = if Escaped c then ['\\', c] else [c] := by
  unfold escapeChar
  split <;> simp_all [Escaped]

/-- **The escapes form a prefix code**: the first character written decides which character it
stands for, and so where the next one starts. -/
theorem escapeChar_append_inj {c d : Char} {xs ys : List Char}
    (h : escapeChar c ++ xs = escapeChar d ++ ys) : c = d ∧ xs = ys := by
  rw [escapeChar_eq, escapeChar_eq] at h
  split_ifs at h with hc hd hd
  · simpa using h
  · -- an escape against a character written as itself: that character is a backslash
    obtain ⟨hd', -⟩ := List.cons.inj h
    exact absurd (.inl hd'.symm) hd
  · obtain ⟨hc', -⟩ := List.cons.inj h
    exact absurd (.inl hc') hc
  · simpa using h

theorem escapeChar_ne_nil (c : Char) : escapeChar c ≠ [] := by
  rw [escapeChar_eq]
  split <;> simp

theorem flatMap_escapeChar_injective :
    Function.Injective fun cs : List Char => cs.flatMap escapeChar := by
  intro cs
  induction cs with
  | nil =>
    rintro (_ | ⟨d, ds⟩) h
    · rfl
    · simp only [List.flatMap_nil, List.flatMap_cons] at h
      exact absurd (List.append_eq_nil_iff.1 h.symm).1 (escapeChar_ne_nil d)
  | cons c cs ih =>
    rintro (_ | ⟨d, ds⟩) h
    · simp only [List.flatMap_nil, List.flatMap_cons] at h
      exact absurd (List.append_eq_nil_iff.1 h).1 (escapeChar_ne_nil c)
    · simp only [List.flatMap_cons] at h
      obtain ⟨rfl, hrest⟩ := escapeChar_append_inj h
      rw [ih hrest]

/-- **Two texts with the same literal are the same.** -/
theorem quote_injective : Function.Injective quote := by
  intro s t h
  have hq : quoteList s.toList = quoteList t.toList := by
    simpa [quote] using congrArg String.toList h
  simp only [quoteList, List.cons.injEq, true_and, List.append_cancel_right_eq] at hq
  exact String.toList_inj.1 (flatMap_escapeChar_injective hq)

/-- A literal body as written: each character either stands as itself, being no single quote,
line break or backslash, or is a backslash with the character it takes. -/
inductive LiteralBody : List Char → Prop
  | nil : LiteralBody []
  | plain {c : Char} {cs : List Char} (hq : c ≠ '\'') (hn : c ≠ '\n') (hb : c ≠ '\\') :
      LiteralBody cs → LiteralBody (c :: cs)
  | escape (c : Char) {cs : List Char} : LiteralBody cs → LiteralBody ('\\' :: c :: cs)

namespace LiteralBody

theorem append {xs ys : List Char} (hx : LiteralBody xs) (hy : LiteralBody ys) :
    LiteralBody (xs ++ ys) := by
  induction hx with
  | nil => exact hy
  | plain hq hn hb _ ih => exact .plain hq hn hb ih
  | escape c _ ih => exact .escape c ih

/-- Characters that all stand as themselves make a body. -/
theorem of_forall {xs : List Char} (h : ∀ x ∈ xs, x ≠ '\'' ∧ x ≠ '\n' ∧ x ≠ '\\') :
    LiteralBody xs := by
  induction xs with
  | nil => exact .nil
  | cons x xs ih =>
    obtain ⟨hq, hn, hb⟩ := h x List.mem_cons_self
    exact .plain hq hn hb (ih fun y hy => h y (List.mem_cons_of_mem x hy))

/-- **A body is read whole**: inside a literal the reader takes it into the literal and stands
after it still inside. -/
theorem run {xs : List Char} (h : LiteralBody xs) (acc rest : List Char) :
    Lex.run (.body acc) (xs ++ rest) = Lex.run (.body (acc ++ xs)) rest := by
  induction h generalizing acc with
  | nil => simp
  | @plain c cs hq hn hb _ ih =>
    rw [List.cons_append, Lex.run_cons_of_step (Lex.step_body_plain hq hn hb acc), ih]
    simp
  | escape c _ ih =>
    -- the backslash, then the character it takes, whatever that is
    rw [List.cons_append, List.cons_append, Lex.run_cons_of_step (by rfl),
      Lex.run_cons_of_step (by rfl), ih]
    simp

/-- Every single quote of a body follows a backslash. -/
theorem quotesEscaped {xs : List Char} (h : LiteralBody xs) (prev : Option Char) :
    Text.quotesEscaped prev xs = true := by
  induction h generalizing prev with
  | nil => rfl
  | plain hq _ _ _ ih => simp [Text.quotesEscaped, hq, ih]
  | escape c _ ih => simp [Text.quotesEscaped, ih]

end LiteralBody

/-- An escaped text is a body. -/
theorem literalBody_flatMap_escapeChar (cs : List Char) : LiteralBody (cs.flatMap escapeChar) := by
  induction cs with
  | nil => exact .nil
  | cons c cs ih =>
    rw [List.flatMap_cons, escapeChar_eq]
    split
    · exact .escape c ih
    · rename_i hc
      simp only [Escaped, not_or] at hc
      exact .plain hc.2.2 hc.2.1 hc.1 ih

/-- A literal whose body is a body in the grammar's sense: read from outside literals, it gives
one literal token and ends outside literals. -/
theorem run_quoted {xs : List Char} (h : LiteralBody xs) :
    Lex.code.run ('\'' :: (xs ++ ['\''])) = some (.code, [.literal xs]) := by
  rw [Lex.run_cons_of_step (by rfl), h.run, List.nil_append]
  rfl

/-- **A quoted text is one literal**: read from outside literals it gives one literal token,
whose body is the text escaped, and ends outside literals. -/
theorem run_quoteList (cs : List Char) :
    Lex.code.run (quoteList cs) = some (.code, [.literal (cs.flatMap escapeChar)]) :=
  run_quoted (literalBody_flatMap_escapeChar cs)

/-- A quoted text passes the generator's own test for string literals. -/
theorem isStringLiteral_quote (s : String) : isStringLiteral (quote s) = true := by
  have hlead : dropBlanks (quoteList s.toList) = quoteList s.toList :=
    List.dropWhile_cons_of_neg (by decide)
  have htrail : dropTrailingBlanks (quoteList s.toList) = quoteList s.toList := by
    rw [dropTrailingBlanks, quoteList, ← List.cons_append, List.reverse_append, List.reverse_singleton,
      List.singleton_append, List.dropWhile_cons_of_neg (by decide), List.reverse_cons,
      List.reverse_reverse]
  simp only [isStringLiteral, quote, String.toList_ofList, hlead, htrail]
  simp [quoteList, (literalBody_flatMap_escapeChar _).quotesEscaped]

/-! ### Texts of several lines -/

theorem lines_eq_splitOn (cs : List Char) : lines cs = cs.splitOn '\n' := by
  induction cs with
  | nil => rfl
  | cons c cs ih =>
    rw [List.splitOn_cons_eq_if_modifyHead, ← ih]
    by_cases hc : c = '\n'
    · subst hc
      simp [lines_cons_newline]
    · obtain ⟨p, ps, hp⟩ := List.exists_cons_of_ne_nil (lines_ne_nil cs)
      rw [hp, lines, pieces_cons_of_ne hc hp]
      simp [hc]

/-- **A text of several lines is written as the literals of its lines**, the lines being the
pieces between its line breaks, joined by `+ '\n' +` and a line break. -/
theorem multilineQuote_eq_intercalate (s : String) :
    multilineQuote s = String.intercalate " + '\\n' +\n"
      (((s.split '\n').toList.map String.Slice.copy).map quote) := by
  rw [String.toList_split_char, ← String.toList_inj, String.toList_intercalate, multilineQuote,
    String.toList_ofList, lines_eq_splitOn, List.map_map, List.map_map]
  congr 1
  exact List.map_congr_left fun l _ => by simp [quote]

theorem newline_mem_escapeChar_iff (c : Char) : '\n' ∈ escapeChar c ↔ c = '\n' := by
  rw [escapeChar_eq]
  split <;> simp_all [Escaped, eq_comm]

theorem newline_mem_quoteList_iff (cs : List Char) : '\n' ∈ quoteList cs ↔ '\n' ∈ cs := by
  simp [quoteList, newline_mem_escapeChar_iff]

/-- The characters between the literals of two lines. -/
def lineJoint : List Char := " + '\\n' +".toList

theorem multilineQuote_toList (s : String) :
    (multilineQuote s).toList = (lineJoint ++ ['\n']).intercalate ((lines s.toList).map quoteList) := by
  rw [multilineQuote, String.toList_ofList]
  congr 1

/-- **A text of several lines is written with a line break exactly when it has one.** -/
theorem newline_mem_multilineQuote_iff (s : String) :
    '\n' ∈ (multilineQuote s).toList ↔ '\n' ∈ s.toList := by
  rw [multilineQuote_toList]
  by_cases h : '\n' ∈ s.toList
  · -- two lines or more: the joint between the first two holds a line break
    obtain ⟨l, rest, hl, hs⟩ := exists_first_newline h
    obtain ⟨m, ms, hm⟩ := List.exists_cons_of_ne_nil (lines_ne_nil rest)
    rw [hs, lines_append_newline hl, hm, List.map_cons, List.map_cons, List.intercalate_cons_cons]
    simp
  · rw [lines_of_not_mem h, List.map_singleton, List.intercalate_singleton]
    exact iff_of_false (mt (newline_mem_quoteList_iff _).1 h) h

/-- Every line break of a text stands outside literals: each of its lines, read from outside
literals, ends outside literals. -/
def BreaksOutsideLiterals (cs : List Char) : Prop :=
  ∀ l ∈ lines cs, ∃ toks, Lex.code.run l = some (.code, toks)

/-- Lines read from outside literals to outside literals, joined by a joint read alike and a line
break, have their line breaks outside literals. -/
theorem breaksOutsideLiterals_intercalate {w : List Char} (hw : '\n' ∉ w)
    (hwrun : ∃ toks, Lex.code.run w = some (.code, toks)) :
    ∀ {qs : List (List Char)}, qs ≠ [] → (∀ q ∈ qs, '\n' ∉ q) →
      (∀ q ∈ qs, ∃ toks, Lex.code.run q = some (.code, toks)) →
      BreaksOutsideLiterals ((w ++ ['\n']).intercalate qs)
  | [], hne, _, _ => absurd rfl hne
  | [q], _, hnl, hrun => by
    intro l hl
    rw [List.intercalate_singleton, lines_of_not_mem (hnl q (by simp))] at hl
    rw [List.mem_singleton.1 hl]
    exact hrun q (by simp)
  | q :: q' :: qs, _, hnl, hrun => by
    intro l hl
    have hqw : '\n' ∉ q ++ w := by simpa [not_or] using ⟨hnl q (by simp), hw⟩
    have hsplit : (w ++ ['\n']).intercalate (q :: q' :: qs) =
        (q ++ w) ++ '\n' :: (w ++ ['\n']).intercalate (q' :: qs) := by
      simp [List.intercalate_cons_cons]
    rw [hsplit, lines_append_newline hqw] at hl
    rcases List.mem_cons.1 hl with rfl | hl
    · -- the first line: a literal, then the joint
      obtain ⟨t, ht⟩ := hrun q (by simp)
      obtain ⟨t', ht'⟩ := hwrun
      exact ⟨t ++ t', by rw [Lex.run_append_of_eq ht, ht']; rfl⟩
    · exact breaksOutsideLiterals_intercalate hw hwrun (List.cons_ne_nil _ _)
        (fun q hq => hnl q (List.mem_cons_of_mem _ hq))
        (fun q hq => hrun q (List.mem_cons_of_mem _ hq)) l hl

theorem lineJoint_eq : lineJoint = [' ', '+', ' ', '\'', '\\', 'n', '\'', ' ', '+'] := by
  unfold lineJoint
  simp only [String.reduceToList]

/-- The joint is read outside literals, with the literal of a line break in it. -/
theorem run_lineJoint : Lex.code.run lineJoint = some (.code,
    [.code ' ', .code '+', .code ' ', .literal ['\\', 'n'], .code ' ', .code '+']) := by
  rw [lineJoint_eq]
  decide

/-- **The line breaks of a text of several lines stand outside literals.** -/
theorem breaksOutsideLiterals_multilineQuote (s : String) :
    BreaksOutsideLiterals (multilineQuote s).toList := by
  rw [multilineQuote_toList]
  refine breaksOutsideLiterals_intercalate (by rw [lineJoint_eq]; decide) ⟨_, run_lineJoint⟩
    (by simpa using lines_ne_nil _) ?_ ?_
  · simp only [List.mem_map]
    rintro _ ⟨l, hl, rfl⟩
    exact mt (newline_mem_quoteList_iff l).1 (not_mem_of_mem_lines hl)
  · simp only [List.mem_map]
    rintro _ ⟨l, -, rfl⟩
    exact ⟨_, run_quoteList l⟩

/-- **Quoting writes single literals.**  A quoted text, read from outside literals, is one
literal token and leaves the reader outside literals; two texts have the same quoted form only
if they are the same; a quoted text passes `isStringLiteral`.  A text of several lines is
written as the literals of its lines, joined by `+ '\n' +` and a line break; it holds a line
break exactly when the text does, and each of them stands outside literals. -/
theorem quote_writes_single_literals :
    (∀ s : String,
      Lex.code.run (quote s).toList = some (.code, [.literal (s.toList.flatMap escapeChar)])) ∧
    Function.Injective quote ∧
    (∀ s, isStringLiteral (quote s) = true) ∧
    (∀ s, multilineQuote s = String.intercalate " + '\\n' +\n"
      (((s.split '\n').toList.map String.Slice.copy).map quote)) ∧
    (∀ s, '\n' ∈ (multilineQuote s).toList ↔ '\n' ∈ s.toList) ∧
    ∀ s, BreaksOutsideLiterals (multilineQuote s).toList :=
  ⟨fun s => by simpa [quote] using run_quoteList s.toList, quote_injective, isStringLiteral_quote,
    multilineQuote_eq_intercalate, newline_mem_multilineQuote_iff,
    breaksOutsideLiterals_multilineQuote⟩

end Text
end BlockScribe
