import BlockScribe.Proofs.Script.Lexer
import BlockScribe.Generate.Rules.Text
/-!
# What text constants stand for, at every depth of indentation

Code is read as the script reads it (`exprText`): its tokens (`Script.Lx.lex`) must make string
literals joined by `+`, in brackets or not; the white space and line terminators between them
(`isGap`) make no tokens.  A literal stands for its characters, each escape for what the script
makes of it (`escapeValue`: a backslash or a quote for itself, `n` for a line feed, a line break
for nothing, the literal going on on the next line), and a sum for the texts of its parts one
after another.  The reader takes no raw line feed or carriage return into a literal
(`Script.Lx.StrBody`).  `SumOf code v` says that code reads so and stands for `v`; it is built from
literals (`SumOf.literal`), sums (`SumOf.add`) and brackets (`SumOf.paren`).

A statement in a body is put under one more unit of indentation per level (`prefixList`).  Inside
a line that only adds the unit after each line break (`spread`), so after `d` levels the code of
an expression has `d` units after each of its line breaks (`iterate_prefixList`).

A text of several lines is written as the literals of its lines, joined by `+ '\n' +` and a line
break that stands outside literals: whatever the indentation puts after that line break is white
space between two literals, and the code stands for the text at every depth
(`sumOf_multiline`).  A plain text literal writes a line break as a backslash and the line break,
which the script reads as the literal going on on the next line: it stands for nothing, and the
indentation after it stands inside the literal.  At depth `d` such a literal stands for the text
with every line break replaced by `d` units (`sumOf_quoted`), so only a text without line breaks
keeps its meaning (`text_literals_denote_after_reindent`).  Both write a carriage return as it
is, and a literal that holds one is not read at all: the texts must hold none.
-/

namespace BlockScribe
namespace Text

open Script

/-! ### Reading -/

/-- The text a literal body stands for; `none` when it holds an escape that is not read here. -/
def bodyText : List Char → Option (List Char)
  | [] => some []
  | c :: rest =>
    if c = '\\' then
      match rest with
      | [] => none
      | e :: rest => (escapeValue e).bind fun v => (bodyText rest).map (v ++ ·)
    else (bodyText rest).map (c :: ·)

theorem bodyText_escape (e : Char) (rest : List Char) :
    bodyText ('\\' :: e :: rest) = (escapeValue e).bind fun v => (bodyText rest).map (v ++ ·) := by
  simp [bodyText]

theorem bodyText_plain {c : Char} (hc : c ≠ '\\') (rest : List Char) :
    bodyText (c :: rest) = (bodyText rest).map (c :: ·) := by
  rw [bodyText.eq_def]
  exact if_neg hc

/-- Characters that are no backslash stand for themselves. -/
theorem bodyText_append_of_forall {xs : List Char} (h : ∀ x ∈ xs, x ≠ '\\') (rest : List Char) :
    bodyText (xs ++ rest) = (bodyText rest).map (xs ++ ·) := by
  induction xs with
  | nil => simp
  | cons x xs ih =>
    rw [List.cons_append, bodyText_plain (h x List.mem_cons_self),
      ih fun y hy => h y (List.mem_cons_of_mem x hy), Option.map_map]
    rfl

/-- What a token adds to the text of an expression: a string literal the text of its body, any
other token nothing. -/
def tokText : Tok → Option (List Char)
  | .str body => bodyText body
  | _ => some []

/-- The text of tokens one after another. -/
def tokensText : List Tok → Option (List Char)
  | [] => some []
  | t :: ts => (tokText t).bind fun v => (tokensText ts).map (v ++ ·)

theorem tokensText_append (xs ys : List Tok) :
    tokensText (xs ++ ys) = (tokensText xs).bind fun v => (tokensText ys).map (v ++ ·) := by
  induction xs with
  | nil => simp [tokensText]
  | cons t xs ih =>
    simp only [List.cons_append, tokensText, ih]
    cases tokText t with
    | none => rfl
    | some v =>
      cases tokensText xs with
      | none => rfl
      | some v' => cases tokensText ys <;> simp

/-- One token of an expression read, with the brackets open and whether an operand comes next;
`none` where the token cannot stand.  An expression is an operand, then `+` and an operand as
often as wanted; an operand is a string literal or an expression in brackets. -/
def shapeStep (s : Nat × Bool) : Tok → Option (Nat × Bool)
  | .str _ => if s.2 then some (s.1, false) else none
  | .punct p =>
    if p = ['+'] then if s.2 then none else some (s.1, true)
    else if p = ['('] then if s.2 then some (s.1 + 1, true) else none
    else if p = [')'] then if s.2 ∨ s.1 = 0 then none else some (s.1 - 1, false)
    else none
  | _ => none

/-- The text that code stands for, read as an expression of string literals joined by `+`. -/
def exprText (code : List Char) : Option (List Char) :=
  (Lx.lex code).bind fun toks =>
    if toks.foldlM shapeStep (0, true) = some (0, false) then tokensText toks else none

/-! ### Sums of literals -/

/-- Code that, read from between tokens, is an operand standing for `v`: its tokens end between
tokens, make an operand inside any number of brackets, and stand for `v`. -/
def SumOf (code v : List Char) : Prop :=
  ∃ toks, Lx.run .start code = some (.start, toks) ∧
    (∀ n, toks.foldlM shapeStep (n, true) = some (n, false)) ∧ tokensText toks = some v

/-- **An operand is read as the text it stands for.** -/
theorem exprText_of_sumOf {code v : List Char} (h : SumOf code v) : exprText code = some v := by
  obtain ⟨toks, hrun, hshape, htext⟩ := h
  have hblank : Lx.run .start [' '] = some (.start, []) := by decide
  have hlex : Lx.lex code = some toks := by
    simp [Lx.lex, Lx.run_append_of_eq hrun, hblank]
  simp [exprText, hlex, hshape 0, htext]

/-- White space is read between tokens, and makes none. -/
theorem run_gaps {g : List Char} (hg : ∀ c ∈ g, isGap c = true) :
    Lx.run .start g = some (.start, []) := by
  induction g with
  | nil => rfl
  | cons c g ih =>
    have hstep : Lx.step .start c = some (.start, []) := by
      simp [Lx.step, Lx.begin, hg c List.mem_cons_self]
    rw [Lx.run_cons_of_step hstep, ih fun d hd => hg d (List.mem_cons_of_mem c hd)]

namespace SumOf

/-- A literal stands for the text of its body. -/
theorem literal {body v : List Char} (hb : Lx.StrBody body) (hv : bodyText body = some v) :
    SumOf ('\'' :: (body ++ ['\''])) v :=
  ⟨[.str body], by simpa using Lx.run_string hb [], fun n => by simp [shapeStep],
    by simp [tokensText, tokText, hv]⟩

/-- Two operands with `+` between them, white space around it and some after it, stand for
their texts one after the other. -/
theorem add {x y v w g₁ g₂ : List Char} (hx : SumOf x v) (hy : SumOf y w)
    (hg₁ : ∀ c ∈ g₁, isGap c = true) (hg₂ : ∀ c ∈ g₂, isGap c = true) (hne : g₂ ≠ []) :
    SumOf (x ++ (g₁ ++ '+' :: (g₂ ++ y))) (v ++ w) := by
  obtain ⟨tx, hrx, hsx, htx⟩ := hx
  obtain ⟨ty, hry, hsy, hty⟩ := hy
  obtain ⟨c, g, rfl⟩ := List.exists_cons_of_ne_nil hne
  refine ⟨tx ++ .punct ['+'] :: ty, ?_, fun n => ?_, ?_⟩
  · -- the `+` is completed by the white space after it, which the reader then skips
    have hc := ne_of_isGap (hg₂ c List.mem_cons_self)
    have hplus : Lx.step .start '+' = some (.punct ['+'], []) := by decide
    rw [Lx.run_append_of_eq hrx, Lx.run_append_of_eq (run_gaps hg₁), Lx.run_cons_of_step hplus,
      List.cons_append, Lx.run_close (Lx.step_plus hc.2.2.1 hc.2.2.2.2.2), ← List.cons_append,
      Lx.run_append_of_eq (run_gaps hg₂), hry]
    simp
  · have hplus : shapeStep (n, false) (.punct ['+']) = some (n, true) := rfl
    simp only [List.foldlM_append, List.foldlM_cons, hsx n, hplus, hsy n, Option.bind_eq_bind,
      Option.bind_some]
  · simp [tokensText_append, htx, hty, tokensText, tokText]

/-- An operand in brackets stands for what it stands for. -/
theorem paren {x v : List Char} (hx : SumOf x v) : SumOf ('(' :: (x ++ [')'])) v := by
  obtain ⟨tx, hrx, hsx, htx⟩ := hx
  refine ⟨.punct ['('] :: (tx ++ [.punct [')']]), ?_, fun n => ?_, ?_⟩
  · have hopen : Lx.step .start '(' = some (.start, [.punct ['(']]) := by decide
    have hclose : Lx.run .start [')'] = some (.start, [.punct [')']]) := by decide
    rw [Lx.run_cons_emit hopen, Lx.run_append_of_eq hrx, hclose]
    rfl
  · have hopen : shapeStep (n, true) (.punct ['(']) = some (n + 1, true) := rfl
    have hclose : shapeStep (n + 1, false) (.punct [')']) = some (n, false) := rfl
    simp only [List.foldlM_cons, hopen, List.foldlM_append, hsx (n + 1), hclose,
      Option.bind_eq_bind, Option.bind_some, List.foldlM_nil]
    rfl
  · simp [tokensText_append, htx, tokensText, tokText]

end SumOf

/-! ### Indentation inside a line -/

/-- A text with `pre` after each of its line breaks: what putting `pre` before every line makes
of a text that stands inside a line. -/
def spread (pre cs : List Char) : List Char :=
  cs.flatMap fun c => if c = '\n' then '\n' :: pre else [c]

@[simp] theorem spread_nil (pre : List Char) : spread pre [] = [] := rfl

@[simp] theorem spread_append (pre xs ys : List Char) :
    spread pre (xs ++ ys) = spread pre xs ++ spread pre ys :=
  List.flatMap_append

theorem spread_cons_of_ne {c : Char} (hc : c ≠ '\n') (pre cs : List Char) :
    spread pre (c :: cs) = c :: spread pre cs := by
  simp [spread, hc]

theorem spread_newline (pre cs : List Char) : spread pre ('\n' :: cs) = '\n' :: (pre ++ spread pre cs) := by
  simp [spread]

/-- Nothing after the line breaks leaves a text as it is. -/
@[simp] theorem spread_empty (cs : List Char) : spread [] cs = cs := by
  induction cs with
  | nil => rfl
  | cons c cs ih =>
    by_cases hc : c = '\n'
    · subst hc
      rw [spread_newline, List.nil_append, ih]
    · rw [spread_cons_of_ne hc, ih]

theorem spread_of_not_mem {cs : List Char} (h : '\n' ∉ cs) (pre : List Char) : spread pre cs = cs := by
  induction cs with
  | nil => rfl
  | cons c cs ih =>
    simp only [List.mem_cons, not_or] at h
    rw [spread_cons_of_ne (Ne.symm h.1), ih h.2]

/-- Two levels of indentation inside a line are their units one after the other. -/
theorem spread_spread {w : List Char} (hw : '\n' ∉ w) (u cs : List Char) :
    spread u (spread w cs) = spread (u ++ w) cs := by
  induction cs with
  | nil => rfl
  | cons c cs ih =>
    by_cases hc : c = '\n'
    · subst hc
      rw [spread_newline, spread_newline, spread_newline, spread_append, spread_of_not_mem hw, ih,
        List.append_assoc]
    · rw [spread_cons_of_ne hc, spread_cons_of_ne hc, spread_cons_of_ne hc, ih]

/-- Lines joined by a line break and `pre`: the lines joined by line breaks, with `pre` after
each. -/
theorem intercalate_newline_eq_spread (pre : List Char) :
    ∀ {ls : List (List Char)}, (∀ l ∈ ls, '\n' ∉ l) →
      ('\n' :: pre).intercalate ls = spread pre (unlines ls)
  | [], _ => rfl
  | [l], h => by
    rw [List.intercalate_singleton, unlines, List.intercalate_singleton,
      spread_of_not_mem (h l List.mem_cons_self)]
  | l :: l' :: ls, h => by
    rw [List.intercalate_cons_cons, unlines_cons_of_ne_nil l (List.cons_ne_nil _ _),
      intercalate_newline_eq_spread pre fun m hm => h m (List.mem_cons_of_mem l hm),
      spread_append, spread_append, spread_of_not_mem (h l List.mem_cons_self)]
    simp [spread_newline]

/-- **A prefix before every line**, for a text that ends its last line: `pre` at its start and
after each line break but the last. -/
theorem prefixList_append_newline (pre x : List Char) :
    prefixList (x ++ ['\n']) pre = pre ++ spread pre x ++ ['\n'] := by
  rw [prefixList_of_getLast (by simp), List.dropLast_concat,
    ← prefix_intercalate pre (lines_ne_nil x),
    intercalate_newline_eq_spread pre fun l hl => not_mem_of_mem_lines hl, unlines_lines]

/-- **Nested bodies**: under `d` levels of indentation, a statement's text before an expression
gets its units at the start of its lines, and the expression and the text after it get `d` units
after each of their line breaks. -/
theorem iterate_prefixList {u : List Char} (hu : '\n' ∉ u) (d : Nat) (a e b : List Char) :
    (fun cs => prefixList cs u)^[d] (a ++ e ++ b ++ ['\n']) =
      (fun x => u ++ spread u x)^[d] a ++ spread (List.replicate d u).flatten e ++
        spread (List.replicate d u).flatten b ++ ['\n'] := by
  induction d with
  | zero => simp
  | succ d ih =>
    have hw : '\n' ∉ (List.replicate d u).flatten := by
      simp only [List.mem_flatten, List.mem_replicate, not_exists, not_and]
      rintro l ⟨-, rfl⟩
      exact hu
    rw [Function.iterate_succ_apply', ih, Function.iterate_succ_apply', prefixList_append_newline,
      spread_append, spread_append, spread_spread hw, spread_spread hw, List.replicate_succ,
      List.flatten_cons]
    simp only [List.append_assoc]

/-! ### The codes of text constants -/

/-- White space other than a line feed or a carriage return is a body of literal characters. -/
theorem strBody_of_gaps {w : List Char} (hw : ∀ c ∈ w, isGap c = true ∧ c ≠ '\n' ∧ c ≠ '\r') :
    Lx.StrBody w := by
  induction w with
  | nil => exact .nil
  | cons c w ih =>
    have hc := hw c List.mem_cons_self
    exact .plain (ne_of_isGap hc.1).1 (ne_of_isGap hc.1).2.1 hc.2.1 hc.2.2
      (ih fun d hd => hw d (List.mem_cons_of_mem c hd))

/-- A body with white space after its line breaks is still a body: the white space stands in
the literal for itself. -/
theorem strBody_spread {w : List Char} (hw : ∀ c ∈ w, isGap c = true ∧ c ≠ '\n' ∧ c ≠ '\r')
    {xs : List Char} (h : Lx.StrBody xs) : Lx.StrBody (spread w xs) := by
  induction h with
  | nil => exact .nil
  | plain hq hb hn hr _ ih =>
    rw [spread_cons_of_ne hn]
    exact .plain hq hb hn hr ih
  | @escape c _ he _ ih =>
    rw [spread_cons_of_ne (by decide)]
    by_cases hc : c = '\n'
    · subst hc
      rw [spread_newline]
      exact .escape he ((strBody_of_gaps hw).append ih)
    · rw [spread_cons_of_ne hc]
      exact .escape he ih

/-- The text a literal stands for at depth `d`: an escaped line break stands for nothing, so the
indentation after it takes its place. -/
theorem bodyText_spread_flatMap_escapeChar {w : List Char} (hw : ∀ c ∈ w, isGap c = true)
    (t : List Char) :
    bodyText (spread w (t.flatMap escapeChar)) =
      some (t.flatMap fun c => if c = '\n' then w else [c]) := by
  induction t with
  | nil => rfl
  | cons c t ih =>
    rw [List.flatMap_cons, spread_append, escapeChar_eq, List.flatMap_cons]
    split
    · rename_i hc
      rw [spread_cons_of_ne (by decide), List.cons_append]
      rcases hc with rfl | rfl | rfl
      · rw [spread_cons_of_ne (by decide), spread_nil, List.singleton_append, bodyText_escape, ih]
        rfl
      · -- the line break, then the white space that stands in its place
        rw [spread_newline, spread_nil, List.append_nil, List.cons_append, bodyText_escape,
          bodyText_append_of_forall (fun x hx => (ne_of_isGap (hw x hx)).2.1), ih]
        rfl
      · rw [spread_cons_of_ne (by decide), spread_nil, List.singleton_append, bodyText_escape, ih]
        rfl
    · rename_i hc
      simp only [Escaped, not_or] at hc
      rw [spread_cons_of_ne hc.2.1, spread_nil, List.cons_append, List.nil_append,
        bodyText_plain hc.1, ih]
      simp [hc.2.1]

/-- **A quoted text at depth `d`** without carriage returns stands for the text with each line
break replaced by the white space that the indentation put after it. -/
theorem sumOf_quoted {w : List Char} (hw : ∀ c ∈ w, isGap c = true ∧ c ≠ '\n' ∧ c ≠ '\r')
    {t : List Char} (ht : '\r' ∉ t) :
    SumOf (spread w (quoteList t)) (t.flatMap fun c => if c = '\n' then w else [c]) := by
  have hcode : spread w (quoteList t) = '\'' :: (spread w (t.flatMap escapeChar) ++ ['\'']) := by
    rw [quoteList, spread_cons_of_ne (by decide), spread_append, spread_cons_of_ne (by decide),
      spread_nil]
  rw [hcode]
  exact .literal (strBody_spread hw ((Lx.strBody_escape_iff t).2 ht))
    (bodyText_spread_flatMap_escapeChar (fun c hc => (hw c hc).1) t)

theorem flatMap_newline_of_not_mem {l : List Char} (h : '\n' ∉ l) (w : List Char) :
    (l.flatMap fun c => if c = '\n' then w else [c]) = l := by
  induction l with
  | nil => rfl
  | cons c l ih =>
    simp only [List.mem_cons, not_or] at h
    simp [Ne.symm h.1, ih h.2]

/-- The literal of a line without carriage returns stands for the line. -/
theorem sumOf_quoteList {l : List Char} (hn : '\n' ∉ l) (hr : '\r' ∉ l) : SumOf (quoteList l) l := by
  simpa [flatMap_newline_of_not_mem hn] using sumOf_quoted (w := []) (by simp) hr

/-- The literals of lines joined by `+ '\n' +` and a line break, with white space after each
line break, stand for the lines joined by line breaks. -/
theorem sumOf_lines {w : List Char} (hw : ∀ c ∈ w, isGap c = true ∧ c ≠ '\n') :
    ∀ {ls : List (List Char)}, ls ≠ [] → (∀ l ∈ ls, '\n' ∉ l ∧ '\r' ∉ l) →
      SumOf (spread w ((lineJoint ++ ['\n']).intercalate (ls.map quoteList))) (unlines ls)
  | [], h, _ => absurd rfl h
  | [l], _, hl => by
    have hl := hl l List.mem_cons_self
    simpa [unlines, spread_of_not_mem ((newline_mem_quoteList_iff l).not.2 hl.1)] using
      sumOf_quoteList hl.1 hl.2
  | l :: l' :: ls, _, hls => by
    have hl : '\n' ∉ l ∧ '\r' ∉ l := hls l List.mem_cons_self
    have ih := sumOf_lines hw (List.cons_ne_nil l' ls) fun m hm => hls m (List.mem_cons_of_mem l hm)
    have hbreak : SumOf ['\'', '\\', 'n', '\''] ['\n'] := .literal (.escape rfl .nil) rfl
    have hsp : ∀ c ∈ [' '], isGap c = true := by simp [show isGap ' ' = true by decide]
    have hnw : ∀ c ∈ '\n' :: w, isGap c = true := by
      simpa [show isGap '\n' = true by decide] using fun c hc => (hw c hc).1
    obtain ⟨R, hR⟩ : ∃ R, R = spread w ((lineJoint ++ ['\n']).intercalate ((l' :: ls).map quoteList)) :=
      ⟨_, rfl⟩
    rw [← hR] at ih
    -- a space, `+`, a space, the literal of a line break, a space, `+`, then the line break and
    -- the indentation after it
    have hcode : spread w ((lineJoint ++ ['\n']).intercalate ((l :: l' :: ls).map quoteList)) =
        quoteList l ++ ([' '] ++ '+' :: ([' '] ++ (['\'', '\\', 'n', '\''] ++
          ([' '] ++ '+' :: (('\n' :: w) ++ R))))) := by
      rw [hR, List.map_cons, List.map_cons, List.intercalate_cons_cons, ← List.map_cons,
        spread_append, spread_append, spread_append,
        spread_of_not_mem ((newline_mem_quoteList_iff l).not.2 hl.1), lineJoint_eq,
        spread_of_not_mem (by decide), spread_newline, spread_nil, List.append_nil]
      simp
    rw [hcode, unlines_cons_of_ne_nil l (List.cons_ne_nil _ _), List.append_assoc]
    exact (sumOf_quoteList hl.1 hl.2).add (hbreak.add ih hsp hnw (List.cons_ne_nil _ _)) hsp hsp
      (List.cons_ne_nil _ _)

/-- **A text of several lines at depth `d`**, without carriage returns, stands for the text: its
literals stand for its lines, and the indentation only adds white space between them. -/
theorem sumOf_multiline {w : List Char} (hw : ∀ c ∈ w, isGap c = true ∧ c ≠ '\n') {t : String}
    (ht : '\r' ∉ t.toList) :
    SumOf (spread w (if (multilineQuote t).contains '\n' then "(" ++ multilineQuote t ++ ")"
      else multilineQuote t).toList) t.toList := by
  rw [String.contains_char_eq]
  by_cases h : '\n' ∈ t.toList
  · rw [if_pos (by simpa using (newline_mem_multilineQuote_iff t).2 h), String.toList_append,
      String.toList_append, multilineQuote_toList]
    have hlines := sumOf_lines hw (lines_ne_nil t.toList) fun l hl =>
      ⟨not_mem_of_mem_lines hl, fun hr => ht ((sublist_of_mem_lines hl).subset hr)⟩
    rw [unlines_lines] at hlines
    simpa [spread_cons_of_ne] using hlines.paren
  · rw [if_neg (by simpa using (newline_mem_multilineQuote_iff t).not.2 h), multilineQuote_toList,
      lines_of_not_mem h, List.map_singleton, List.intercalate_singleton,
      spread_of_not_mem ((newline_mem_quoteList_iff _).not.2 h)]
    exact sumOf_quoteList h ht

/-- The code `e` of an expression stands for `v` at depth `d` of the unit `u`: wherever it stands
in a statement `a ++ e ++ b` ending with a line break, the statement put under `d` levels of `u`
is the text before it indented, code `E` that stands for `v`, and the text after it indented. -/
def StandsForAtDepth (u : List Char) (d : Nat) (e v : List Char) : Prop :=
  ∀ a b, ∃ E, (fun cs => prefixList cs u)^[d] (a ++ e ++ b ++ ['\n']) =
      (fun x => u ++ spread u x)^[d] a ++ E ++ spread (List.replicate d u).flatten b ++ ['\n'] ∧
    exprText E = some v

/-- Code whose indented form is an operand standing for `v` stands for `v` at that depth. -/
theorem standsForAtDepth_of_sumOf {u : List Char} (hu : '\n' ∉ u) {d : Nat} {e v : List Char}
    (h : SumOf (spread (List.replicate d u).flatten e) v) : StandsForAtDepth u d e v :=
  fun a b => ⟨_, iterate_prefixList hu d a e b, exprText_of_sumOf h⟩

/-- **Text constants at every depth of indentation.**  Put a statement that holds the code of a
text constant without carriage returns under `d` levels of a unit `u` of white space without line
feeds.  The code of a text of several lines then stands for the text; the code of a plain text
constant, when the unit holds no carriage return either, stands for the text with every line
break replaced by the `d` units the indentation put after it. -/
theorem text_literals_denote_after_reindent (ch : Children) (blk : Block) {u : List Char}
    (hu : ∀ c ∈ u, isGap c = true ∧ c ≠ '\n') (d : Nat)
    (ht : '\r' ∉ (textField blk "TEXT").toList) :
    (∃ e, Rules.textMultiline ch blk = pure (.value e .atomic) ∧
      StandsForAtDepth u d e.toList (textField blk "TEXT").toList) ∧
    (∃ e, Rules.text ch blk = pure (.value e .atomic) ∧ ('\r' ∉ u →
      StandsForAtDepth u d e.toList ((textField blk "TEXT").toList.flatMap fun c =>
        if c = '\n' then (List.replicate d u).flatten else [c]))) := by
  have hnl : '\n' ∉ u := fun h => (hu _ h).2 rfl
  have hmem : ∀ c ∈ (List.replicate d u).flatten, c ∈ u := by
    intro c hc
    obtain ⟨l, hl, hc⟩ := List.mem_flatten.1 hc
    rwa [(List.mem_replicate.1 hl).2] at hc
  refine ⟨⟨_, rfl, standsForAtDepth_of_sumOf hnl
      (sumOf_multiline (fun c hc => hu c (hmem c hc)) ht)⟩,
    ⟨_, rfl, fun hr => standsForAtDepth_of_sumOf hnl ?_⟩⟩
  -- inside the literal the units must keep the rules of a body: no carriage return
  have hw : ∀ c ∈ (List.replicate d u).flatten, isGap c = true ∧ c ≠ '\n' ∧ c ≠ '\r' :=
    fun c hc => ⟨(hu c (hmem c hc)).1, (hu c (hmem c hc)).2, fun h => hr (h ▸ hmem c hc)⟩
  simpa [quote] using sumOf_quoted hw ht

/-- Two lines `a` and `b`, two levels down in two spaces: the text of several lines stands for
them, the plain text constant for `a`, four spaces and `b`. -/
theorem text_literals_two_levels_down :
    (∀ c ∈ [' ', ' '], isGap c = true ∧ c ≠ '\n') ∧ '\r' ∉ "a\nb".toList ∧
    (∃ e, Rules.textMultiline ⟨fun _ _ => pure none, fun _ => pure ""⟩
        { id := "t", kind := "text_multiline", fields := ⟨[("TEXT", "a\nb")]⟩ } =
          pure (.value e .atomic) ∧ StandsForAtDepth [' ', ' '] 2 e.toList ['a', '\n', 'b']) ∧
    (∃ e, Rules.text ⟨fun _ _ => pure none, fun _ => pure ""⟩
        { id := "t", kind := "text", fields := ⟨[("TEXT", "a\nb")]⟩ } =
          pure (.value e .atomic) ∧
        StandsForAtDepth [' ', ' '] 2 e.toList ['a', ' ', ' ', ' ', ' ', 'b']) := by
  have hu : ∀ c ∈ [' ', ' '], isGap c = true ∧ c ≠ '\n' := by
    simp [show isGap ' ' = true by decide]
  have hr : '\r' ∉ "a\nb".toList := by decide
  have htext : ∀ kind, textField { id := "t", kind := kind, fields := ⟨[("TEXT", "a\nb")]⟩ } "TEXT" =
      "a\nb" := fun _ => rfl
  have h := text_literals_denote_after_reindent ⟨fun _ _ => pure none, fun _ => pure ""⟩
    { id := "t", kind := "text_multiline", fields := ⟨[("TEXT", "a\nb")]⟩ } hu 2 (by rw [htext]; exact hr)
  have h' := text_literals_denote_after_reindent ⟨fun _ _ => pure none, fun _ => pure ""⟩
    { id := "t", kind := "text", fields := ⟨[("TEXT", "a\nb")]⟩ } hu 2 (by rw [htext]; exact hr)
  rw [htext] at h h'
  simp only [String.reduceToList] at h h'
  obtain ⟨e, he, hs⟩ := h'.2
  exact ⟨hu, hr, h.1, e, he, by simpa using hs (by decide)⟩

/-- **A line break is lost from a plain text constant**, even with no indentation: the code of a
text constant `a`, a line break and `b` stands for `ab`.  A text of several lines under a unit
`x`, which is no white space, stands for nothing.  And a carriage return is written into the
literal as it is, so the code of a text `a`, a carriage return and `b` is not read at all. -/
theorem text_literals_lose_line_feeds_and_carriage_returns :
    Rules.text ⟨fun _ _ => pure none, fun _ => pure ""⟩
        { id := "t", kind := "text", fields := ⟨[("TEXT", "a\nb")]⟩ } =
      pure (.value (quote "a\nb") .atomic) ∧
    exprText (quote "a\nb").toList = some ['a', 'b'] ∧
    Rules.textMultiline ⟨fun _ _ => pure none, fun _ => pure ""⟩
        { id := "t", kind := "text_multiline", fields := ⟨[("TEXT", "a\nb")]⟩ } =
      pure (.value "('a' + '\\n' +\n'b')" .atomic) ∧
    exprText (spread ['x'] "('a' + '\\n' +\n'b')".toList) = none ∧
    Rules.textMultiline ⟨fun _ _ => pure none, fun _ => pure ""⟩
        { id := "t", kind := "text_multiline", fields := ⟨[("TEXT", "a\rb")]⟩ } =
      pure (.value "'a\rb'" .atomic) ∧
    exprText "'a\rb'".toList = none := by
  have hcode : (if (multilineQuote "a\nb").contains '\n' then "(" ++ multilineQuote "a\nb" ++ ")"
      else multilineQuote "a\nb") = "('a' + '\\n' +\n'b')" := by
    rw [String.contains_char_eq]
    decide
  have hreturn : (if (multilineQuote "a\rb").contains '\n' then "(" ++ multilineQuote "a\rb" ++ ")"
      else multilineQuote "a\rb") = "'a\rb'" := by
    rw [String.contains_char_eq]
    decide
  refine ⟨rfl, ?_, congrArg (fun e => (pure (.value e .atomic) : GenM Output)) hcode, ?_,
    congrArg (fun e => (pure (.value e .atomic) : GenM Output)) hreturn, ?_⟩ <;>
    simp only [quote, String.toList_ofList, String.reduceToList] <;> decide

end Text
end BlockScribe
