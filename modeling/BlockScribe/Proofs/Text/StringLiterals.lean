import BlockScribe.Proofs.Text.Tokens
/-!
# Which code the generator takes for a string literal

Before it joins texts, the generator asks whether the code of an operand is already a string
literal (`isStringLiteral`), and if so leaves out the `String(...)` around it.  The test trims the
code, asks for a single quote at either end and looks at the character before each single quote
between them: it must be a backslash (`isStringLiteral_iff`, `QuotesAfterBackslash`).

A reader of code (`Lex.run`) takes a backslash inside a literal with the character after it, and
stops at a line break that no backslash takes.  So code is one literal token, read whole from
outside literals (`LiteralToken`), exactly when it is a quote, a body and a quote
(`literalToken_iff`), and a body is one exactly when its escapes pair up (`EscapesPaired`): every
single quote and line break in it stands after an odd run of backslashes, the last of which takes
it, and it ends after an even run, so that no backslash is left to take the closing quote
(`literalBody_iff_escapesPaired`).

A backslash before a quote is not always one that takes it, so the test passes more than literal
tokens: `'a\'` passes, where the backslash takes the closing quote and the literal never ends
(`backslash_takes_closing_quote`); so do `'\\''`, whose second quote follows an escaped
backslash, and a quoted text with a line break in it.  Every literal token passes, and the test
is exact for a given code precisely when the body between its quotes, if its quotes follow
backslashes, has its escapes paired up (`isStringLiteral_is_token_exactly_when`).  What `quote`
writes is always a token (`run_quoteList`).
-/

namespace BlockScribe
namespace Text

/-! ### The generator's test -/

/-- Every single quote of `xs` stands right after a backslash. -/
def QuotesAfterBackslash (xs : List Char) : Prop :=
  ∀ p q, xs = p ++ '\'' :: q → p.getLast? = some '\\'

/-- The generator's test reads the character before each quote, `prev` standing before the
first. -/
theorem quotesEscaped_iff (prev : Option Char) (xs : List Char) :
    quotesEscaped prev xs = true ↔
      ∀ p q, xs = p ++ '\'' :: q → (prev.toList ++ p).getLast? = some '\\' := by
  induction xs generalizing prev with
  | nil => simp [quotesEscaped]
  | cons x rest ih =>
    simp only [quotesEscaped, Bool.and_eq_true, ih, Bool.or_eq_true, bne_iff_ne, ne_eq,
      beq_iff_eq]
    constructor
    · rintro ⟨hx, hrest⟩ p q h
      rcases List.cons_eq_append_iff.1 h with ⟨rfl, hq⟩ | ⟨p', rfl, hp'⟩
      · obtain ⟨rfl, -⟩ := List.cons.inj hq
        rcases hx with hx | hx
        · exact absurd rfl hx
        · cases prev <;> simp_all
      · have := hrest p' q hp'
        simpa [List.getLast?_append_cons] using this
    · intro h
      refine ⟨?_, fun p q hp => ?_⟩
      · by_cases hx : x = '\''
        · subst hx
          have hprev := h [] rest rfl
          refine .inr ?_
          cases prev with
          | none => simp at hprev
          | some v => simpa using hprev
        · exact .inl hx
      · have := h (x :: p) q (by simp [hp])
        simpa [List.getLast?_append_cons] using this

theorem quotesEscaped_none_iff (xs : List Char) :
    quotesEscaped none xs = true ↔ QuotesAfterBackslash xs := by
  simp [quotesEscaped_iff, QuotesAfterBackslash]

/-- **The generator's test for string literals**: the code, trimmed, is a single quote, a body
whose single quotes all stand right after a backslash, and a single quote. -/
theorem isStringLiteral_iff (s : String) :
    isStringLiteral s = true ↔
      ∃ inner, (trim s).toList = '\'' :: (inner ++ ['\'']) ∧ QuotesAfterBackslash inner := by
  rw [trim, String.toList_ofList]
  simp only [isStringLiteral]
  generalize dropTrailingBlanks (dropBlanks s.toList) = cs
  rcases cs with _ | ⟨c, rest⟩
  · simp
  by_cases hc : c = '\''
  · subst hc
    simp only [Bool.and_eq_true, decide_eq_true_eq, List.getLast?_eq_some_iff, List.cons.injEq,
      true_and, quotesEscaped_none_iff]
    constructor
    · rintro ⟨⟨inner, rfl⟩, h⟩
      exact ⟨inner, rfl, by simpa using h⟩
    · rintro ⟨inner, rfl, h⟩
      exact ⟨⟨inner, rfl⟩, by simpa using h⟩
  · simp [hc]

/-! ### One literal token -/

namespace Lex

/-- No character leaves the reader outside literals without completing a token. -/
theorem step_ne_code_nil (st : Lex) (c : Char) : st.step c ≠ some (.code, []) := by
  cases st with
  | code => simp only [step]; split_ifs <;> simp
  | body acc => simp only [step]; split_ifs <;> simp
  | escape acc => simp [step]

/-- A reading that completes no token and ends outside literals starts there and reads
nothing. -/
theorem run_eq_code_nil {st : Lex} {xs : List Char} (h : st.run xs = some (.code, [])) :
    st = .code ∧ xs = [] := by
  induction xs generalizing st with
  | nil => simpa using h
  | cons x rest ih =>
    rw [run_cons] at h
    obtain ⟨⟨m, out⟩, hr, h⟩ := Option.bind_eq_some_iff.1 h
    obtain ⟨⟨m', out'⟩, hr', h⟩ := Option.map_eq_some_iff.1 h
    simp only [Prod.mk.injEq, List.append_eq_nil_iff] at h
    obtain ⟨rfl, rfl, rfl⟩ := h
    -- the rest starts outside literals, so the first character left the reader there
    obtain ⟨rfl, -⟩ := ih hr'
    exact absurd hr (step_ne_code_nil st x)

/-- Inside a literal, a reading that ends outside literals with one literal token reads a body
and the closing quote; after a backslash, the character it takes comes first. -/
theorem run_literal_inv {xs : List Char} :
    ∀ {acc b : List Char},
      (run (.body acc) xs = some (.code, [.literal b]) →
        ∃ ys, LiteralBody ys ∧ xs = ys ++ ['\''] ∧ b = acc ++ ys) ∧
      (run (.escape acc) xs = some (.code, [.literal b]) →
        ∃ c ys, LiteralBody ys ∧ xs = c :: (ys ++ ['\'']) ∧ b = acc ++ '\\' :: c :: ys) := by
  induction xs with
  | nil => intro acc b; simp
  | cons x rest ih =>
    intro acc b
    constructor
    · intro h
      by_cases hq : x = '\''
      · -- the closing quote: nothing may follow it
        subst hq
        rw [run_cons_emit (by rfl)] at h
        obtain ⟨⟨m, out⟩, hr, h⟩ := Option.map_eq_some_iff.1 h
        simp only [Prod.mk.injEq, List.cons_append, List.nil_append, List.cons.injEq,
          Token.literal.injEq] at h
        obtain ⟨rfl, rfl, rfl⟩ := h
        obtain ⟨-, rfl⟩ := run_eq_code_nil hr
        exact ⟨[], .nil, rfl, by simp⟩
      by_cases hn : x = '\n'
      · subst hn
        simp [run_cons, step] at h
      by_cases hb : x = '\\'
      · subst hb
        rw [run_cons_of_step (by rfl)] at h
        obtain ⟨c, ys, hys, rfl, rfl⟩ := (ih.2 h)
        exact ⟨'\\' :: c :: ys, .escape c hys, rfl, rfl⟩
      · rw [run_cons_of_step (step_body_plain hq hn hb acc)] at h
        obtain ⟨ys, hys, rfl, rfl⟩ := ih.1 h
        exact ⟨x :: ys, .plain hq hn hb hys, rfl, by simp⟩
    · intro h
      rw [run_cons_of_step (by rfl)] at h
      obtain ⟨ys, hys, rfl, rfl⟩ := ih.1 h
      exact ⟨x, ys, hys, rfl, by simp⟩

end Lex

/-- Code that a reader, starting outside literals, reads as exactly one literal token, ending
outside literals. -/
def LiteralToken (cs : List Char) : Prop :=
  ∃ body, Lex.code.run cs = some (.code, [.literal body])

/-- **One literal token is a quote, a body and a quote.** -/
theorem literalToken_iff {cs : List Char} :
    LiteralToken cs ↔ ∃ body, LiteralBody body ∧ cs = '\'' :: (body ++ ['\'']) := by
  constructor
  · rintro ⟨b, h⟩
    rcases cs with _ | ⟨x, rest⟩
    · simp at h
    by_cases hq : x = '\''
    · subst hq
      rw [Lex.run_cons_of_step (by rfl)] at h
      obtain ⟨ys, hys, rfl, -⟩ := Lex.run_literal_inv.1 h
      exact ⟨ys, hys, rfl⟩
    · -- any other first character is a token outside literals
      have hstep : Lex.code.step x = some (.code, [.code x]) := by simp [Lex.step, hq]
      rw [Lex.run_cons_emit hstep] at h
      obtain ⟨_, -, h⟩ := Option.map_eq_some_iff.1 h
      simp at h
  · rintro ⟨body, hbody, rfl⟩
    exact ⟨body, run_quoted hbody⟩

/-! ### Escapes pair up -/

/-- The backslashes at the end of a text. -/
def trailingBackslashes (cs : List Char) : Nat := (cs.reverse.takeWhile (· == '\\')).length

@[simp] theorem trailingBackslashes_nil : trailingBackslashes [] = 0 := rfl

@[simp] theorem trailingBackslashes_concat (cs : List Char) (c : Char) :
    trailingBackslashes (cs ++ [c]) = if c = '\\' then trailingBackslashes cs + 1 else 0 := by
  by_cases hc : c = '\\' <;> simp [trailingBackslashes, hc]

/-- Read after `pre`: every single quote and line break of `xs` stands after an odd run of
backslashes, and `xs` ends after an even run. -/
def PairedAfter (pre xs : List Char) : Prop :=
  (∀ p c q, xs = p ++ c :: q → (c = '\'' ∨ c = '\n') → trailingBackslashes (pre ++ p) % 2 = 1) ∧
    trailingBackslashes (pre ++ xs) % 2 = 0

/-- A body whose escapes pair up: every single quote and line break in it stands after an odd
run of backslashes, the last of which takes it, and the body ends after an even run, so that no
backslash is left to take the closing quote. -/
def EscapesPaired (xs : List Char) : Prop := PairedAfter [] xs

theorem pairedAfter_nil (pre : List Char) :
    PairedAfter pre [] ↔ trailingBackslashes pre % 2 = 0 := by
  simp [PairedAfter]

theorem pairedAfter_cons (pre : List Char) (x : Char) (xs : List Char) :
    PairedAfter pre (x :: xs) ↔
      ((x = '\'' ∨ x = '\n') → trailingBackslashes pre % 2 = 1) ∧ PairedAfter (pre ++ [x]) xs := by
  constructor
  · rintro ⟨hq, hend⟩
    refine ⟨fun hx => by simpa using hq [] x xs rfl hx, fun p c q hp hc => ?_, by simpa using hend⟩
    simpa using hq (x :: p) c q (by simp [hp]) hc
  · rintro ⟨hx, hq, hend⟩
    refine ⟨fun p c q hp hc => ?_, by simpa using hend⟩
    rcases List.cons_eq_append_iff.1 hp with ⟨rfl, hcq⟩ | ⟨p', rfl, hp'⟩
    · obtain ⟨rfl, -⟩ := List.cons.inj hcq
      simpa using hx hc
    · simpa using hq p' c q hp' hc

theorem literalBody_cons_iff {x : Char} {rest : List Char} :
    LiteralBody (x :: rest) ↔ (x ≠ '\'' ∧ x ≠ '\n' ∧ x ≠ '\\' ∧ LiteralBody rest) ∨
      (x = '\\' ∧ ∃ c ys, rest = c :: ys ∧ LiteralBody ys) := by
  constructor
  · rintro (_ | ⟨hq, hn, hb, h⟩ | ⟨c, h⟩)
    · exact .inl ⟨hq, hn, hb, h⟩
    · exact .inr ⟨rfl, c, _, rfl, h⟩
  · rintro (⟨hq, hn, hb, h⟩ | ⟨rfl, c, ys, rfl, h⟩)
    · exact .plain hq hn hb h
    · exact .escape c h

/-- Reading a body after `pre`: with an even run of backslashes before it, the reader is
between characters, and with an odd run, a backslash waits to take the first. -/
theorem literalBody_iff_pairedAfter (xs : List Char) : ∀ pre : List Char,
    (trailingBackslashes pre % 2 = 0 → (LiteralBody xs ↔ PairedAfter pre xs)) ∧
    (trailingBackslashes pre % 2 = 1 →
      ((∃ c ys, xs = c :: ys ∧ LiteralBody ys) ↔ PairedAfter pre xs)) := by
  induction xs with
  | nil =>
    intro pre
    refine ⟨fun h => ?_, fun h => ?_⟩
    · simp [pairedAfter_nil, h, LiteralBody.nil]
    · simp [pairedAfter_nil, h]
  | cons x rest ih =>
    intro pre
    rw [pairedAfter_cons, literalBody_cons_iff]
    refine ⟨fun h => ?_, fun h => ?_⟩
    · -- between characters: a backslash opens an escape, a quote or a line break fails
      by_cases hb : x = '\\'
      · subst hb
        have hodd : trailingBackslashes (pre ++ ['\\']) % 2 = 1 := by simp; omega
        rw [← (ih _).2 hodd]
        simp
      by_cases hqn : x = '\'' ∨ x = '\n'
      · rcases hqn with rfl | rfl <;> simp [h]
      · have heven : trailingBackslashes (pre ++ [x]) % 2 = 0 := by simp [hb]
        rw [← (ih _).1 heven]
        simp only [not_or] at hqn
        simp [hb, hqn]
    · -- a backslash waits: it takes the first character, whatever it is
      have heven : trailingBackslashes (pre ++ [x]) % 2 = 0 := by
        simp only [trailingBackslashes_concat]
        split <;> omega
      rw [← (ih _).1 heven]
      simp [h]

/-- **A body is a body of a literal exactly when its escapes pair up.** -/
theorem literalBody_iff_escapesPaired (xs : List Char) : LiteralBody xs ↔ EscapesPaired xs :=
  (literalBody_iff_pairedAfter xs []).1 rfl

/-! ### The test against the reader -/

/-- A literal token passes the generator's test. -/
theorem isStringLiteral_of_literalToken {s : String} (h : LiteralToken (trim s).toList) :
    isStringLiteral s = true := by
  obtain ⟨body, hbody, hs⟩ := literalToken_iff.1 h
  exact (isStringLiteral_iff s).2
    ⟨body, hs, (quotesEscaped_none_iff body).1 (hbody.quotesEscaped none)⟩

/-- **The test for string literals is exact where escapes pair up.**  Every literal token passes
the test, and the test passes only literal tokens, for a given code, exactly when every body
between its quotes whose single quotes follow backslashes has its escapes paired up. -/
theorem isStringLiteral_is_token_exactly_when (s : String) :
    (LiteralToken (trim s).toList → isStringLiteral s = true) ∧
    ((isStringLiteral s = true ↔ LiteralToken (trim s).toList) ↔
      ∀ inner, (trim s).toList = '\'' :: (inner ++ ['\'']) → QuotesAfterBackslash inner →
        EscapesPaired inner) := by
  refine ⟨isStringLiteral_of_literalToken, fun hiff inner hs hq => ?_,
    fun hpaired => ⟨fun h => ?_, isStringLiteral_of_literalToken⟩⟩
  · -- the test passes, so the code is one token, and its body is the text between the quotes
    obtain ⟨body, hbody, hs'⟩ :=
      literalToken_iff.1 (hiff.1 ((isStringLiteral_iff s).2 ⟨inner, hs, hq⟩))
    rw [hs, List.cons.injEq] at hs'
    rw [List.append_cancel_right hs'.2.symm] at hbody
    exact (literalBody_iff_escapesPaired _).1 hbody
  · obtain ⟨inner, hs, hq⟩ := (isStringLiteral_iff s).1 h
    exact literalToken_iff.2 ⟨inner, (literalBody_iff_escapesPaired _).2 (hpaired inner hs hq), hs⟩

/-- `'a\'` passes the test, but its backslash takes the closing quote and the literal never
ends. -/
theorem backslash_takes_closing_quote :
    isStringLiteral "'a\\'" = true ∧ ¬LiteralToken (trim "'a\\'").toList := by
  refine ⟨by decide, ?_⟩
  rintro ⟨body, h⟩
  have hrun : Lex.code.run (trim "'a\\'").toList = some (.body ['a', '\\', '\''], []) := by decide
  rw [hrun] at h
  simp at h

end Text
end BlockScribe
