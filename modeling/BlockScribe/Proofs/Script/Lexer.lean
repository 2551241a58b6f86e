import BlockScribe.Proofs.Text.Tokens
import Mathlib
/-!
# The tokens of the script

Generated code is read as the script reads it: white space and line terminators between tokens
(`Text.isGap`), and tokens taken longest first.  A token is a name (ASCII letters, digits, `_`
and `$`, not starting with a digit), a decimal numeral, a single-quoted string literal, a
regular expression literal, or a punctuator of the script (`punctuators`).  The reader is a
machine that takes one character at a time (`Lx.step`, `Lx.run`), as the reader of literals in
`BlockScribe.Proofs.Text.Tokens` does; a text is read to its end and one blank after it, which
completes its last token (`Lx.lex`).

The reader is stricter than the script wherever the two could part: it stops on a character
that is no ASCII token character outside a literal, on a numeral followed by a letter (which
rules out exponents, as the script rules out a name right after a numeral), on an escape that
begins a longer escape (`Text.escapeValue`), on a line break inside a string literal, and on
two dots or a dot before a digit.  So what it reads, the script reads the same way.  A slash
always opens a regular expression; in the grammar of expressions such a literal stands only
where an operand begins, which is where the script reads a slash that way too.  The body of a
regular expression is taken as written, not read as a pattern.

Reading is compositional (`Lx.run_append_of_eq`), and each kind of token is read whole by its
own lemma: a name (`Lx.run_name`), a numeral (`Lx.run_numeral`), a string literal whose body
keeps the script's rules (`StrBody`, `Lx.run_string`), and a punctuator that the next
character does not extend (`Lx.run_punct`).  The body that `quote` writes keeps the
rules exactly when the text holds no carriage return (`strBody_escape_iff`): the script allows
no raw carriage return inside a string literal, and `quote` writes one as it is.
-/

namespace BlockScribe

namespace Text

/-- The characters that may stand between tokens: the script's white space and line
terminators, that is the Unicode white space but the next-line character, and the byte order
mark. -/
def isGap (c : Char) : Bool := (isBlank c && c != '\x85') || c == '\uFEFF'

/-- No character of the syntax of sums is white space. -/
theorem ne_of_isGap {c : Char} (h : isGap c = true) :
    c ≠ '\'' ∧ c ≠ '\\' ∧ c ≠ '+' ∧ c ≠ '(' ∧ c ≠ ')' ∧ c ≠ '=' := by
  refine ⟨?_, ?_, ?_, ?_, ?_, ?_⟩ <;> rintro rfl <;> revert h <;> decide

/-- What an escaped character stands for in a literal, by the script's rules: a line
terminator for nothing, the literal going on on the next line; `b`, `f`, `n`, `r`, `t` and `v`
for backspace, form feed, line feed, carriage return, tab and vertical tab; every other
character for itself, but for those that begin longer escapes (digits, `x`, `u`) and the
carriage return, which may begin a line break of two characters: those are not read here. -/
def escapeValue : Char → Option (List Char)
  | '\n' | '\u2028' | '\u2029' => some []
  | 'b' => some ['\x08']
  | 'f' => some ['\x0c']
  | 'n' => some ['\n']
  | 'r' => some ['\r']
  | 't' => some ['\t']
  | 'v' => some ['\x0b']
  | c => if c.isDigit || c == 'x' || c == 'u' || c == '\r' then none else some [c]

end Text

namespace Script

/-- A token of the script. -/
inductive Tok where
  /-- A name or a reserved word. -/
  | word (s : List Char)
  /-- A decimal numeral, as written. -/
  | num (s : List Char)
  /-- A single-quoted string literal, its body as written. -/
  | str (body : List Char)
  /-- A regular expression literal, its body and flags as written. -/
  | regex (body flags : List Char)
  /-- A punctuator. -/
  | punct (p : List Char)
  deriving DecidableEq, Repr

/-- The punctuators of the script but the two that begin with a slash: a slash opens a regular
expression literal here. -/
def punctuators : List (List Char) :=
  [['\x7b'], ['\x7d'], ['('], [')'], ['['], [']'], ['.'], ['.', '.', '.'], [';'], [','],
    ['<'], ['>'], ['<', '='], ['>', '='], ['=', '='], ['!', '='], ['=', '=', '='],
    ['!', '=', '='], ['+'], ['-'], ['*'], ['%'], ['*', '*'], ['+', '+'], ['-', '-'],
    ['<', '<'], ['>', '>'], ['>', '>', '>'], ['&'], ['|'], ['^'], ['!'], ['~'], ['&', '&'],
    ['|', '|'], ['?', '?'], ['?'], ['?', '.'], [':'], ['='], ['+', '='], ['-', '='],
    ['*', '='], ['%', '='], ['*', '*', '='], ['<', '<', '='], ['>', '>', '='],
    ['>', '>', '>', '='], ['&', '='], ['|', '='], ['^', '='], ['&', '&', '='],
    ['|', '|', '='], ['?', '?', '='], ['=', '>']]

/-- Whether some punctuator begins with these characters. -/
def extendsTo (p : List Char) : Bool := punctuators.any fun q => p.isPrefixOf q

/-- Whether these characters are a punctuator. -/
def isPunct (p : List Char) : Bool := punctuators.contains p

/-- Whether no longer punctuator begins with these characters. -/
def isClosed (p : List Char) : Bool :=
  !punctuators.any fun q => p.isPrefixOf q && p.length < q.length

/-- A character that may begin a name: an ASCII letter, `_` or `$`. -/
def isNameStart (c : Char) : Bool := c.isAlpha || c == '_' || c == '$'

/-- A character that may go on in a name. -/
def isNamePart (c : Char) : Bool := c.isAlphanum || c == '_' || c == '$'

/-- A character that ends a name, a numeral or the flags of a regular expression: an ASCII
character that cannot go on in them.  Any other character after them stops the reader. -/
def endsWord (c : Char) : Bool := c.toNat < 128 && !isNamePart c && c != '\\'

/-- The line terminators of the script. -/
def isLineTerminator (c : Char) : Bool :=
  c == '\n' || c == '\r' || c == '\u2028' || c == '\u2029'

/-- The characters that go on in a name, by their code points. -/
theorem isNamePart_iff (c : Char) : isNamePart c = true ↔
    (48 ≤ c.toNat ∧ c.toNat ≤ 57) ∨ (65 ≤ c.toNat ∧ c.toNat ≤ 90) ∨
      (97 ≤ c.toNat ∧ c.toNat ≤ 122) ∨ c.toNat = 95 ∨ c.toNat = 36 := by
  simp only [isNamePart, Char.isAlphanum, Char.isAlpha, Char.isUpper, Char.isLower, Char.isDigit,
    Bool.or_eq_true, Bool.and_eq_true, decide_eq_true_eq, beq_iff_eq, ge_iff_le,
    UInt32.le_iff_toNat_le, ← Char.toNat_inj, Char.toNat_val, Char.reduceToNat]
  omega

theorem isNamePart_of_isNameStart {c : Char} (h : isNameStart c = true) : isNamePart c = true := by
  simp only [isNameStart, isNamePart, Char.isAlphanum, Bool.or_eq_true] at h ⊢
  tauto

/-- No character of a name is white space. -/
theorem isGap_eq_false_of_isNamePart {c : Char} (h : isNamePart c = true) :
    Text.isGap c = false := by
  rw [isNamePart_iff] at h
  have hblank : Text.isBlank c = false := by
    simp only [Text.isBlank, Bool.or_eq_false_iff, Bool.and_eq_false_iff, decide_eq_false_iff_not,
      beq_eq_false_iff_ne, ne_eq]
    omega
  have hbom : c ≠ '\uFEFF' := by
    simp only [ne_eq, ← Char.toNat_inj, Char.reduceToNat]
    omega
  simp [Text.isGap, hblank, hbom]

theorem endsWord_iff (c : Char) :
    endsWord c = true ↔ c.toNat < 128 ∧ isNamePart c = false ∧ c ≠ '\\' := by
  simp [endsWord, and_assoc]

/-- Where the reader stands: between tokens, or inside one with what it has read of it. -/
inductive Lx where
  | start
  | word (acc : List Char)
  | num (acc : List Char) (point : Bool)
  | str (acc : List Char)
  | strEscape (acc : List Char)
  | regex (acc : List Char) (inClass : Bool)
  | regexEscape (acc : List Char) (inClass : Bool)
  | flags (body acc : List Char)
  | punct (acc : List Char)
  deriving DecidableEq, Repr

namespace Lx

/-- A character read between tokens; `none` for one that begins no token. -/
def begin (c : Char) : Option (Lx × List Tok) :=
  if Text.isGap c then some (start, [])
  else if isNameStart c then some (word [c], [])
  else if c.isDigit then some (num [c] false, [])
  else if c = '\'' then some (str [], [])
  else if c = '/' then some (regex [] false, [])
  else if extendsTo [c] then
    if isClosed [c] then some (start, [.punct [c]]) else some (punct [c], [])
  else none

/-- A token completed by the character after it, which is then read between tokens. -/
def close (t : Tok) (c : Char) : Option (Lx × List Tok) :=
  (begin c).map fun r => (r.1, t :: r.2)

/-- One character read, with the tokens it completes; `none` where the reader stops. -/
def step : Lx → Char → Option (Lx × List Tok)
  | start, c => begin c
  | word acc, c =>
    if isNamePart c then some (word (acc ++ [c]), [])
    else if endsWord c then close (.word acc) c
    else none
  | num acc point, c =>
    if c.isDigit then
      -- a numeral has no leading zero
      if acc = ['0'] then none else some (num (acc ++ [c]) point, [])
    else if c = '.' && !point then some (num (acc ++ [c]) true, [])
    else if endsWord c then close (.num acc) c
    else none
  | str acc, c =>
    if c = '\'' then some (start, [.str acc])
    else if c = '\\' then some (strEscape acc, [])
    else if c = '\n' || c = '\r' then none
    else some (str (acc ++ [c]), [])
  | strEscape acc, c =>
    if (Text.escapeValue c).isSome then some (str (acc ++ ['\\', c]), []) else none
  | regex acc cls, c =>
    if isLineTerminator c then none
    -- `//` and `/*` open comments
    else if acc.isEmpty && (c = '*' || c = '/') then none
    else if c = '\\' then some (regexEscape acc cls, [])
    else if !cls && c = '/' then some (flags acc [], [])
    else some (regex (acc ++ [c]) (if c = '[' then true else if c = ']' then false else cls), [])
  | regexEscape acc cls, c =>
    if isLineTerminator c then none else some (regex (acc ++ ['\\', c]) cls, [])
  | flags body acc, c =>
    if isNamePart c then some (flags body (acc ++ [c]), [])
    else if endsWord c then close (.regex body acc) c
    else none
  | punct acc, c =>
    -- a point before a digit begins a numeral
    if (acc = ['.'] || acc = ['?', '.']) && c.isDigit then none
    else if extendsTo (acc ++ [c]) then
      if isClosed (acc ++ [c]) then some (start, [.punct (acc ++ [c])])
      else some (punct (acc ++ [c]), [])
    else if isPunct acc then close (.punct acc) c
    else none

/-- Characters read one after another: where the reader ends, and the tokens completed. -/
def run : Lx → List Char → Option (Lx × List Tok)
  | st, [] => some (st, [])
  | st, c :: cs => (st.step c).bind fun r => (run r.1 cs).map fun r' => (r'.1, r.2 ++ r'.2)

/-- The tokens of a text: read to its end and one blank after it, which completes the last
token; none when the text holds what is no token or ends inside a literal. -/
def lex (cs : List Char) : Option (List Tok) :=
  (run start (cs ++ [' '])).bind fun r => if r.1 = start then some r.2 else none

example : lex ['f', '(', '\'', '\\', '\'', '\'', ')', '.', 'n', ' ', '<', '=', ' ', '-', '1'] =
    some [.word ['f'], .punct ['('], .str ['\\', '\''], .punct [')'], .punct ['.'], .word ['n'],
      .punct ['<', '='], .punct ['-'], .num ['1']] := by
  decide

example : lex ['\'', 'a', '\r', '\''] = none ∧ lex ['1', 'e', '5'] = none := by decide

/-! ### Reading is compositional -/

@[simp] theorem run_nil (st : Lx) : run st [] = some (st, []) := rfl

theorem run_cons (st : Lx) (c : Char) (cs : List Char) :
    run st (c :: cs) = (st.step c).bind fun r => (run r.1 cs).map fun r' => (r'.1, r.2 ++ r'.2) :=
  rfl

/-- A step hands the rest of the reading on, its tokens first. -/
theorem run_cons_emit {st m : Lx} {c : Char} {out : List Tok} (h : st.step c = some (m, out))
    (cs : List Char) : run st (c :: cs) = (run m cs).map fun r => (r.1, out ++ r.2) := by
  simp [run_cons, h]

/-- A step that completes no token hands the rest of the reading on. -/
theorem run_cons_of_step {st m : Lx} {c : Char} (h : st.step c = some (m, [])) (cs : List Char) :
    run st (c :: cs) = run m cs := by
  simp [run_cons_emit h]

/-- **Reading is compositional**: once a part is read, what follows is read from where the
reader stands, and its tokens come after those of the part. -/
theorem run_append_of_eq {st m : Lx} {xs : List Char} {out : List Tok}
    (h : run st xs = some (m, out)) (ys : List Char) :
    run st (xs ++ ys) = (run m ys).map fun r => (r.1, out ++ r.2) := by
  induction xs generalizing st out with
  | nil =>
    obtain ⟨rfl, rfl⟩ := Prod.mk.inj (Option.some.inj h.symm)
    simp
  | cons c xs ih =>
    rw [run_cons] at h
    obtain ⟨r, hr, h⟩ := Option.bind_eq_some_iff.1 h
    obtain ⟨r', hr', h⟩ := Option.map_eq_some_iff.1 h
    obtain ⟨rfl, rfl⟩ := Prod.mk.inj h
    simp [run_cons, hr, ih hr', Option.map_map, Function.comp_def]

/-- A token that the next character completes: the reading goes on between tokens at that
character, the token in front. -/
theorem run_close {st : Lx} {t : Tok} {c : Char} (h : st.step c = close t c) (cs : List Char) :
    run st (c :: cs) = (run start (c :: cs)).map fun r => (r.1, t :: r.2) := by
  rw [run_cons, h, run_cons]
  show _ = Option.map _ ((begin c).bind _)
  unfold close
  cases begin c <;> simp [Option.map_map, Function.comp_def]

/-- A blank read between tokens is skipped. -/
theorem run_blank (cs : List Char) : run start (' ' :: cs) = run start cs :=
  run_cons_of_step (by decide) cs

/-! ### Names -/

/-- A name as the reader takes it: a first character that begins a name, then characters that
go on in one. -/
def IsName (w : List Char) : Prop :=
  ∃ a as, w = a :: as ∧ isNameStart a = true ∧ ∀ x ∈ as, isNamePart x = true

theorem step_nameStart {c : Char} (h : isNameStart c = true) :
    step start c = some (word [c], []) := by
  simp [step, begin, isGap_eq_false_of_isNamePart (isNamePart_of_isNameStart h), h]

theorem run_word_parts {acc : List Char} {xs : List Char} (h : ∀ x ∈ xs, isNamePart x = true)
    (rest : List Char) : run (word acc) (xs ++ rest) = run (word (acc ++ xs)) rest := by
  induction xs generalizing acc with
  | nil => simp
  | cons x xs ih =>
    have hx : step (word acc) x = some (word (acc ++ [x]), []) := by
      simp [step, h x List.mem_cons_self]
    rw [List.cons_append, run_cons_of_step hx, ih fun y hy => h y (List.mem_cons_of_mem x hy)]
    simp

theorem step_word_of_endsWord {acc : List Char} {c : Char} (hc : endsWord c = true) :
    step (word acc) c = close (.word acc) c := by
  have hpart := ((endsWord_iff c).1 hc).2.1
  simp [step, hpart, hc]

/-- **A name is read whole**, up to a character that ends it. -/
theorem run_name {w : List Char} (hw : IsName w) {c : Char} (hc : endsWord c = true)
    (rest : List Char) :
    run start (w ++ c :: rest) = (run start (c :: rest)).map fun r => (r.1, .word w :: r.2) := by
  obtain ⟨a, as, rfl, ha, has⟩ := hw
  rw [List.cons_append, run_cons_of_step (step_nameStart ha), run_word_parts has,
    run_close (step_word_of_endsWord hc)]
  rfl

/-! ### Numerals -/

/-- A numeral as the reader takes it: it begins with a digit, and read from between tokens it
is one numeral so far. -/
def Numeral (s : List Char) : Prop :=
  (∃ d ds, s = d :: ds ∧ d.isDigit = true) ∧ ∃ point, run start s = some (num s point, [])

/-- **A numeral is read whole**, up to a character that ends it and is no point. -/
theorem run_numeral {s : List Char} (hs : Numeral s) {c : Char} (hc : endsWord c = true)
    (hdigit : c.isDigit = false) (hpoint : c ≠ '.') (rest : List Char) :
    run start (s ++ c :: rest) = (run start (c :: rest)).map fun r => (r.1, .num s :: r.2) := by
  obtain ⟨-, point, hrun⟩ := hs
  have hstep : step (num s point) c = close (.num s) c := by
    simp [step, hdigit, hpoint, hc]
  rw [run_append_of_eq hrun, run_close hstep]
  simp [Option.map_map, Function.comp_def]

/-! ### String literals -/

/-- A string literal's body that keeps the script's rules: each character stands as itself,
being no single quote, backslash, line feed or carriage return, or is a backslash with a
character that the reader takes as an escape. -/
inductive StrBody : List Char → Prop
  | nil : StrBody []
  | plain {c : Char} {cs : List Char} (hq : c ≠ '\'') (hb : c ≠ '\\') (hn : c ≠ '\n')
      (hr : c ≠ '\r') : StrBody cs → StrBody (c :: cs)
  | escape {c : Char} {cs : List Char} (he : (Text.escapeValue c).isSome = true) :
      StrBody cs → StrBody ('\\' :: c :: cs)

theorem StrBody.append {xs ys : List Char} (hx : StrBody xs) (hy : StrBody ys) :
    StrBody (xs ++ ys) := by
  induction hx with
  | nil => exact hy
  | plain hq hb hn hr _ ih => exact .plain hq hb hn hr ih
  | escape he _ ih => exact .escape he ih

/-- A body is read whole: inside a literal the reader takes it in and stands after it. -/
theorem run_strBody {xs : List Char} (h : StrBody xs) (acc rest : List Char) :
    run (str acc) (xs ++ rest) = run (str (acc ++ xs)) rest := by
  induction h generalizing acc with
  | nil => simp
  | @plain c cs hq hb hn hr _ ih =>
    have hc : step (str acc) c = some (str (acc ++ [c]), []) := by simp [step, hq, hb, hn, hr]
    rw [List.cons_append, run_cons_of_step hc, ih]
    simp
  | @escape c cs he _ ih =>
    -- the backslash, then the character it escapes
    have h₁ : step (str acc) '\\' = some (strEscape acc, []) := by simp [step]
    have h₂ : step (strEscape acc) c = some (str (acc ++ ['\\', c]), []) := by simp [step, he]
    rw [List.cons_append, List.cons_append, run_cons_of_step h₁, run_cons_of_step h₂, ih]
    simp

/-- **A string literal is read whole**, its body as written in the token. -/
theorem run_string {body : List Char} (h : StrBody body) (rest : List Char) :
    run start ('\'' :: (body ++ '\'' :: rest)) = (run start rest).map fun r => (r.1, .str body :: r.2) := by
  have hopen : step start '\'' = some (str [], []) := by decide
  have hclose : step (str body) '\'' = some (start, [.str body]) := by simp [step]
  rw [run_cons_of_step hopen, run_strBody h, List.nil_append, run_cons_emit hclose]
  rfl

theorem strBody_cons_iff (c : Char) (cs : List Char) : StrBody (c :: cs) ↔
    (c ≠ '\'' ∧ c ≠ '\\' ∧ c ≠ '\n' ∧ c ≠ '\r' ∧ StrBody cs) ∨
      (c = '\\' ∧ ∃ d ds, cs = d :: ds ∧ (Text.escapeValue d).isSome = true ∧ StrBody ds) := by
  constructor
  · rintro (_ | ⟨hq, hb, hn, hr, h⟩ | ⟨he, h⟩)
    · exact .inl ⟨hq, hb, hn, hr, h⟩
    · exact .inr ⟨rfl, _, _, rfl, he, h⟩
  · rintro (⟨hq, hb, hn, hr, h⟩ | ⟨rfl, d, ds, rfl, he, h⟩)
    · exact .plain hq hb hn hr h
    · exact .escape he h

/-- **The body that `quote` writes keeps the script's rules exactly when the text holds no
carriage return**: a backslash, a line feed and a single quote are escaped, and every other
character is written as it is. -/
theorem strBody_escape_iff (cs : List Char) :
    StrBody (cs.flatMap Text.escapeChar) ↔ '\r' ∉ cs := by
  induction cs with
  | nil => simp [StrBody.nil]
  | cons c cs ih =>
    rw [List.flatMap_cons, Text.escapeChar_eq, List.mem_cons, not_or, ← ih, @eq_comm _ '\r' c]
    split_ifs with hc
    · -- an escaped character: its escape is read, and it is no carriage return
      have hr : c ≠ '\r' := by rcases hc with rfl | rfl | rfl <;> decide
      have he : (Text.escapeValue c).isSome = true := by rcases hc with rfl | rfl | rfl <;> rfl
      simp only [List.cons_append, List.nil_append, strBody_cons_iff]
      simp [he, hr]
    · -- a character written as it is stands for itself unless it is a carriage return
      simp only [Text.Escaped, not_or] at hc
      obtain ⟨hb, hn, hq⟩ := hc
      simp only [List.cons_append, List.nil_append, strBody_cons_iff]
      simp [hb, hn, hq]

/-! ### Punctuators -/

/-- **A punctuator that the next character does not extend is read whole**, the reading going
on between tokens at that character. -/
theorem run_punct {p : List Char} (hp : run start p = some (punct p, [])) {c : Char}
    (hc : step (punct p) c = close (.punct p) c) (rest : List Char) :
    run start (p ++ c :: rest) = (run start (c :: rest)).map fun r => (r.1, .punct p :: r.2) := by
  rw [run_append_of_eq hp, run_close hc]
  simp [Option.map_map, Function.comp_def]

/-- A `!` is read alone before anything but `=`. -/
theorem step_not {c : Char} (hc : c ≠ '=') : step (punct ['!']) c = close (.punct ['!']) c := by
  simp [step, extendsTo, punctuators, isPunct, hc]

/-- A `-` is read alone before anything but `-` and `=`. -/
theorem step_minus {c : Char} (h₁ : c ≠ '-') (h₂ : c ≠ '=') :
    step (punct ['-']) c = close (.punct ['-']) c := by
  simp [step, extendsTo, punctuators, isPunct, h₁, h₂]

/-- A `+` is read alone before anything but `+` and `=`. -/
theorem step_plus {c : Char} (h₁ : c ≠ '+') (h₂ : c ≠ '=') :
    step (punct ['+']) c = close (.punct ['+']) c := by
  simp [step, extendsTo, punctuators, isPunct, h₁, h₂]

/-- A `.` is read alone before anything but a point or a digit. -/
theorem step_point {c : Char} (h₁ : c ≠ '.') (h₂ : c.isDigit = false) :
    step (punct ['.']) c = close (.punct ['.']) c := by
  simp [step, extendsTo, punctuators, isPunct, h₁, h₂]

end Lx

end Script
end BlockScribe
