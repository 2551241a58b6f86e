import BlockScribe.Proofs.Script.Grammar
/-!
# Printed expressions

Generated code prints an expression with its brackets and its layout: the arguments of a call
separated by a comma and a blank, the elements of an array by a comma alone, a binary operator
between blanks, and a sum that a text of several lines breaks after its `+`.  A `Form` is such a
printing; it has its code (`Form.code`), the tokens the script reads in it (`Form.tokens`), the
tree it stands for, brackets dropped (`Form.sem`), and the level of its outermost operator
(`Form.level`).

A form is well formed (`Form.WF B`) when its names and numerals are tokens of the script, the
bodies of its string literals are of the kind `B` allows, and each operand is of the level its
place asks, but for the right operand of `&&` or `||`, which may be a chain of the same operator:
the script then groups the chain to the left.  A prefix operator is followed by no character that
would join it into a longer punctuator, and a member is taken of nothing that ends with a
numeral.

With bodies that keep the script's rules (`Lx.StrBody`), such a form is read as its tokens,
whatever closes it (`WF.reads`, `WF.lex`); whatever its bodies, its tokens derive an expression
of its level whose normal form is that of the tree it stands for (`WF.derivable_continues`): the
chains of `&&` and `||` are the only place where the printing and the reading group differently.
-/

namespace BlockScribe
namespace Script

/-- An expression as generated code prints it. -/
inductive Form where
  | name (n : List Char)
  | num (s : List Char)
  | str (body : List Char)
  | regex (body flags : List Char)
  /-- An array literal, its elements separated by a comma alone. -/
  | array (elems : List Form)
  | member (obj : Form) (prop : List Char)
  /-- A call, its arguments separated by a comma and a blank. -/
  | call (callee : Form) (args : List Form)
  | not (e : Form)
  | neg (e : Form)
  /-- A binary operation, the operator between blanks. -/
  | bin (op : BinOp) (l r : Form)
  /-- A sum broken after its operator, the right operand on the next line. -/
  | addBreak (l r : Form)
  | cond (c a b : Form)
  | paren (e : Form)

namespace Form

/-- The code of a form. -/
def code : Form → List Char
  | name n => n
  | num s => s
  | str b => '\'' :: (b ++ ['\''])
  | regex b f => '/' :: (b ++ '/' :: f)
  | array es => '[' :: ([','].intercalate (es.map code) ++ [']'])
  | member obj n => code obj ++ '.' :: n
  | call f args => code f ++ '(' :: ([',', ' '].intercalate (args.map code) ++ [')'])
  | not e => '!' :: code e
  | neg e => '-' :: code e
  | bin op l r => code l ++ ' ' :: (op.text ++ ' ' :: code r)
  | addBreak l r => code l ++ ' ' :: '+' :: '\n' :: code r
  | cond c a b => code c ++ ' ' :: '?' :: ' ' :: (code a ++ ' ' :: ':' :: ' ' :: code b)
  | paren e => '(' :: (code e ++ [')'])

/-- The tokens the script reads in the code of a form. -/
def tokens : Form → List Tok
  | name n => [.word n]
  | num s => [.num s]
  | str b => [.str b]
  | regex b f => [.regex b f]
  | array es => .punct ['['] :: ([.punct [',']].intercalate (es.map tokens) ++ [.punct [']']])
  | member obj n => tokens obj ++ [.punct ['.'], .word n]
  | call f args =>
    tokens f ++ .punct ['('] :: ([.punct [',']].intercalate (args.map tokens) ++ [.punct [')']])
  | not e => .punct ['!'] :: tokens e
  | neg e => .punct ['-'] :: tokens e
  | bin op l r => tokens l ++ .punct op.text :: tokens r
  | addBreak l r => tokens l ++ .punct ['+'] :: tokens r
  | cond c a b => tokens c ++ .punct ['?'] :: (tokens a ++ .punct [':'] :: tokens b)
  | paren e => .punct ['('] :: (tokens e ++ [.punct [')']])

/-- The tree a form stands for: brackets and layout dropped. -/
def sem : Form → Expr
  | name n => .name n
  | num s => .num s
  | str b => .str b
  | regex b f => .regex b f
  | array es => .array (es.map sem)
  | member obj n => .member (sem obj) n
  | call f args => .call (sem f) (args.map sem)
  | not e => .not (sem e)
  | neg e => .neg (sem e)
  | bin op l r => .bin op (sem l) (sem r)
  | addBreak l r => .bin .add (sem l) (sem r)
  | cond c a b => .cond (sem c) (sem a) (sem b)
  | paren e => sem e

/-- The level of a form's outermost operator. -/
def level : Form → Level
  | name _ | num _ | str _ | regex _ _ | array _ | paren _ => .primary
  | member _ _ | call _ _ => .lhs
  | not _ | neg _ => .unary
  | bin op _ _ => op.level
  | addBreak _ _ => .additive
  | cond _ _ _ => .cond

/-- The first character of a form's code. -/
def head : Form → Char
  | name n => n.headD ' '
  | num s => s.headD ' '
  | str _ => '\''
  | regex _ _ => '/'
  | array _ => '['
  | paren _ => '('
  | not _ => '!'
  | neg _ => '-'
  | member obj _ => head obj
  | call f _ => head f
  | bin _ l _ => head l
  | addBreak l _ => head l
  | cond c _ _ => head c

/-- Whether a form's code ends with a numeral. -/
def endsNum : Form → Bool
  | num _ => true
  | not e | neg e => endsNum e
  | bin _ _ r | addBreak _ r => endsNum r
  | cond _ _ b => endsNum b
  | _ => false

/-! The shape of each printing, for use elsewhere. -/

@[simp] theorem code_name (n : List Char) : (name n).code = n := by simp [code]
@[simp] theorem code_num (s : List Char) : (num s).code = s := by simp [code]
@[simp] theorem code_str (b : List Char) : (str b).code = '\'' :: (b ++ ['\'']) := by simp [code]
@[simp] theorem code_regex (b f : List Char) : (regex b f).code = '/' :: (b ++ '/' :: f) := by
  simp [code]
@[simp] theorem code_array (es : List Form) :
    (array es).code = '[' :: ([','].intercalate (es.map code) ++ [']']) := by simp [code]
@[simp] theorem code_member (obj : Form) (n : List Char) :
    (member obj n).code = obj.code ++ '.' :: n := by simp [code]
@[simp] theorem code_call (f : Form) (args : List Form) :
    (call f args).code = f.code ++ '(' :: ([',', ' '].intercalate (args.map code) ++ [')']) := by
  simp [code]
@[simp] theorem code_not (e : Form) : (not e).code = '!' :: e.code := by simp [code]
@[simp] theorem code_neg (e : Form) : (neg e).code = '-' :: e.code := by simp [code]
@[simp] theorem code_bin (op : BinOp) (l r : Form) :
    (bin op l r).code = l.code ++ ' ' :: (op.text ++ ' ' :: r.code) := by simp [code]
@[simp] theorem code_addBreak (l r : Form) :
    (addBreak l r).code = l.code ++ ' ' :: '+' :: '\n' :: r.code := by simp [code]
@[simp] theorem code_cond (c a b : Form) :
    (cond c a b).code = c.code ++ ' ' :: '?' :: ' ' :: (a.code ++ ' ' :: ':' :: ' ' :: b.code) := by
  simp [code]
@[simp] theorem code_paren (e : Form) : (paren e).code = '(' :: (e.code ++ [')']) := by simp [code]

@[simp] theorem sem_name (n : List Char) : (name n).sem = .name n := by simp [sem]
@[simp] theorem sem_num (s : List Char) : (num s).sem = .num s := by simp [sem]
@[simp] theorem sem_str (b : List Char) : (str b).sem = .str b := by simp [sem]
@[simp] theorem sem_regex (b f : List Char) : (regex b f).sem = .regex b f := by simp [sem]
@[simp] theorem sem_array (es : List Form) : (array es).sem = .array (es.map sem) := by simp [sem]
@[simp] theorem sem_member (obj : Form) (n : List Char) : (member obj n).sem = .member obj.sem n := by
  simp [sem]
@[simp] theorem sem_call (f : Form) (args : List Form) :
    (call f args).sem = .call f.sem (args.map sem) := by simp [sem]
@[simp] theorem sem_not (e : Form) : (not e).sem = .not e.sem := by simp [sem]
@[simp] theorem sem_neg (e : Form) : (neg e).sem = .neg e.sem := by simp [sem]
@[simp] theorem sem_bin (op : BinOp) (l r : Form) : (bin op l r).sem = .bin op l.sem r.sem := by
  simp [sem]
@[simp] theorem sem_addBreak (l r : Form) : (addBreak l r).sem = .bin .add l.sem r.sem := by
  simp [sem]
@[simp] theorem sem_cond (c a b : Form) : (cond c a b).sem = .cond c.sem a.sem b.sem := by
  simp [sem]
@[simp] theorem sem_paren (e : Form) : (paren e).sem = e.sem := by simp [sem]

@[simp] theorem tokens_name (n : List Char) : (name n).tokens = [.word n] := by simp [tokens]
@[simp] theorem tokens_num (s : List Char) : (num s).tokens = [.num s] := by simp [tokens]
@[simp] theorem tokens_str (b : List Char) : (str b).tokens = [.str b] := by simp [tokens]
@[simp] theorem tokens_regex (b f : List Char) : (regex b f).tokens = [.regex b f] := by
  simp [tokens]
@[simp] theorem tokens_array (es : List Form) : (array es).tokens =
    .punct ['['] :: ([.punct [',']].intercalate (es.map tokens) ++ [.punct [']']]) := by
  simp [tokens]
@[simp] theorem tokens_member (obj : Form) (n : List Char) :
    (member obj n).tokens = obj.tokens ++ [.punct ['.'], .word n] := by simp [tokens]
@[simp] theorem tokens_call (f : Form) (args : List Form) : (call f args).tokens =
    f.tokens ++ .punct ['('] :: ([.punct [',']].intercalate (args.map tokens) ++ [.punct [')']]) := by
  simp [tokens]
@[simp] theorem tokens_not (e : Form) : (not e).tokens = .punct ['!'] :: e.tokens := by simp [tokens]
@[simp] theorem tokens_neg (e : Form) : (neg e).tokens = .punct ['-'] :: e.tokens := by simp [tokens]
@[simp] theorem tokens_bin (op : BinOp) (l r : Form) :
    (bin op l r).tokens = l.tokens ++ .punct op.text :: r.tokens := by simp [tokens]
@[simp] theorem tokens_addBreak (l r : Form) :
    (addBreak l r).tokens = l.tokens ++ .punct ['+'] :: r.tokens := by simp [tokens]
@[simp] theorem tokens_cond (c a b : Form) :
    (cond c a b).tokens = c.tokens ++ .punct ['?'] :: (a.tokens ++ .punct [':'] :: b.tokens) := by
  simp [tokens]
@[simp] theorem tokens_paren (e : Form) :
    (paren e).tokens = .punct ['('] :: (e.tokens ++ [.punct [')']]) := by simp [tokens]

@[simp] theorem level_name (n : List Char) : (name n).level = .primary := rfl
@[simp] theorem level_num (s : List Char) : (num s).level = .primary := rfl
@[simp] theorem level_str (b : List Char) : (str b).level = .primary := rfl
@[simp] theorem level_regex (b f : List Char) : (regex b f).level = .primary := rfl
@[simp] theorem level_array (es : List Form) : (array es).level = .primary := rfl
@[simp] theorem level_member (obj : Form) (n : List Char) : (member obj n).level = .lhs := rfl
@[simp] theorem level_call (f : Form) (args : List Form) : (call f args).level = .lhs := rfl
@[simp] theorem level_not (e : Form) : (not e).level = .unary := rfl
@[simp] theorem level_neg (e : Form) : (neg e).level = .unary := rfl
@[simp] theorem level_bin (op : BinOp) (l r : Form) : (bin op l r).level = op.level := rfl
@[simp] theorem level_addBreak (l r : Form) : (addBreak l r).level = .additive := rfl
@[simp] theorem level_cond (c a b : Form) : (cond c a b).level = .cond := rfl
@[simp] theorem level_paren (e : Form) : (paren e).level = .primary := rfl

/-- A well-formed form: tokens of the script in it, its string literals with bodies that `B`
allows, and each operand of the level its place asks. -/
inductive WF (B : List Char → Prop) : Form → Prop
  | name {n : List Char} : IsReference n → WF B (name n)
  | num {s : List Char} : Lx.Numeral s → WF B (num s)
  | str {b : List Char} : B b → WF B (str b)
  | regex {b f : List Char} : Lx.run .start ('/' :: (b ++ ['/'])) = some (.flags b [], []) →
      (∀ c ∈ f, isNamePart c = true) → WF B (regex b f)
  | array {es : List Form} : (∀ e ∈ es, WF B e) → (∀ e ∈ es, e.level ≤ .assign) → WF B (array es)
  | member {obj : Form} {n : List Char} : WF B obj → obj.level ≤ .lhs → obj.endsNum = false →
      Lx.IsName n → WF B (member obj n)
  | call {f : Form} {args : List Form} : WF B f → f.level ≤ .lhs → (∀ a ∈ args, WF B a) →
      (∀ a ∈ args, a.level ≤ .assign) → WF B (call f args)
  | not {e : Form} : WF B e → e.level ≤ .unary → e.head ≠ '=' → WF B (not e)
  | neg {e : Form} : WF B e → e.level ≤ .unary → e.head ≠ '-' → e.head ≠ '=' → WF B (neg e)
  | bin {op : BinOp} {l r : Form} : WF B l → WF B r → l.level ≤ op.level → r.level ≤ op.right →
      WF B (bin op l r)
  /-- The right operand of `&&` or `||` may be a chain of the same operator. -/
  | chain {op : BinOp} {l r : Form} : op.regroups = true → WF B l → WF B r → l.level ≤ op.level →
      r.level ≤ op.level → WF B (bin op l r)
  | addBreak {l r : Form} : WF B l → WF B r → l.level ≤ .additive → r.level ≤ .multiplicative →
      WF B (addBreak l r)
  | cond {c a b : Form} : WF B c → WF B a → WF B b → c.level ≤ .or → a.level ≤ .assign →
      b.level ≤ .assign → WF B (cond c a b)
  | paren {e : Form} : WF B e → WF B (paren e)

variable {B : List Char → Prop}

/-- The characters that may follow a form's code without joining its last token. -/
def Closes (f : Form) (c : Char) : Prop :=
  (c = ' ' ∨ c = ')' ∨ c = ',' ∨ c = ']' ∨ c = '(') ∨ (c = '.' ∧ f.endsNum = false)

/-! ### The first character -/

/-- A well-formed form's code begins with its first character. -/
theorem WF.code_eq_head_cons {f : Form} (hf : f.WF B) : ∃ t, f.code = f.head :: t := by
  induction hf with
  | name h =>
    obtain ⟨a, as, rfl, -, -⟩ := h.1
    exact ⟨as, by simp [head]⟩
  | num h =>
    obtain ⟨⟨d, ds, rfl, -⟩, -⟩ := h
    exact ⟨ds, by simp [head]⟩
  | str => exact ⟨_, code_str _⟩
  | regex => exact ⟨_, code_regex _ _⟩
  | array => exact ⟨_, code_array _⟩
  | member _ _ _ _ ih =>
    obtain ⟨t, ht⟩ := ih
    exact ⟨_, by rw [code_member, ht, List.cons_append]; rfl⟩
  | call _ _ _ _ ih =>
    obtain ⟨t, ht⟩ := ih
    exact ⟨_, by rw [code_call, ht, List.cons_append]; rfl⟩
  | not => exact ⟨_, code_not _⟩
  | neg => exact ⟨_, code_neg _⟩
  | bin _ _ _ _ ih =>
    obtain ⟨t, ht⟩ := ih
    exact ⟨_, by rw [code_bin, ht, List.cons_append]; rfl⟩
  | chain _ _ _ _ _ ih =>
    obtain ⟨t, ht⟩ := ih
    exact ⟨_, by rw [code_bin, ht, List.cons_append]; rfl⟩
  | addBreak _ _ _ _ ih =>
    obtain ⟨t, ht⟩ := ih
    exact ⟨_, by rw [code_addBreak, ht, List.cons_append]; rfl⟩
  | cond _ _ _ _ _ _ ih =>
    obtain ⟨t, ht⟩ := ih
    exact ⟨_, by rw [code_cond, ht, List.cons_append]; rfl⟩
  | paren => exact ⟨_, code_paren _⟩

/-- The first character of a name or a numeral. -/
theorem head_cases {f : Form} (hf : f.WF B) :
    isNameStart f.head = true ∨ f.head.isDigit = true ∨ f.head = '\'' ∨ f.head = '/' ∨
      f.head = '[' ∨ f.head = '(' ∨ f.head = '!' ∨ f.head = '-' := by
  induction hf with
  | name h =>
    obtain ⟨a, as, rfl, ha, -⟩ := h.1
    exact .inl (by simpa [head] using ha)
  | num h =>
    obtain ⟨⟨d, ds, rfl, hd⟩, -⟩ := h
    exact .inr (.inl (by simpa [head] using hd))
  | member _ _ _ _ ih | call _ _ _ _ ih | bin _ _ _ _ ih | chain _ _ _ _ _ ih | addBreak _ _ _ _ ih
  | cond _ _ _ _ _ _ ih => simpa [head] using ih
  | _ => simp [head]

/-- **No code begins with `=`.** -/
theorem WF.head_ne_eq {f : Form} (hf : f.WF B) : f.head ≠ '=' := by
  rcases head_cases hf with h | h | h | h | h | h | h | h <;> rw [ne_eq] <;> intro heq <;>
    rw [heq] at h <;> revert h <;> decide

/-- **Code of a member access or tighter begins with no minus sign.** -/
theorem WF.head_ne_minus {f : Form} (hf : f.WF B) (hl : f.level ≤ .lhs) : f.head ≠ '-' := by
  induction hf with
  | name h =>
    obtain ⟨a, as, rfl, ha, -⟩ := h.1
    intro heq
    simp only [head, List.headD_cons] at heq
    rw [heq] at ha
    revert ha
    decide
  | num h =>
    obtain ⟨⟨d, ds, rfl, hd⟩, -⟩ := h
    intro heq
    simp only [head, List.headD_cons] at heq
    rw [heq] at hd
    revert hd
    decide
  | member _ hobj _ _ ih | call _ hobj _ _ ih => simpa [head] using ih hobj
  | not | neg | addBreak | cond => simp [level, Level.le_def, Level.rank] at hl
  | @bin op _ _ _ _ _ _ | @chain op _ _ _ _ _ _ _ =>
    cases op <;> simp [level, BinOp.level, Level.le_def, Level.rank] at hl
  | _ => simp [head]

/-! ### Reading a form -/

/-- Characters that are read, from between tokens, as the tokens `ts` when a character with `P`
follows them: the reading goes on between tokens at that character. -/
def Reads (xs : List Char) (ts : List Tok) (P : Char → Prop) : Prop :=
  ∀ c rest, P c → Lx.run .start (xs ++ c :: rest) = (Lx.run .start (c :: rest)).map fun r =>
    (r.1, ts ++ r.2)

namespace Reads

variable {xs ys : List Char} {ts us : List Tok} {P Q : Char → Prop}

theorem mono (h : Reads xs ts P) (hPQ : ∀ c, Q c → P c) : Reads xs ts Q :=
  fun c rest hc => h c rest (hPQ c hc)

/-- **Pieces read one after the other**, when what follows the first does not join its last
token. -/
theorem append (hx : Reads xs ts P) (hy : Reads ys us Q) (hp : ∀ c, Q c → P (ys.headD c)) :
    Reads (xs ++ ys) (ts ++ us) Q := by
  intro c rest hc
  have hsplit : ys ++ c :: rest = ys.headD c :: (ys ++ c :: rest).tail := by cases ys <;> rfl
  rw [List.append_assoc, hsplit, hx _ _ (hp c hc), ← hsplit, hy c rest hc, Option.map_map]
  simp [Function.comp_def]

/-- Characters read whole, the reader between tokens after them. -/
theorem of_run (h : Lx.run .start xs = some (.start, ts)) : Reads xs ts fun _ => True :=
  fun _ _ _ => Lx.run_append_of_eq h _

/-- **What is read before a blank is the whole text's tokens.** -/
theorem lex (h : Reads xs ts P) (hp : P ' ') : Lx.lex xs = some ts := by
  have hrun := h ' ' [] hp
  rw [Lx.run_blank, Lx.run_nil] at hrun
  simp [Lx.lex, hrun]

theorem name {n : List Char} (hn : Lx.IsName n) : Reads n [.word n] fun c => endsWord c = true :=
  fun _ rest hc => Lx.run_name hn hc rest

theorem numeral {s : List Char} (hs : Lx.Numeral s) :
    Reads s [.num s] fun c => endsWord c = true ∧ c.isDigit = false ∧ c ≠ '.' :=
  fun _ rest hc => Lx.run_numeral hs hc.1 hc.2.1 hc.2.2 rest

theorem string {b : List Char} (hb : Lx.StrBody b) : Reads ('\'' :: (b ++ ['\''])) [.str b] fun _ => True := by
  intro c rest _
  simpa using Lx.run_string hb (c :: rest)

theorem regex {b f : List Char} (h : Lx.run .start ('/' :: (b ++ ['/'])) = some (.flags b [], []))
    (hf : ∀ c ∈ f, isNamePart c = true) :
    Reads ('/' :: (b ++ '/' :: f)) [.regex b f] fun c => endsWord c = true := by
  intro c rest hc
  have hflags : ∀ (acc : List Char) (xs : List Char), (∀ x ∈ xs, isNamePart x = true) →
      Lx.run (.flags b acc) (xs ++ c :: rest) = Lx.run (.flags b (acc ++ xs)) (c :: rest) := by
    intro acc xs hxs
    induction xs generalizing acc with
    | nil => simp
    | cons x xs ih =>
      have hx : Lx.step (.flags b acc) x = some (.flags b (acc ++ [x]), []) := by
        simp [Lx.step, hxs x List.mem_cons_self]
      rw [List.cons_append, Lx.run_cons_of_step hx, ih _ fun y hy => hxs y (List.mem_cons_of_mem x hy)]
      simp
  have hclose : Lx.step (.flags b f) c = Lx.close (.regex b f) c := by
    have hpart := ((endsWord_iff c).1 hc).2.1
    simp [Lx.step, hpart, hc]
  have hsplit : '/' :: (b ++ '/' :: f) ++ c :: rest = ('/' :: (b ++ ['/'])) ++ (f ++ c :: rest) := by
    simp
  rw [hsplit, Lx.run_append_of_eq h, hflags [] f hf, List.nil_append, Lx.run_close hclose]
  simp [Option.map_map, Function.comp_def]

theorem punct {p : List Char} (hp : Lx.run .start p = some (.punct p, [])) {P : Char → Prop}
    (hc : ∀ c, P c → Lx.step (.punct p) c = Lx.close (.punct p) c) : Reads p [.punct p] P :=
  fun _ rest h => Lx.run_punct hp (hc _ h) rest

end Reads

/-! The pieces of printed code between the forms in it. -/

theorem reads_bang : Reads ['!'] [.punct ['!']] (· ≠ '=') :=
  Reads.punct (by decide) fun _ h => Lx.step_not h

theorem reads_minus : Reads ['-'] [.punct ['-']] fun c => c ≠ '-' ∧ c ≠ '=' :=
  Reads.punct (by decide) fun _ h => Lx.step_minus h.1 h.2

theorem reads_point : Reads ['.'] [.punct ['.']] fun c => c ≠ '.' ∧ c.isDigit = false :=
  Reads.punct (by decide) fun _ h => Lx.step_point h.1 h.2

theorem reads_operator (op : BinOp) : Reads (' ' :: (op.text ++ [' '])) [.punct op.text] fun _ => True :=
  Reads.of_run (by cases op <;> decide)

theorem reads_break : Reads [' ', '+', '\n'] [.punct ['+']] fun _ => True := Reads.of_run (by decide)
theorem reads_question : Reads [' ', '?', ' '] [.punct ['?']] fun _ => True := Reads.of_run (by decide)
theorem reads_colon : Reads [' ', ':', ' '] [.punct [':']] fun _ => True := Reads.of_run (by decide)
theorem reads_open : Reads ['('] [.punct ['(']] fun _ => True := Reads.of_run (by decide)
theorem reads_close : Reads [')'] [.punct [')']] fun _ => True := Reads.of_run (by decide)
theorem reads_openSquare : Reads ['['] [.punct ['[']] fun _ => True := Reads.of_run (by decide)
theorem reads_closeSquare : Reads [']'] [.punct [']']] fun _ => True := Reads.of_run (by decide)
theorem reads_comma : Reads [','] [.punct [',']] fun _ => True := Reads.of_run (by decide)
theorem reads_separator : Reads [',', ' '] [.punct [',']] fun _ => True := Reads.of_run (by decide)

theorem endsWord_of_closes {f : Form} {c : Char} (h : f.Closes c) : endsWord c = true := by
  rcases h with (rfl | rfl | rfl | rfl | rfl) | ⟨rfl, -⟩ <;> decide

/-- The first character of a member's name neither joins a point nor makes it a numeral. -/
theorem reads_property {n : List Char} (hn : Lx.IsName n) :
    Reads ('.' :: n) [.punct ['.'], .word n] fun c => endsWord c = true := by
  have h := reads_point.append (Reads.name hn) fun c _ => by
    obtain ⟨a, as, rfl, ha, -⟩ := hn
    simp only [List.headD_cons]
    constructor
    · rintro rfl
      revert ha
      decide
    · revert ha
      simp only [isNameStart, Char.isAlpha, Char.isUpper, Char.isLower, Char.isDigit,
        Bool.or_eq_true, Bool.and_eq_true, decide_eq_true_eq, beq_iff_eq, ge_iff_le,
        UInt32.le_iff_toNat_le, ← Char.toNat_inj, Char.toNat_val, Char.reduceToNat,
        Bool.and_eq_false_imp, decide_eq_false_iff_not]
      omega
  simpa using h

/-- A list of forms between separators, closed by a bracket. -/
theorem reads_intercalate {tail : List Char} (hsep : Reads (',' :: tail) [.punct [',']] fun _ => True)
    {close : Char} (hclose : Reads [close] [.punct [close]] fun _ => True)
    (hcl : ∀ f : Form, f.Closes close) {es : List Form} (h : ∀ e ∈ es, Reads e.code e.tokens e.Closes) :
    Reads ((',' :: tail).intercalate (es.map code) ++ [close])
      ([.punct [',']].intercalate (es.map tokens) ++ [.punct [close]]) fun _ => True := by
  induction es with
  | nil => simpa using hclose
  | cons e es ih =>
    have he := h e List.mem_cons_self
    cases es with
    | nil => simpa using he.append hclose fun _ _ => hcl e
    | cons e' es =>
      have hrest := ih fun x hx => h x (List.mem_cons_of_mem e hx)
      have hall := he.append (hsep.append hrest fun _ _ => trivial) fun c _ => by simp [Closes]
      simpa [List.intercalate_cons_cons, List.append_assoc] using hall

/-- What closes a form closes one that ends as it does. -/
theorem Closes.of_endsNum {f g : Form} (h : f.endsNum = g.endsNum) {c : Char} (hc : f.Closes c) :
    g.Closes c := by
  unfold Closes at hc ⊢
  rw [← h]
  exact hc

/-- **A well-formed form is read as its tokens**, whatever character closes it. -/
theorem WF.reads {f : Form} (hf : f.WF Lx.StrBody) : Reads f.code f.tokens f.Closes := by
  induction hf with
  | name h => simpa using (Reads.name h.1).mono fun _ hc => endsWord_of_closes hc
  | @num s h =>
    -- a numeral is not closed by a point: that would continue it
    have hcl : ∀ c, (Form.num s).Closes c → endsWord c = true ∧ c.isDigit = false ∧ c ≠ '.' := by
      rintro c ((rfl | rfl | rfl | rfl | rfl) | ⟨-, hend⟩)
      all_goals first | decide | simp [endsNum] at hend
    simpa using (Reads.numeral h).mono hcl
  | str h => simpa using (Reads.string h).mono fun _ _ => trivial
  | regex h hflags => simpa using (Reads.regex h hflags).mono fun _ hc => endsWord_of_closes hc
  | array _ _ ih =>
    have hels := reads_intercalate reads_comma reads_closeSquare (fun _ => .inl (by simp)) ih
    simpa using (reads_openSquare.append hels fun _ _ => trivial).mono fun _ _ => trivial
  | member _ _ hend hn ih =>
    have h := ih.append (reads_property hn) fun _ _ => .inr ⟨rfl, hend⟩
    simpa using h.mono fun _ hc => endsWord_of_closes hc
  | call _ _ _ _ ihg ih =>
    have hargs := reads_intercalate reads_separator reads_close (fun _ => .inl (by simp)) ih
    have h := ihg.append (reads_open.append hargs fun _ _ => trivial) fun _ _ => .inl (by simp)
    simpa using h.mono fun _ _ => trivial
  | @not e he _ hh ih =>
    obtain ⟨t, ht⟩ := he.code_eq_head_cons
    have h := reads_bang.append ih fun c _ => by rw [ht]; exact hh
    simpa using h.mono fun _ hc => Closes.of_endsNum (by simp [endsNum]) hc
  | @neg e he _ hm hh ih =>
    obtain ⟨t, ht⟩ := he.code_eq_head_cons
    have h := reads_minus.append ih fun c _ => by rw [ht]; exact ⟨hm, hh⟩
    simpa using h.mono fun _ hc => Closes.of_endsNum (by simp [endsNum]) hc
  | @bin op l r _ _ _ _ ihl ihr | @chain op l r _ _ _ _ _ ihl ihr =>
    have h := ihl.append ((reads_operator op).append ihr fun _ _ => trivial) fun _ _ => .inl (by simp)
    simpa using h.mono fun _ hc => Closes.of_endsNum (by simp [endsNum]) hc
  | @addBreak l r _ _ _ _ ihl ihr =>
    have h := ihl.append (reads_break.append ihr fun _ _ => trivial) fun _ _ => .inl (by simp)
    simpa using h.mono fun _ hc => Closes.of_endsNum (by simp [endsNum]) hc
  | @cond c a b _ _ _ _ _ _ ihc iha ihb =>
    have hb := reads_colon.append ihb fun _ _ => trivial
    have ha := iha.append hb fun _ _ => .inl (by simp)
    have h := ihc.append (reads_question.append ha fun _ _ => trivial) fun _ _ => .inl (by simp)
    simpa using h.mono fun _ hc => Closes.of_endsNum (by simp [endsNum]) hc
  | @paren e _ ih =>
    have h := reads_open.append (ih.append reads_close fun _ _ => .inl (by simp)) fun _ _ => trivial
    simpa using h.mono fun _ _ => trivial

/-- **The script reads a well-formed form as its tokens.** -/
theorem WF.lex {f : Form} (hf : f.WF Lx.StrBody) : Lx.lex f.code = some f.tokens :=
  hf.reads.lex (.inl (.inl rfl))

/-! ### Deriving a form -/

/-- The tokens of a form derive, at its level, an expression with the normal form of the tree
the form stands for. -/
def Derivable (f : Form) : Prop :=
  ∃ t, Derives f.level f.tokens t ∧ t.normalize = f.sem.normalize

/-- A form continues every chain of `op` as its last operand. -/
def Continues (op : BinOp) (f : Form) : Prop :=
  ∀ ts tl, Derives op.level ts tl → ∃ t, Derives op.level (ts ++ .punct op.text :: f.tokens) t ∧
    t.normalize = (Expr.bin op tl f.sem).normalize

/-- A form of the level of a right operand continues a chain as one operand. -/
theorem Derivable.continues {f : Form} (ha : f.Derivable) {op : BinOp} (hr : f.level ≤ op.right) :
    f.Continues op := by
  intro ts tl htl
  obtain ⟨t, ht, hn⟩ := ha
  exact ⟨.bin op tl t, .bin htl (.lift ht hr), Expr.normalize_bin_congr rfl hn⟩

/-- A form of no level of a chain continues a chain it is tighter than. -/
theorem Derivable.continues_of_ne {f : Form} (ha : f.Derivable) {op : BinOp}
    (hop : op.regroups = true) (hl : f.level ≤ op.level) (hand : f.level ≠ .and)
    (hor : f.level ≠ .or) : f.Continues op :=
  ha.continues (BinOp.le_right_of_ne hop hl hand hor)

/-- An operation whose right operand continues a chain of its operator. -/
theorem Derivable.chain {op : BinOp} {l r : Form} (hl : l.Derivable) (hll : l.level ≤ op.level)
    (hr : r.Continues op) : (bin op l r).Derivable := by
  obtain ⟨tl, htl, hnl⟩ := hl
  obtain ⟨t, ht, hn⟩ := hr l.tokens tl (.lift htl hll)
  exact ⟨t, by simpa using ht, by simpa using hn.trans (Expr.normalize_bin_congr hnl rfl)⟩

/-- A chain continues a chain of its operator: the script groups the two to the left, the normal
form does not tell. -/
theorem Continues.bin {op : BinOp} (hop : op.regroups = true) {l r : Form} (hl : l.Continues op)
    (hr : r.Continues op) : (bin op l r).Continues op := by
  intro ts tl htl
  obtain ⟨t₁, ht₁, hn₁⟩ := hl ts tl htl
  obtain ⟨t₂, ht₂, hn₂⟩ := hr _ t₁ ht₁
  refine ⟨t₂, by simpa using ht₂, ?_⟩
  rw [sem_bin]
  calc t₂.normalize = (Expr.bin op t₁ r.sem).normalize := hn₂
    _ = (Expr.bin op (.bin op tl l.sem) r.sem).normalize := Expr.normalize_bin_congr hn₁ rfl
    _ = (Expr.bin op tl (.bin op l.sem r.sem)).normalize := Expr.normalize_assoc hop _ _ _

/-- An operation continues each chain it is tighter than: as one operand, or as more when it is a
chain of the same operator. -/
theorem continues_bin {op : BinOp} {l r : Form} (ha : (bin op l r).Derivable)
    (hl : ∀ o, o.regroups = true → l.level ≤ o.level → l.Continues o) (hll : l.level ≤ op.level)
    (hr : ∀ o, o.regroups = true → r.level ≤ o.level → r.Continues o) (hrl : r.level ≤ op.level)
    (o : BinOp) (ho : o.regroups = true) (hle : (bin op l r).level ≤ o.level) :
    (bin op l r).Continues o := by
  by_cases hright : (bin op l r).level ≤ o.right
  · exact ha.continues hright
  · -- only a chain of `o` itself is too loose for its right operand
    have hop : op = o := by
      refine BinOp.eq_of_level_eq ho ?_
      rcases o <;> simp [BinOp.regroups] at ho <;> revert hle hright <;> simp only [level] <;>
        cases op <;> decide
    subst hop
    exact Continues.bin ho (hl op ho hll) (hr op ho hrl)

/-- Forms of the level of an assignment, between commas, are the elements of a list. -/
theorem elements_of_derivable {es : List Form} (h : ∀ e ∈ es, e.Derivable ∧ e.level ≤ .assign) :
    ∃ xs, Elements ([.punct [',']].intercalate (es.map tokens)) xs ∧
      xs.map Expr.normalize = es.map fun e => e.sem.normalize := by
  induction es with
  | nil => exact ⟨[], .nil, rfl⟩
  | cons e es ih =>
    obtain ⟨⟨t, ht, hn⟩, hle⟩ := h e List.mem_cons_self
    cases es with
    | nil => exact ⟨[t], by simpa using Elements.one (.lift ht hle), by simp [hn]⟩
    | cons e' es =>
      obtain ⟨ys, hys, hns⟩ := ih fun x hx => h x (List.mem_cons_of_mem e hx)
      obtain ⟨y, ys, rfl⟩ : ∃ y ys', ys = y :: ys' := by
        cases ys with
        | nil => simp at hns
        | cons y ys => exact ⟨y, ys, rfl⟩
      refine ⟨t :: y :: ys, ?_, by simp [hn, ← hns]⟩
      simpa [List.intercalate_cons_cons, List.append_assoc] using Elements.cons (.lift ht hle) hys

/-- **The tokens of a well-formed form derive the tree it stands for**, up to how its chains of
`&&` and `||` are grouped; and the form continues each chain it is tighter than. -/
theorem WF.derivable_continues {f : Form} (hf : f.WF B) :
    f.Derivable ∧ ∀ op, op.regroups = true → f.level ≤ op.level → f.Continues op := by
  -- what is not an operation of `&&` or `||` continues a chain as one operand
  have single : ∀ {f : Form}, f.Derivable → f.level ≠ .and → f.level ≠ .or →
      f.Derivable ∧ ∀ op, op.regroups = true → f.level ≤ op.level → f.Continues op :=
    fun ha hand hor => ⟨ha, fun _ hop hl => ha.continues_of_ne hop hl hand hor⟩
  induction hf with
  | name h => exact single ⟨_, by simpa using Derives.name h, rfl⟩ (by simp) (by simp)
  | num => exact single ⟨_, by simpa using Derives.num _, rfl⟩ (by simp) (by simp)
  | str => exact single ⟨_, by simpa using Derives.str _, rfl⟩ (by simp) (by simp)
  | regex => exact single ⟨_, by simpa using Derives.regex _ _, rfl⟩ (by simp) (by simp)
  | @array es _ hle ih =>
    obtain ⟨xs, hxs, hn⟩ := elements_of_derivable fun e he => ⟨(ih e he).1, hle e he⟩
    exact single ⟨_, by simpa using Derives.array hxs, by simp [hn]⟩ (by simp)
      (by simp)
  | member _ hle _ hn ih =>
    obtain ⟨t, ht, htn⟩ := ih.1
    exact single ⟨_, by simpa using Derives.member (.lift ht hle) hn, by simp [htn]⟩
      (by simp) (by simp)
  | @call g args _ hle _ hargs ihg ih =>
    obtain ⟨t, ht, htn⟩ := ihg.1
    obtain ⟨xs, hxs, hn⟩ := elements_of_derivable fun a ha => ⟨(ih a ha).1, hargs a ha⟩
    exact single ⟨_, by simpa using Derives.call (.lift ht hle) hxs, by simp [htn, hn]⟩
      (by simp) (by simp)
  | not _ hle _ ih =>
    obtain ⟨t, ht, htn⟩ := ih.1
    exact single ⟨_, by simpa using Derives.not (.lift ht hle), by simp [htn]⟩ (by simp)
      (by simp)
  | neg _ hle _ _ ih =>
    obtain ⟨t, ht, htn⟩ := ih.1
    exact single ⟨_, by simpa using Derives.neg (.lift ht hle), by simp [htn]⟩ (by simp)
      (by simp)
  | @bin op l r _ _ hll hrr ihl ihr =>
    have hrl : r.level ≤ op.level := Level.le_trans hrr op.right_le_level
    have ha := Derivable.chain ihl.1 hll (ihr.1.continues hrr)
    exact ⟨ha, continues_bin ha ihl.2 hll ihr.2 hrl⟩
  | @chain op l r hop _ _ hll hrl ihl ihr =>
    have ha := Derivable.chain ihl.1 hll (ihr.2 op hop hrl)
    exact ⟨ha, continues_bin ha ihl.2 hll ihr.2 hrl⟩
  | addBreak _ _ hll hrr ihl ihr =>
    obtain ⟨tl, htl, hnl⟩ := ihl.1
    obtain ⟨tr, htr, hnr⟩ := ihr.1
    have hd := @Derives.bin .add _ _ _ _ (.lift htl hll) (.lift htr hrr)
    exact single ⟨_, by simpa [BinOp.level, BinOp.text] using hd,
      by simp [Expr.normalize_bin_congr hnl hnr]⟩ (by simp) (by simp)
  | cond _ _ _ hc ha hb ihc iha ihb =>
    obtain ⟨tc, htc, hnc⟩ := ihc.1
    obtain ⟨ta, hta, hna⟩ := iha.1
    obtain ⟨tb, htb, hnb⟩ := ihb.1
    exact single ⟨_, by simpa using Derives.cond (.lift htc hc) (.lift hta ha) (.lift htb hb),
      by simp [hnc, hna, hnb]⟩ (by simp) (by simp)
  | paren _ ih =>
    obtain ⟨t, ht, htn⟩ := ih.1
    exact single ⟨_, by simpa using Derives.paren (.lift ht (Level.le_expr _)), by simpa using htn⟩
      (by simp) (by simp)

end Form


end Script
end BlockScribe
