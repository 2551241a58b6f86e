import BlockScribe.Proofs.Script.Lexer
import BlockScribe.Expr.Precedence
import BlockScribe.Naming.Table
/-!
# The expression grammar of the script

An expression is read into a tree (`Expr`) by the script's grammar, which stands its operators on
levels (`Level`), from the tightest to the loosest: primary expressions (names, literals, arrays
and bracketed expressions), member access and calls, the prefix operators, products, sums,
comparisons of size, equality, the bitwise operators, `&&`, `||`, the conditional, assignment and
the comma.  `Derives l ts e` says that the tokens `ts` are an expression of level `l` that reads
as `e`: each production puts its operands at the levels the script asks (`BinOp.level`,
`BinOp.right`), and an expression of a tighter level stands wherever a looser one is asked
(`Derives.lift`).  This is the part of the script's grammar that generated code uses: the
levels with no operator of their own here are reached only through `lift`, as in the script.

The script reads a chain of `&&` nested to the left; the blocks of a conjunction may nest it to
the right.  Two trees are the same up to how such chains are grouped when they have the same
normal form (`Expr.normalize`), which nests every chain of `&&` and of `||` to the left; the
normal form depends only on the normal forms of the operands (`normalize_bin_congr`) and forgets
the grouping of a chain (`normalize_assoc`).

The generator's orders sit on these levels: a piece of code of an order is an expression of the
level `Order.level` says, and where an order is asked for, code stands as one operand when it is
of level `Order.operandLevel` or tighter.  Code that `needsParens` leaves without brackets is of
that level (`level_le_operandLevel`).
-/

namespace BlockScribe
namespace Script

/-- The binary operators of generated code. -/
inductive BinOp where
  | add | sub | lt | le | gt | ge | eq | ne | and | or
  deriving DecidableEq, Repr

/-- An expression of the script as a reader builds it; brackets leave no node of their own. -/
inductive Expr where
  /-- A name, or a literal word such as `true`. -/
  | name (n : List Char)
  | num (s : List Char)
  | str (body : List Char)
  | regex (body flags : List Char)
  | array (elems : List Expr)
  | member (obj : Expr) (prop : List Char)
  | call (callee : Expr) (args : List Expr)
  | not (e : Expr)
  | neg (e : Expr)
  | bin (op : BinOp) (l r : Expr)
  | cond (c a b : Expr)
  deriving Repr

/-- The levels of the script's grammar of expressions, from the tightest to the loosest. -/
inductive Level where
  | primary | lhs | update | unary | exponent | multiplicative | additive | shift | relational
  | equality | bitAnd | bitXor | bitOr | and | or | cond | assign | expr
  deriving DecidableEq, Repr

namespace Level

/-- The place of a level, from the tightest. -/
def rank : Level → Nat
  | primary => 0 | lhs => 1 | update => 2 | unary => 3 | exponent => 4 | multiplicative => 5
  | additive => 6 | shift => 7 | relational => 8 | equality => 9 | bitAnd => 10 | bitXor => 11
  | bitOr => 12 | and => 13 | or => 14 | cond => 15 | assign => 16 | expr => 17

instance : LE Level := ⟨fun a b => a.rank ≤ b.rank⟩

instance (a b : Level) : Decidable (a ≤ b) := inferInstanceAs (Decidable (a.rank ≤ b.rank))

theorem le_def {a b : Level} : a ≤ b ↔ a.rank ≤ b.rank := Iff.rfl

@[refl] theorem le_refl (a : Level) : a ≤ a := Nat.le_refl _

/-- Every level stands where an expression is asked for. -/
theorem le_expr (l : Level) : l ≤ .expr := by
  cases l <;> decide

@[trans] theorem le_trans {a b c : Level} (h₁ : a ≤ b) (h₂ : b ≤ c) : a ≤ c := Nat.le_trans h₁ h₂

end Level

namespace BinOp

/-- How an operator is written. -/
def text : BinOp → List Char
  | add => ['+'] | sub => ['-'] | lt => ['<'] | le => ['<', '='] | gt => ['>'] | ge => ['>', '=']
  | eq => ['=', '='] | ne => ['!', '='] | and => ['&', '&'] | or => ['|', '|']

/-- The level of an expression with the operator outermost; its left operand stands at that
level too, since the script groups to the left. -/
def level : BinOp → Level
  | add | sub => .additive
  | lt | le | gt | ge => .relational
  | eq | ne => .equality
  | and => .and
  | or => .or

/-- The level of the right operand: the next tighter one. -/
def right : BinOp → Level
  | add | sub => .multiplicative
  | lt | le | gt | ge => .shift
  | eq | ne => .relational
  | and => .bitOr
  | or => .and

/-- The operators whose chains the normal form groups anew. -/
def regroups : BinOp → Bool
  | and | or => true
  | _ => false

/-- The right operand of an operator is tighter than the operation. -/
theorem right_le_level (op : BinOp) : op.right ≤ op.level := by
  cases op <;> decide

/-- The operators the normal form regroups are the only ones of their levels. -/
theorem eq_of_level_eq {op op' : BinOp} (hop : op.regroups = true) (h : op'.level = op.level) :
    op' = op := by
  cases op <;> cases op' <;> simp_all [regroups, level]

/-- Below `&&` and `||`, a level that is not theirs is that of a right operand. -/
theorem le_right_of_ne {op : BinOp} (hop : op.regroups = true) {l : Level} (hl : l ≤ op.level)
    (hand : l ≠ .and) (hor : l ≠ .or) : l ≤ op.right := by
  revert hl hand hor
  cases op <;> simp [regroups] at hop <;> cases l <;> decide

end BinOp

/-- The reserved words of the script. -/
def keywords : List String :=
  ["await", "break", "case", "catch", "class", "const", "continue", "debugger", "default",
    "delete", "do", "else", "enum", "export", "extends", "false", "finally", "for", "function",
    "if", "import", "in", "instanceof", "new", "null", "return", "super", "switch", "this",
    "throw", "true", "try", "typeof", "var", "void", "while", "with", "yield", "let", "static",
    "implements", "interface", "package", "private", "protected", "public"]

/-- The reserved words that are expressions by themselves. -/
def literalWords : List String := ["true", "false", "null", "this"]

/-- A name that stands as an expression: no reserved word, but for a literal one. -/
def IsReference (n : List Char) : Prop :=
  Lx.IsName n ∧ (String.ofList n ∉ keywords ∨ String.ofList n ∈ literalWords)

mutual

/-- `Derives l ts e`: the tokens `ts` are an expression of level `l` that reads as `e`. -/
inductive Derives : Level → List Tok → Expr → Prop
  | name {n : List Char} : IsReference n → Derives .primary [.word n] (.name n)
  | num (s : List Char) : Derives .primary [.num s] (.num s)
  | str (body : List Char) : Derives .primary [.str body] (.str body)
  | regex (body flags : List Char) : Derives .primary [.regex body flags] (.regex body flags)
  | array {ts : List Tok} {es : List Expr} :
      Elements ts es → Derives .primary (.punct ['['] :: (ts ++ [.punct [']']])) (.array es)
  | paren {ts : List Tok} {e : Expr} :
      Derives .expr ts e → Derives .primary (.punct ['('] :: (ts ++ [.punct [')']])) e
  | member {ts : List Tok} {e : Expr} {n : List Char} :
      Derives .lhs ts e → Lx.IsName n → Derives .lhs (ts ++ [.punct ['.'], .word n]) (.member e n)
  | call {ts us : List Tok} {e : Expr} {args : List Expr} :
      Derives .lhs ts e → Elements us args →
        Derives .lhs (ts ++ .punct ['('] :: (us ++ [.punct [')']])) (.call e args)
  | not {ts : List Tok} {e : Expr} : Derives .unary ts e → Derives .unary (.punct ['!'] :: ts) (.not e)
  | neg {ts : List Tok} {e : Expr} : Derives .unary ts e → Derives .unary (.punct ['-'] :: ts) (.neg e)
  | bin {op : BinOp} {ts us : List Tok} {l r : Expr} :
      Derives op.level ts l → Derives op.right us r →
        Derives op.level (ts ++ .punct op.text :: us) (.bin op l r)
  | cond {ts us vs : List Tok} {c a b : Expr} :
      Derives .or ts c → Derives .assign us a → Derives .assign vs b →
        Derives .cond (ts ++ .punct ['?'] :: (us ++ .punct [':'] :: vs)) (.cond c a b)
  | lift {l l' : Level} {ts : List Tok} {e : Expr} : Derives l ts e → l ≤ l' → Derives l' ts e

/-- Expressions of the level of an assignment separated by commas: the elements of an array or
the arguments of a call. -/
inductive Elements : List Tok → List Expr → Prop
  | nil : Elements [] []
  | one {ts : List Tok} {e : Expr} : Derives .assign ts e → Elements ts [e]
  | cons {ts us : List Tok} {e e' : Expr} {es : List Expr} :
      Derives .assign ts e → Elements us (e' :: es) → Elements (ts ++ .punct [','] :: us) (e :: e' :: es)

end

/-! ### Chains of `&&` and `||` -/

namespace Expr

/-- The operands of a chain of `op`, from the left. -/
def spine (op : BinOp) : Expr → List Expr
  | bin o l r => if o = op then spine op l ++ spine op r else [bin o l r]
  | e => [e]

/-- An expression with `op` outermost. -/
def IsChain (op : BinOp) (e : Expr) : Prop := ∃ l r, e = bin op l r

/-- The normal form of an expression: every chain of `&&` and of `||` nested to the left. -/
def normalize : Expr → Expr
  | name n => name n
  | num s => num s
  | str b => str b
  | regex b f => regex b f
  | array es => array (es.map normalize)
  | member e n => member (normalize e) n
  | call f args => call (normalize f) (args.map normalize)
  | not e => not (normalize e)
  | neg e => neg (normalize e)
  | bin op l r =>
    if op.regroups then (spine op (normalize r)).foldl (bin op) (normalize l)
    else bin op (normalize l) (normalize r)
  | cond c a b => cond (normalize c) (normalize a) (normalize b)

@[simp] theorem normalize_name (n : List Char) : normalize (name n) = name n := by simp [normalize]
@[simp] theorem normalize_num (s : List Char) : normalize (num s) = num s := by simp [normalize]
@[simp] theorem normalize_str (b : List Char) : normalize (str b) = str b := by simp [normalize]
@[simp] theorem normalize_regex (b f : List Char) : normalize (regex b f) = regex b f := by
  simp [normalize]
@[simp] theorem normalize_array (es : List Expr) : normalize (array es) = array (es.map normalize) := by
  simp [normalize]
@[simp] theorem normalize_member (e : Expr) (n : List Char) :
    normalize (member e n) = member (normalize e) n := by simp [normalize]
@[simp] theorem normalize_call (f : Expr) (args : List Expr) :
    normalize (call f args) = call (normalize f) (args.map normalize) := by simp [normalize]
@[simp] theorem normalize_not (e : Expr) : normalize (not e) = not (normalize e) := by simp [normalize]
@[simp] theorem normalize_neg (e : Expr) : normalize (neg e) = neg (normalize e) := by simp [normalize]
@[simp] theorem normalize_cond (c a b : Expr) :
    normalize (cond c a b) = cond (normalize c) (normalize a) (normalize b) := by simp [normalize]

theorem spine_bin_self (op : BinOp) (l r : Expr) : spine op (bin op l r) = spine op l ++ spine op r := by
  simp [spine]

theorem spine_of_not_isChain {op : BinOp} {e : Expr} (h : ¬IsChain op e) : spine op e = [e] := by
  cases e with
  | bin o l r =>
    have hne : o ≠ op := fun ho => h ⟨l, r, ho ▸ rfl⟩
    simp [spine, hne]
  | _ => rfl

/-- The operands of a chain are no chains themselves. -/
theorem not_isChain_of_mem_spine {op : BinOp} : ∀ {e x : Expr}, x ∈ spine op e → ¬IsChain op x
  | bin o l r, x, hx => by
    by_cases ho : o = op
    · subst ho
      rw [spine_bin_self, List.mem_append] at hx
      rcases hx with hx | hx
      · exact not_isChain_of_mem_spine hx
      · exact not_isChain_of_mem_spine hx
    · simp only [spine, ho, if_false, List.mem_singleton] at hx
      subst hx
      rintro ⟨_, _, h⟩
      exact ho (Expr.bin.inj h).1
  | name _, x, hx | num _, x, hx | str _, x, hx | regex _ _, x, hx | array _, x, hx
  | member _ _, x, hx | call _ _, x, hx | not _, x, hx | neg _, x, hx | cond _ _ _, x, hx => by
    simp only [spine, List.mem_singleton] at hx
    subst hx
    rintro ⟨_, _, h⟩
    cases h

/-- Operands that are no chains, put onto a chain to the left, lengthen its spine. -/
theorem spine_foldl {op : BinOp} {ys : List Expr} (hys : ∀ y ∈ ys, ¬IsChain op y) (x : Expr) :
    spine op (ys.foldl (bin op) x) = spine op x ++ ys := by
  induction ys generalizing x with
  | nil => simp
  | cons y ys ih =>
    rw [List.foldl_cons, ih (fun z hz => hys z (List.mem_cons_of_mem y hz)), spine_bin_self,
      spine_of_not_isChain (hys y List.mem_cons_self)]
    simp

/-- The normal form of an expression with a regrouped operator outermost. -/
theorem normalize_bin_of_regroups {op : BinOp} (h : op.regroups = true) (l r : Expr) :
    normalize (bin op l r) = (spine op (normalize r)).foldl (bin op) (normalize l) := by
  simp [normalize, h]

/-- **The normal form of an operation depends only on the normal forms of its operands.** -/
theorem normalize_bin_congr {op : BinOp} {l l' r r' : Expr} (hl : normalize l = normalize l')
    (hr : normalize r = normalize r') : normalize (bin op l r) = normalize (bin op l' r') := by
  simp only [normalize, hl, hr]

/-- **The normal form forgets how a chain is grouped.** -/
theorem normalize_assoc {op : BinOp} (h : op.regroups = true) (a b c : Expr) :
    normalize (bin op (bin op a b) c) = normalize (bin op a (bin op b c)) := by
  have hc : ∀ y ∈ spine op (normalize c), ¬IsChain op y := fun _ => not_isChain_of_mem_spine
  rw [normalize_bin_of_regroups h, normalize_bin_of_regroups h, normalize_bin_of_regroups h,
    normalize_bin_of_regroups h, spine_foldl hc, List.foldl_append]

end Expr

end Script

/-! ### The generator's orders on the levels -/

open Script

/-- The level of code of an order: of the expressions with such an operator outermost. -/
def Order.level : Order → Script.Level
  | .atomic => .primary
  | .new | .member | .call => .lhs
  | .increment | .decrement => .update
  | .bitwiseNot | .unaryPlus | .unaryNegation | .logicalNot | .typeof | .void | .delete
  | .await => .unary
  | .exponentiation => .exponent
  | .multiplication | .division | .modulus => .multiplicative
  | .subtraction | .addition => .additive
  | .bitwiseShift => .shift
  | .relational | .hasProperty | .instanceOf => .relational
  | .equality => .equality
  | .bitwiseAnd => .bitAnd
  | .bitwiseXor => .bitXor
  | .bitwiseOr => .bitOr
  | .logicalAnd => .and
  | .logicalOr => .or
  | .conditional => .cond
  | .assignment | .yield => .assign
  | .comma | .unbound => .expr

/-- The loosest level of code that stands as one operand where an order is asked for: the
operand of a prefix operator, the right operand of a binary one (the left one of a sum, a
conjunction or a disjunction, which chain), a branch of a conditional, an argument. -/
def Order.operandLevel : Order → Script.Level
  | .atomic | .new => .primary
  | .member | .call | .increment | .decrement => .lhs
  | .bitwiseNot | .unaryPlus | .unaryNegation | .typeof | .void | .delete | .await => .update
  | .logicalNot | .exponentiation | .division | .modulus => .unary
  | .multiplication | .subtraction => .multiplicative
  | .addition | .bitwiseShift => .additive
  | .relational | .hasProperty | .instanceOf => .shift
  | .equality => .relational
  | .bitwiseAnd => .equality
  | .bitwiseXor => .bitAnd
  | .bitwiseOr => .bitXor
  | .logicalAnd => .and
  | .logicalOr => .or
  | .conditional => .or
  | .assignment => .cond
  | .yield | .comma => .assign
  | .unbound => .expr

/-- Every order, listed. -/
theorem Order.mem_all (o : Order) : o ∈ Order.all := by
  cases o <;> decide

/-- **Code that needs no brackets where an order is asked for stands there as one operand.** -/
theorem level_le_operandLevel {outer inner : Order} (h : needsParens outer inner = false) :
    inner.level ≤ outer.operandLevel := by
  have hall : Order.all.all fun o => Order.all.all fun i =>
      !(needsParens o i == false) || decide (i.level ≤ o.operandLevel) := by decide
  have := List.all_eq_true.1 (List.all_eq_true.1 hall outer (Order.mem_all outer)) inner
    (Order.mem_all inner)
  simpa [h] using this

end BlockScribe
