/-!
# Operator precedence

Every piece of generated expression code carries the `Order` of its outermost operator, and
every place that receives a piece asks for an `Order`: the operator it will stand under.
Each order has a precedence in tenths (`Order.precedence`); its tier (`Order.tier`, the
precedence divided by ten) groups operators that bind alike.  A piece is put in parentheses
(`bracket`) exactly when `needsParens` says so: when the receiving tier does not bind more
loosely than the piece's, except for the atomic and unbound places of equal tier and for the
pairs that may be chained without parentheses (`Order.chains`: member access and calls, the
logical not, the products, the sums, the conjunctions and the disjunctions).

Source: `cumin-compiler/src/precedence.rs`: `Order`, `needs_parens` and `compose`.
-/

namespace BlockScribe

/-- The binding strength of an expression's outermost operator, from the tightest (a literal
or name) to the loosest (a place that takes any expression). -/
inductive Order where
  /-- A literal, a name or a bracketed expression. -/
  | atomic
  /-- `new C(...)`. -/
  | new
  /-- Member access `a.b` or `a[b]`. -/
  | member
  /-- A call `f(...)`. -/
  | call
  /-- `++`. -/
  | increment
  /-- `--`. -/
  | decrement
  /-- `~a`. -/
  | bitwiseNot
  /-- `+a`. -/
  | unaryPlus
  /-- `-a`. -/
  | unaryNegation
  /-- `!a`. -/
  | logicalNot
  /-- `typeof a`. -/
  | typeof
  /-- `void a`. -/
  | void
  /-- `delete a`. -/
  | delete
  /-- `await a`. -/
  | await
  /-- `a ** b`. -/
  | exponentiation
  /-- `a * b`. -/
  | multiplication
  /-- `a / b`. -/
  | division
  /-- `a % b`. -/
  | modulus
  /-- `a - b`. -/
  | subtraction
  /-- `a + b`. -/
  | addition
  /-- `a << b` and the other shifts. -/
  | bitwiseShift
  /-- `a < b` and the other comparisons of size. -/
  | relational
  /-- `a in b`. -/
  | hasProperty
  /-- `a instanceof b`. -/
  | instanceOf
  /-- `a == b`, `a != b`. -/
  | equality
  /-- `a & b`. -/
  | bitwiseAnd
  /-- `a ^ b`. -/
  | bitwiseXor
  /-- `a | b`. -/
  | bitwiseOr
  /-- `a && b`. -/
  | logicalAnd
  /-- `a || b`. -/
  | logicalOr
  /-- `a ? b : c`. -/
  | conditional
  /-- `a = b`. -/
  | assignment
  /-- `yield a`. -/
  | yield
  /-- `a, b`. -/
  | comma
  /-- A place that takes any expression as it is, such as a whole argument list. -/
  | unbound
  deriving DecidableEq, Repr, Inhabited

namespace Order

/-- The precedence of an order, in tenths: lower binds tighter. -/
def precedence : Order → Nat
  | atomic => 0
  | new => 11
  | member => 12
  | call => 20
  | increment | decrement => 30
  | bitwiseNot => 41
  | unaryPlus => 42
  | unaryNegation => 43
  | logicalNot => 44
  | typeof => 45
  | void => 46
  | delete => 47
  | await => 48
  | exponentiation => 50
  | multiplication => 51
  | division => 52
  | modulus => 53
  | subtraction => 61
  | addition => 62
  | bitwiseShift => 70
  | relational | hasProperty | instanceOf => 80
  | equality => 90
  | bitwiseAnd => 100
  | bitwiseXor => 110
  | bitwiseOr => 120
  | logicalAnd => 130
  | logicalOr => 140
  | conditional => 150
  | assignment => 160
  | yield => 170
  | comma => 180
  | unbound => 990

/-- The tier of an order: operators of one tier bind alike. -/
def tier (o : Order) : Nat := o.precedence / 10

/-- The pairs (receiving order, piece order) that chain without parentheses although their
tiers are equal: `a.b().c`, `f()()`, `!!a`, `a * b * c`, `a + b + c`, `a && b && c`,
`a || b || c`. -/
def chains : Order → Order → Bool
  | call, member | call, call | member, member | member, call => true
  | logicalNot, logicalNot | multiplication, multiplication | addition, addition => true
  | logicalAnd, logicalAnd | logicalOr, logicalOr => true
  | _, _ => false

/-- Every order, from the tightest to the loosest. -/
def all : List Order :=
  [atomic, new, member, call, increment, decrement, bitwiseNot, unaryPlus, unaryNegation,
    logicalNot, typeof, void, delete, await, exponentiation, multiplication, division, modulus,
    subtraction, addition, bitwiseShift, relational, hasProperty, instanceOf, equality,
    bitwiseAnd, bitwiseXor, bitwiseOr, logicalAnd, logicalOr, conditional, assignment, yield,
    comma, unbound]

/-- The name of an order. -/
def name : Order → String
  | atomic => "Atomic"
  | new => "New"
  | member => "Member"
  | call => "FunctionCall"
  | increment => "Increment"
  | decrement => "Decrement"
  | bitwiseNot => "BitwiseNot"
  | unaryPlus => "UnaryPlus"
  | unaryNegation => "UnaryNegation"
  | logicalNot => "LogicalNot"
  | typeof => "Typeof"
  | void => "Void"
  | delete => "Delete"
  | await => "Await"
  | exponentiation => "Exponentiation"
  | multiplication => "Multiplication"
  | division => "Division"
  | modulus => "Modulus"
  | subtraction => "Subtraction"
  | addition => "Addition"
  | bitwiseShift => "BitwiseShift"
  | relational => "Relational"
  | hasProperty => "In"
  | instanceOf => "Instanceof"
  | equality => "Equality"
  | bitwiseAnd => "BitwiseAnd"
  | bitwiseXor => "BitwiseXor"
  | bitwiseOr => "BitwiseOr"
  | logicalAnd => "LogicalAnd"
  | logicalOr => "LogicalOr"
  | conditional => "Conditional"
  | assignment => "Assignment"
  | yield => "Yield"
  | comma => "Comma"
  | unbound => "None"

/-- The order of a name. -/
def ofName? (s : String) : Option Order := all.find? (fun o => o.name == s)

end Order

/-- Whether a piece of order `inner` needs parentheses where an `outer` is asked for. -/
def needsParens (outer inner : Order) : Bool :=
  if outer.tier > inner.tier then false
  else if outer.tier == inner.tier && (outer == .atomic || outer == .unbound) then false
  else !Order.chains outer inner

/-- A piece of code of order `inner`, put where an `outer` is asked for. -/
def bracket (code : String) (inner outer : Order) : String :=
  if needsParens outer inner then "(" ++ code ++ ")" else code

example : needsParens .addition .addition = false ∧ needsParens .subtraction .subtraction = true :=
  by decide
example : bracket "a + b" .addition .multiplication = "(a + b)" := by decide

end BlockScribe
