import BlockScribe.Generate.Rule
/-!
# Rules for conditionals and boolean expressions

`if` chains write one arm per connected condition (at least one), an `else` arm when the kind
or the block asks for one or when a statement suffix is configured (so that it runs on every
path), and the early-exit suffix at the head of each arm.  Comparisons and connectives take
their operands at their own order, a missing operand of a connective is its neutral element
(and two missing ones make `false && false`), and the conditional expression defaults its arms
to `null`.

Source: `cumin-compiler/src/rules/logic.rs`: `controls_if`, `compare`, `operation`, `negate`,
`boolean`, `null` and `ternary`.
-/

namespace BlockScribe
namespace Rules

/-- `if`, `else if` and `else` arms. -/
def controlsIf (kind : BlockKind) : Rule := fun ch b => do
  let c := (← read).config
  let suffix := c.earlyExitSuffix b
  let arms := max (connectedArity b (min (b.extra.elseIfCount + 1) countMax) ["IF", "DO"]) 1
  let mut code := (c.prefixFor b).getD ""
  for n in List.range arms do
    let condition ← ch.valueOr ("IF" ++ toString n) .unbound "false"
    let branch ← ch.body ("DO" ++ toString n)
    if n > 0 then code := code ++ " else "
    code := code ++ "if (" ++ condition ++ ") \x7b\n" ++ suffix ++ branch ++ "\x7d"
  if kind == .controlsIfElse || b.extra.hasElse || (c.suffixFor b).isSome then
    let branch ← ch.body "ELSE"
    code := code ++ " else \x7b\n" ++ suffix ++ branch ++ "\x7d"
  pure (.statement (code ++ "\n"))

/-- A comparison operator. -/
inductive CompareOp where
  | eq | neq | lt | lte | gt | gte
  deriving Inhabited, DecidableEq

/-- The options of a comparison, by field text. -/
def CompareOp.options : List (String × CompareOp) :=
  [("EQ", .eq), ("NEQ", .neq), ("LT", .lt), ("LTE", .lte), ("GT", .gt), ("GTE", .gte)]

/-- `a op b` for a comparison. -/
def logicCompare : Rule := fun ch b => do
  let op ← choose b "OP" CompareOp.options
  let (operator, order) : String × Order := match op with
    | .eq => ("==", .equality)
    | .neq => ("!=", .equality)
    | .lt => ("<", .relational)
    | .lte => ("<=", .relational)
    | .gt => (">", .relational)
    | .gte => (">=", .relational)
  let x ← ch.valueOr "A" order "0"
  let y ← ch.valueOr "B" order "0"
  pure (.value (x ++ " " ++ operator ++ " " ++ y) order)

/-- `a && b` or `a || b`. -/
def logicOperation : Rule := fun ch b => do
  let isAnd ← choose b "OP" [("AND", true), ("OR", false)]
  let (operator, order, neutral) : String × Order × String :=
    if isAnd then ("&&", .logicalAnd, "true") else ("||", .logicalOr, "false")
  let x ← ch.value "A" order
  let y ← ch.value "B" order
  let (x, y) := match x, y with
    | none, none => ("false", "false")
    | x, y => (x.getD neutral, y.getD neutral)
  pure (.value (x ++ " " ++ operator ++ " " ++ y) order)

/-- `!a`. -/
def logicNegate : Rule := fun ch _ => do
  let operand ← ch.valueOr "BOOL" .logicalNot "true"
  pure (.value ("!" ++ operand) .logicalNot)

/-- `true` or `false`. -/
def logicBoolean : Rule := fun _ b => do
  let v ← choose b "BOOL" [("TRUE", true), ("FALSE", false)]
  pure (.value (if v then "true" else "false") .atomic)

/-- `null`. -/
def logicNull : Rule := fun _ _ => pure (.value "null" .atomic)

/-- `c ? t : e`. -/
def logicTernary : Rule := fun ch _ => do
  let condition ← ch.valueOr "IF" .conditional "false"
  let thenCode ← ch.valueOr "THEN" .conditional "null"
  let elseCode ← ch.valueOr "ELSE" .conditional "null"
  pure (.value (condition ++ " ? " ++ thenCode ++ " : " ++ elseCode) .conditional)

end Rules
end BlockScribe
