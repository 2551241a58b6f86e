import BlockScribe.Generate.Rule
/-!
# Rules for procedures and variables

A procedure definition is hoisted: its code becomes a definition of the program, and nothing
stands in its place.  Its body is generated in a scope of its own; it opens with the statement
prefix and suffix and the loop trap, and when it returns a value after some statements, the
prefix and suffix run once more before the `return`.  A call passes one argument per declared
parameter, `null` for a missing one.  An early return runs the statement suffix first.
Variables are named globally, by their workspace names.

Source: `cumin-compiler/src/rules/procedures.rs` (`define`, `call`, `call_statement`, `if_return`)
and `rules/variables.rs` (`get`, `set`).
-/

namespace BlockScribe
namespace Rules

/-- A procedure definition, hoisted. -/
def defineProcedure : Rule := fun ch b => do
  let name ← GenM.procedureName (textField b "NAME")
  let ctx ← read
  let c := ctx.config
  let entry := Text.prefixLines ((c.prefixFor b).getD "" ++ (c.suffixFor b).getD "") c.indent
  let loopTrap := (c.indentedLoopTrap b).getD ""
  let (branch, returned) ← GenM.inChildScope do
    let branch ← ch.body "STACK"
    let returned ← ch.value "RETURN" .unbound
    pure (branch, returned)
  let (beforeReturn, returnLine) := match returned with
    | some v => ((if branch.isEmpty then "" else entry), c.indent ++ "return " ++ v ++ ";\n")
    | none => ("", "")
  let args ← b.extra.params.mapM GenM.variableName
  let code := ctx.workspace.commentLines ctx.reach b ++ "function " ++ name ++ "(" ++
    ", ".intercalate args ++ ") \x7b\n" ++ entry ++ loopTrap ++ branch ++ beforeReturn ++
    returnLine ++ "\x7d"
  GenM.defineProcedure name code
  pure .hoisted

/-- A call of a procedure, as an expression. -/
def callReturn : Rule := fun ch b => do
  let name ← GenM.procedureName (textField b "NAME")
  let args ← (List.range b.extra.params.length).mapM fun i =>
    ch.valueOr ("ARG" ++ toString i) .comma "null"
  pure (.value (name ++ "(" ++ ", ".intercalate args ++ ")") .call)

/-- A call of a procedure, as a statement. -/
def callNoReturn : Rule := fun ch b => do
  match ← callReturn ch b with
  | .value code _ => pure (.statement (code ++ ";\n"))
  | other => pure other

/-- `if (c) return v;`, with the statement suffix before the return. -/
def ifReturn : Rule := fun ch b => do
  let c := (← read).config
  let condition ← ch.valueOr "CONDITION" .unbound "false"
  let head := "if (" ++ condition ++ ") \x7b\n" ++ c.earlyExitSuffix b
  let ret ← (if b.extra.hasReturnValue.getD true then do
      let v ← ch.valueOr "VALUE" .unbound "null"
      pure (c.indent ++ "return " ++ v ++ ";\n")
    else pure (c.indent ++ "return;\n"))
  pure (.statement (head ++ ret ++ "\x7d\n"))

/-- The value of a variable. -/
def variablesGet : Rule := fun _ b => do
  pure (.value (← GenM.variableName (textField b "VAR")) .atomic)

/-- An assignment to a variable. -/
def variablesSet : Rule := fun ch b => do
  let v ← ch.valueOr "VALUE" .assignment "0"
  let var ← GenM.variableName (textField b "VAR")
  pure (.statement (var ++ " = " ++ v ++ ";\n"))

end Rules
end BlockScribe
