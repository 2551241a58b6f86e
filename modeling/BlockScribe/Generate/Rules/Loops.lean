import BlockScribe.Generate.Rule
/-!
# Rules for loops

Every loop body carries the loop's instrumentation (`Config.addLoopTrap`).  A loop names its
temporaries after generating its body, so an inner loop takes the plain names and an outer one
the numbered ones.  A bound that is neither a word nor a number is first stored in a temporary,
so that it is computed once.  A counting loop whose three bounds are numbers is written with a
fixed direction and step; otherwise the step's sign is decided when the loop starts.
`break` and `continue` run the statement suffix of their own block and the prefix of the
loop they leave.

Source: `cumin-compiler/src/rules/loops.rs`: `repeat`, `while_until`, `for_range`, `for_each` and
`flow_statement`.
-/

namespace BlockScribe
namespace Rules

/-- Code used as it is when `keep` holds, and otherwise stored first in a fresh temporary named
after `base`: the code to use and the line that stores it. -/
def stored (keep : Bool) (base code : String) : GenM (String × String) :=
  if keep then pure (code, "")
  else do
    let t ← GenM.temporary base
    pure (t, "var " ++ t ++ " = " ++ code ++ ";\n")

/-- `for (var count = 0; count < n; count++)`, the count from a field or a value. -/
def repeatTimes : Rule := fun ch b => do
  let repeats ← (match b.field? "TIMES" with
    | some raw =>
      match parseNumber raw with
      | some v => pure (formatNumber v)
      | none => throw (.invalidField b.id b.kind "TIMES" raw)
    | none => ch.valueOr "TIMES" .assignment "0")
  let branch ← ch.body "DO"
  let branch := (← read).config.addLoopTrap branch b
  let counter ← GenM.temporary "count"
  let (bound, setup) ← stored (Text.isWord repeats || Text.isNumber repeats) "repeat_end" repeats
  pure (.statement (setup ++ "for (var " ++ counter ++ " = 0; " ++ counter ++ " < " ++ bound ++
    "; " ++ counter ++ "++) \x7b\n" ++ branch ++ "\x7d\n"))

/-- `while (c)` or `while (!c)`. -/
def whileUntil : Rule := fun ch b => do
  let untilMode ← choose b "MODE" [("WHILE", false), ("UNTIL", true)]
  let condition ← ch.valueOr "BOOL" (if untilMode then .logicalNot else .unbound) "false"
  let branch ← ch.body "DO"
  let branch := (← read).config.addLoopTrap branch b
  let condition := if untilMode then "!" ++ condition else condition
  pure (.statement ("while (" ++ condition ++ ") \x7b\n" ++ branch ++ "\x7d\n"))

/-- The number that a piece of code is, if it is a plain decimal. -/
def numeral? (code : String) : Option Binary64 :=
  if Text.isNumber code then parseNumber code else none

/-- A counting loop from `FROM` to `TO` by `BY`. -/
def forRange : Rule := fun ch b => do
  let c := (← read).config
  let var ← GenM.variableName (textField b "VAR")
  let start ← ch.valueOr "FROM" .assignment "0"
  let stop ← ch.valueOr "TO" .assignment "0"
  let step ← ch.valueOr "BY" .assignment "1"
  let branch ← ch.body "DO"
  let branch := c.addLoopTrap branch b
  match numeral? start, numeral? stop, numeral? step with
  | some x, some y, some z =>
    let up := x.le y
    let magnitude := z.abs
    let advance :=
      if magnitude == Binary64.ofNat 1 then (if up then "++" else "--")
      else (if up then " += " else " -= ") ++ formatNumber magnitude
    pure (.statement ("for (" ++ var ++ " = " ++ start ++ "; " ++ var ++
      (if up then " <= " else " >= ") ++ stop ++ "; " ++ var ++ advance ++ ") \x7b\n" ++
      branch ++ "\x7d\n"))
  | _, _, _ =>
    let (startVar, startSetup) ←
      stored (Text.isWord start || Text.isNumber start) (var ++ "_start") start
    let (stopVar, stopSetup) ← stored (Text.isWord stop || Text.isNumber stop) (var ++ "_end") stop
    let inc ← GenM.temporary (var ++ "_inc")
    let mut code := startSetup ++ stopSetup
    code := code ++ match numeral? step with
      | some z => "var " ++ inc ++ " = " ++ formatNumber z.abs ++ ";\n"
      | none => "var " ++ inc ++ " = Math.abs(" ++ step ++ ");\n"
    code := code ++ "if (" ++ startVar ++ " > " ++ stopVar ++ ") \x7b\n"
    code := code ++ c.indent ++ inc ++ " = -" ++ inc ++ ";\n"
    code := code ++ "\x7d\n"
    code := code ++ "for (" ++ var ++ " = " ++ startVar ++ "; " ++ inc ++ " >= 0 ? " ++ var ++
      " <= " ++ stopVar ++ " : " ++ var ++ " >= " ++ stopVar ++ "; " ++ var ++ " += " ++ inc ++
      ") \x7b\n" ++ branch ++ "\x7d\n"
    pure (.statement code)

/-- `for (var i in list)` with the element assigned to the loop variable. -/
def forEach : Rule := fun ch b => do
  let c := (← read).config
  let var ← GenM.variableName (textField b "VAR")
  let list ← ch.valueOr "LIST" .assignment "[]"
  let branch ← ch.body "DO"
  let branch := c.addLoopTrap branch b
  let (listVar, setup) ← stored (Text.isWord list) (var ++ "_list") list
  let indexVar ← GenM.temporary (var ++ "_index")
  let branch := c.indent ++ var ++ " = " ++ listVar ++ "[" ++ indexVar ++ "];\n" ++ branch
  pure (.statement (setup ++ "for (var " ++ indexVar ++ " in " ++ listVar ++ ") \x7b\n" ++
    branch ++ "\x7d\n"))

/-- `break` or `continue`. -/
def flowStatement : Rule := fun _ b => do
  let isBreak ← choose b "FLOW" [("BREAK", true), ("CONTINUE", false)]
  let c := (← read).config
  let loopPrefix := match ← GenM.surroundingLoop with
    | some loop => (c.prefixFor loop).getD ""
    | none => ""
  let code := (c.prefixFor b).getD "" ++ (c.suffixFor b).getD "" ++ loopPrefix
  pure (.statement (code ++ if isBreak then "break;\n" else "continue;\n"))

end Rules
end BlockScribe
