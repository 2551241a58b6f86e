import BlockScribe.Generate.Rules.Logic
import BlockScribe.Generate.Rules.Loops
import BlockScribe.Generate.Rules.Procedures
import BlockScribe.Generate.Rules.Text
import BlockScribe.Generate.Rules.Colour
/-!
# The rule of each kind

Every kind of block has one rule; the two kinds of `if`, the two repeat loops, the two
procedure definitions, the dynamic and plain variable blocks and the two prompts share theirs.

Source: `cumin-compiler/src/rules/mod.rs`: `dispatch`.
-/

namespace BlockScribe

/-- The rule that generates blocks of a kind. -/
def BlockKind.rule : BlockKind → Rule
  | .controlsIf => Rules.controlsIf .controlsIf
  | .controlsIfElse => Rules.controlsIf .controlsIfElse
  | .logicCompare => Rules.logicCompare
  | .logicOperation => Rules.logicOperation
  | .logicNegate => Rules.logicNegate
  | .logicBoolean => Rules.logicBoolean
  | .logicNull => Rules.logicNull
  | .logicTernary => Rules.logicTernary
  | .repeatExt | .repeatTimes => Rules.repeatTimes
  | .whileUntil => Rules.whileUntil
  | .forRange => Rules.forRange
  | .forEach => Rules.forEach
  | .flowStatement => Rules.flowStatement
  | .defineReturn | .defineNoReturn => Rules.defineProcedure
  | .callReturn => Rules.callReturn
  | .callNoReturn => Rules.callNoReturn
  | .ifReturn => Rules.ifReturn
  | .variablesGet | .variablesGetDynamic => Rules.variablesGet
  | .variablesSet | .variablesSetDynamic => Rules.variablesSet
  | .text => Rules.text
  | .textMultiline => Rules.textMultiline
  | .textJoin => Rules.textJoin
  | .textAppend => Rules.textAppend
  | .textLength => Rules.textLength
  | .textIsEmpty => Rules.textIsEmpty
  | .textIndexOf => Rules.textIndexOf
  | .textCharAt => Rules.textCharAt
  | .textGetSubstring => Rules.textGetSubstring
  | .textChangeCase => Rules.textChangeCase
  | .textTrim => Rules.textTrim
  | .textPrint => Rules.textPrint
  | .textPromptExt | .textPrompt => Rules.textPrompt
  | .textCount => Rules.textCount
  | .textReplace => Rules.textReplace
  | .textReverse => Rules.textReverse
  | .colourPicker => Rules.colourPicker
  | .colourRandom => Rules.colourRandom
  | .colourRgb => Rules.colourRgb
  | .colourBlend => Rules.colourBlend

end BlockScribe
