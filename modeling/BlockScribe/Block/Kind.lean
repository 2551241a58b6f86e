/-!
# Block kinds

The 44 kinds of block that the generator knows, in their canonical order (`BlockKind.all`),
with their names in the workspace format.  A value kind (`BlockKind.isValue`) produces an
expression and every other kind a statement; the loop kinds (`BlockKind.isLoop`) are the ones
that `break` and `continue` leave and that loop traps guard; and the kinds that place their
own instrumentation (`BlockKind.placesOwnSnippets`) are not wrapped in the statement prefix
and suffix.

Source: `cumin-compiler/src/rules/mod.rs`: `BlockKind` with `as_str`, `from_name`, `is_value`,
`is_loop` and `suppresses_prefix_suffix`.
-/

namespace BlockScribe

/-- A kind of block. -/
inductive BlockKind where
  /-- An `if` with `else if` arms and an optional `else`. -/
  | controlsIf
  /-- An `if` with an `else`. -/
  | controlsIfElse
  /-- A comparison of two values. -/
  | logicCompare
  /-- A conjunction or disjunction. -/
  | logicOperation
  /-- A logical negation. -/
  | logicNegate
  /-- A boolean constant. -/
  | logicBoolean
  /-- The null value. -/
  | logicNull
  /-- A conditional expression. -/
  | logicTernary
  /-- A loop repeated a number of times given by a value. -/
  | repeatExt
  /-- A loop repeated a number of times given by a field. -/
  | repeatTimes
  /-- A loop while (or until) a condition holds. -/
  | whileUntil
  /-- A counting loop over a range. -/
  | forRange
  /-- A loop over the elements of a list. -/
  | forEach
  /-- `break` or `continue`. -/
  | flowStatement
  /-- A procedure that returns a value. -/
  | defineReturn
  /-- A procedure that returns nothing. -/
  | defineNoReturn
  /-- A call of a procedure for its value. -/
  | callReturn
  /-- A call of a procedure as a statement. -/
  | callNoReturn
  /-- An early return under a condition. -/
  | ifReturn
  /-- The value of a variable. -/
  | variablesGet
  /-- An assignment to a variable. -/
  | variablesSet
  /-- The value of a variable (dynamically typed). -/
  | variablesGetDynamic
  /-- An assignment to a variable (dynamically typed). -/
  | variablesSetDynamic
  /-- A text constant. -/
  | text
  /-- A text constant of several lines. -/
  | textMultiline
  /-- The concatenation of texts. -/
  | textJoin
  /-- Appending to a text variable. -/
  | textAppend
  /-- The length of a text. -/
  | textLength
  /-- Whether a text is empty. -/
  | textIsEmpty
  /-- The position of one text in another. -/
  | textIndexOf
  /-- A letter of a text. -/
  | textCharAt
  /-- A part of a text. -/
  | textGetSubstring
  /-- A text in other case. -/
  | textChangeCase
  /-- A text without surrounding blanks. -/
  | textTrim
  /-- Showing a text to the user. -/
  | textPrint
  /-- Asking the user for a text or number (with a value message). -/
  | textPromptExt
  /-- Asking the user for a text or number (with a field message). -/
  | textPrompt
  /-- The number of occurrences of a text. -/
  | textCount
  /-- A text with one part replaced. -/
  | textReplace
  /-- A text reversed. -/
  | textReverse
  /-- A colour constant. -/
  | colourPicker
  /-- A random colour. -/
  | colourRandom
  /-- A colour from red, green and blue. -/
  | colourRgb
  /-- A blend of two colours. -/
  | colourBlend
  deriving DecidableEq, Repr, Inhabited

namespace BlockKind

/-- Every kind, in canonical order. -/
def all : List BlockKind :=
  [controlsIf, controlsIfElse, logicCompare, logicOperation, logicNegate,
    logicBoolean, logicNull, logicTernary, repeatExt, repeatTimes,
    whileUntil, forRange, forEach, flowStatement, defineReturn,
    defineNoReturn, callReturn, callNoReturn, ifReturn, variablesGet,
    variablesSet, variablesGetDynamic, variablesSetDynamic, text, textMultiline,
    textJoin, textAppend, textLength, textIsEmpty, textIndexOf,
    textCharAt, textGetSubstring, textChangeCase, textTrim, textPrint,
    textPromptExt, textPrompt, textCount, textReplace, textReverse,
    colourPicker, colourRandom, colourRgb, colourBlend]

/-- The name of a kind in the workspace format. -/
def name : BlockKind → String
  | controlsIf => "controls_if"
  | controlsIfElse => "controls_ifelse"
  | logicCompare => "logic_compare"
  | logicOperation => "logic_operation"
  | logicNegate => "logic_negate"
  | logicBoolean => "logic_boolean"
  | logicNull => "logic_null"
  | logicTernary => "logic_ternary"
  | repeatExt => "controls_repeat_ext"
  | repeatTimes => "controls_repeat"
  | whileUntil => "controls_whileUntil"
  | forRange => "controls_for"
  | forEach => "controls_forEach"
  | flowStatement => "controls_flow_statements"
  | defineReturn => "procedures_defreturn"
  | defineNoReturn => "procedures_defnoreturn"
  | callReturn => "procedures_callreturn"
  | callNoReturn => "procedures_callnoreturn"
  | ifReturn => "procedures_ifreturn"
  | variablesGet => "variables_get"
  | variablesSet => "variables_set"
  | variablesGetDynamic => "variables_get_dynamic"
  | variablesSetDynamic => "variables_set_dynamic"
  | text => "text"
  | textMultiline => "text_multiline"
  | textJoin => "text_join"
  | textAppend => "text_append"
  | textLength => "text_length"
  | textIsEmpty => "text_isEmpty"
  | textIndexOf => "text_indexOf"
  | textCharAt => "text_charAt"
  | textGetSubstring => "text_getSubstring"
  | textChangeCase => "text_changeCase"
  | textTrim => "text_trim"
  | textPrint => "text_print"
  | textPromptExt => "text_prompt_ext"
  | textPrompt => "text_prompt"
  | textCount => "text_count"
  | textReplace => "text_replace"
  | textReverse => "text_reverse"
  | colourPicker => "colour_picker"
  | colourRandom => "colour_random"
  | colourRgb => "colour_rgb"
  | colourBlend => "colour_blend"

/-- The kind with a name, matched exactly. -/
def ofName? (s : String) : Option BlockKind := all.find? (·.name == s)

/-- Whether a kind produces an expression. -/
def isValue : BlockKind → Bool
  | logicCompare | logicOperation | logicNegate | logicBoolean | logicNull | logicTernary | callReturn | variablesGet | variablesGetDynamic | text | textMultiline | textJoin | textLength | textIsEmpty | textIndexOf | textCharAt | textGetSubstring | textChangeCase | textTrim | textPromptExt | textPrompt | textCount | textReplace | textReverse | colourPicker | colourRandom | colourRgb | colourBlend => true
  | _ => false

/-- Whether a kind is a loop. -/
def isLoop : BlockKind → Bool
  | repeatExt | repeatTimes | whileUntil | forRange | forEach => true
  | _ => false

/-- Whether a kind places the statement prefix and suffix itself. -/
def placesOwnSnippets : BlockKind → Bool
  | controlsIf | controlsIfElse | flowStatement | defineReturn | defineNoReturn => true
  | _ => false

theorem ofName?_name (k : BlockKind) : ofName? k.name = some k := by
  cases k <;> rfl

end BlockKind

end BlockScribe
