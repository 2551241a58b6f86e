import BlockScribe.Generate.Rule
import BlockScribe.Text.Identifier
/-!
# Rules for texts

Text constants are quoted literals; a constant of several lines is bracketed.  Joining texts
coerces each part to a text unless it is already a string literal (`forceString`): one part is
coerced, two are added, more are joined as an array.  Positions in a text go through
`adjustedIndex`, so that they follow the workspace's index convention.  A part of a text is
taken inline with `slice` when the text is a quoted word or no length is needed, and otherwise
through a helper named after its two ends, so that the text is computed once.  Title case,
random letters, counting and replacing call helpers, registered once each.

Source: `cumin-compiler/src/rules/text.rs`: `literal`, `multiline`, `join`, `append`, `length`,
`is_empty`, `index_of`, `char_at`, `helper_index`, `substring`, `change_case`, `trim`, `print`,
`prompt`, `count`, `replace` and `reverse`.
-/

namespace BlockScribe
namespace Rules

/-- The helper that picks a random letter. -/
def randomLetterLines : List String :=
  ["function %FN%(text) \x7b",
    "  var x = Math.floor(Math.random() * text.length);",
    "  return text[x];",
    "\x7d"]

/-- The helper that writes a text in title case. -/
def titleCaseLines : List String :=
  ["function %FN%(str) \x7b",
    "  return str.replace(/\\S+/g,",
    "      function(txt) \x7breturn txt[0].toUpperCase() + txt.substring(1).toLowerCase();\x7d);",
    "\x7d"]

/-- The helper that counts the occurrences of a text. -/
def countLines : List String :=
  ["function %FN%(haystack, needle) \x7b",
    "  if (needle.length === 0) \x7b",
    "    return haystack.length + 1;",
    "  \x7d else \x7b",
    "    return haystack.split(needle).length - 1;",
    "  \x7d",
    "\x7d"]

/-- The helper that replaces every occurrence of a text. -/
def replaceLines : List String :=
  ["function %FN%(haystack, needle, replacement) \x7b",
    "  needle = needle.replace(/([-()\\[\\]\x7b\x7d+?*.$\\^|,:#<!\\\\])/g,\"\\\\$1\")",
    "                 .replace(/\\x08/g,\"\\\\x08\");",
    "  return haystack.replace(new RegExp(needle, 'g'), replacement);",
    "\x7d"]

/-- A text constant. -/
def text : Rule := fun _ b => pure (.value (Text.quote (textField b "TEXT")) .atomic)

/-- A text constant of several lines. -/
def textMultiline : Rule := fun _ b =>
  let code := Text.multilineQuote (textField b "TEXT")
  pure (.value (if code.contains '\n' then "(" ++ code ++ ")" else code) .atomic)

/-- The concatenation of texts. -/
def textJoin : Rule := fun ch b => do
  match connectedArity b (b.extra.itemCount.getD 2) ["ADD"] with
  | 0 => pure (.value "''" .atomic)
  | 1 =>
    let element ← ch.valueOr "ADD0" .unbound "''"
    pure (.value (forceString element) .call)
  | 2 =>
    let first ← ch.valueOr "ADD0" .unbound "''"
    let second ← ch.valueOr "ADD1" .unbound "''"
    pure (.value (forceString first ++ " + " ++ forceString second) .addition)
  | count =>
    let elements ← (List.range count).mapM fun i => ch.valueOr ("ADD" ++ toString i) .comma "''"
    pure (.value ("[" ++ ",".intercalate elements ++ "].join('')") .call)

/-- Appending to a text variable. -/
def textAppend : Rule := fun ch b => do
  let var ← GenM.variableName (textField b "VAR")
  let v ← ch.valueOr "TEXT" .unbound "''"
  pure (.statement (var ++ " += " ++ forceString v ++ ";\n"))

/-- The length of a text. -/
def textLength : Rule := fun ch _ => do
  let t ← ch.valueOr "VALUE" .call "''"
  pure (.value (t ++ ".length") .member)

/-- Whether a text is empty. -/
def textIsEmpty : Rule := fun ch _ => do
  let t ← ch.valueOr "VALUE" .member "''"
  pure (.value ("!" ++ t ++ ".length") .logicalNot)

/-- The position of one text in another. -/
def textIndexOf : Rule := fun ch b => do
  let first ← choose b "END" [("FIRST", true), ("LAST", false)]
  let method := if first then "indexOf" else "lastIndexOf"
  let needle ← ch.valueOr "FIND" .unbound "''"
  let t ← ch.valueOr "VALUE" .member "''"
  let code := t ++ "." ++ method ++ "(" ++ needle ++ ")"
  if (← read).oneBased then pure (.value (code ++ " + 1") .addition)
  else pure (.value code .call)

/-- Where a letter is taken from. -/
inductive LetterAt where
  | fromStart | fromEnd | first | last | random
  deriving Inhabited, DecidableEq

/-- The options of a letter position. -/
def LetterAt.options : List (String × LetterAt) :=
  [("FROM_START", .fromStart), ("FROM_END", .fromEnd), ("FIRST", .first), ("LAST", .last),
    ("RANDOM", .random)]

/-- A letter of a text. -/
def textCharAt : Rule := fun ch b => do
  let where_ ← choose b "WHERE" LetterAt.options
  let t ← ch.valueOr "VALUE" (if where_ == .random then .unbound else .member) "''"
  let code ← (match where_ with
    | .first => pure (t ++ ".charAt(0)")
    | .last => pure (t ++ ".slice(-1)")
    | .fromStart => do
      let i ← adjustedIndex ch "AT" 0 false .unbound
      pure (t ++ ".charAt(" ++ i ++ ")")
    | .fromEnd => do
      let i ← adjustedIndex ch "AT" 1 true .unbound
      pure (t ++ ".slice(" ++ i ++ ").charAt(0)")
    | .random => do
      let helper ← GenM.provide "textRandomLetter" randomLetterLines
      pure (helper ++ "(" ++ t ++ ")"))
  pure (.value code .call)

/-- Where a part of a text starts. -/
inductive PartStart where
  | fromStart | fromEnd | first
  deriving Inhabited, DecidableEq

/-- Where a part of a text ends. -/
inductive PartEnd where
  | fromStart | fromEnd | last
  deriving Inhabited, DecidableEq

/-- The options of a start, with their field texts. -/
def PartStart.options : List (String × PartStart) :=
  [("FROM_START", .fromStart), ("FROM_END", .fromEnd), ("FIRST", .first)]

/-- The options of an end, with their field texts. -/
def PartEnd.options : List (String × PartEnd) :=
  [("FROM_START", .fromStart), ("FROM_END", .fromEnd), ("LAST", .last)]

/-- The field text of a start. -/
def PartStart.name : PartStart → String
  | .fromStart => "FROM_START"
  | .fromEnd => "FROM_END"
  | .first => "FIRST"

/-- The field text of an end. -/
def PartEnd.name : PartEnd → String
  | .fromStart => "FROM_START"
  | .fromEnd => "FROM_END"
  | .last => "LAST"

/-- The lines of the helper that takes a part of a sequence between two ends. -/
def subsequenceLines (start : PartStart) (stop : PartEnd) : List String :=
  let params := "sequence" ++ (if start != .first then ", at1" else "") ++
    (if stop != .last then ", at2" else "")
  let startIndex := match start with
    | .first => "0"
    | .fromEnd => "sequence.length - 1 - at1"
    | .fromStart => "at1"
  let endIndex := match stop with
    | .last => "sequence.length - 1"
    | .fromEnd => "sequence.length - 1 - at2"
    | .fromStart => "at2"
  ["function %FN%(" ++ params ++ ") \x7b",
    "  var start = " ++ startIndex ++ ";",
    "  var end = " ++ endIndex ++ " + 1;",
    "  return sequence.slice(start, end);",
    "\x7d"]

/-- A part of a text. -/
def textGetSubstring : Rule := fun ch b => do
  let t ← ch.valueOr "STRING" .call "''"
  let start ← choose b "WHERE1" PartStart.options
  let stop ← choose b "WHERE2" PartEnd.options
  if start == .first && stop == .last then return .value t .call
  let needsLength := start == .fromEnd || stop == .fromEnd || stop == .last
  if Text.isQuotedWord t || !needsLength then
    let at1 ← (match start with
      | .fromStart => adjustedIndex ch "AT1" 0 false .unbound
      | .fromEnd => do
        let i ← adjustedIndex ch "AT1" 1 false .subtraction
        pure (t ++ ".length - " ++ i)
      | .first => pure "0")
    let at2 ← (match stop with
      | .fromStart => adjustedIndex ch "AT2" 1 false .unbound
      | .fromEnd => do
        let i ← adjustedIndex ch "AT2" 0 false .subtraction
        pure (t ++ ".length - " ++ i)
      | .last => pure (t ++ ".length"))
    return .value (t ++ ".slice(" ++ at1 ++ ", " ++ at2 ++ ")") .call
  let at1 ← (if start != .first then some <$> adjustedIndex ch "AT1" 0 false .unbound
    else pure none)
  let at2 ← (if stop != .last then some <$> adjustedIndex ch "AT2" 0 false .unbound
    else pure none)
  let desired := "subsequence" ++ Text.pascalCase start.name ++ Text.pascalCase stop.name
  let helper ← GenM.provide desired (subsequenceLines start stop)
  let args := (at1.toList ++ at2.toList).map (", " ++ ·)
  pure (.value (helper ++ "(" ++ t ++ String.join args ++ ")") .call)

/-- A text in upper, lower or title case. -/
def textChangeCase : Rule := fun ch b => do
  let method ← choose b "CASE"
    [("UPPERCASE", some ".toUpperCase()"), ("LOWERCASE", some ".toLowerCase()"),
      ("TITLECASE", none)]
  let t ← ch.valueOr "TEXT" (if method.isSome then .member else .unbound) "''"
  match method with
  | some m => pure (.value (t ++ m) .call)
  | none =>
    let helper ← GenM.provide "textToTitleCase" titleCaseLines
    pure (.value (helper ++ "(" ++ t ++ ")") .call)

/-- A text without blanks at one or both ends. -/
def textTrim : Rule := fun ch b => do
  let method ← choose b "MODE"
    [("BOTH", ".trim()"), ("LEFT", ".replace(/^[\\s\\xa0]+/, '')"),
      ("RIGHT", ".replace(/[\\s\\xa0]+$/, '')")]
  let t ← ch.valueOr "TEXT" .member "''"
  pure (.value (t ++ method) .call)

/-- Showing a text. -/
def textPrint : Rule := fun ch _ => do
  let message ← ch.valueOr "TEXT" .unbound "''"
  pure (.statement ("window.alert(" ++ message ++ ");\n"))

/-- Asking the user for a text or a number. -/
def textPrompt : Rule := fun ch b => do
  let message ← (match b.field? "TEXT" with
    | some t => pure (Text.quote t)
    | none => ch.valueOr "TEXT" .unbound "''")
  let code := "window.prompt(" ++ message ++ ")"
  let asNumber ← choose b "TYPE" [("TEXT", false), ("NUMBER", true)]
  pure (.value (if asNumber then "Number(" ++ code ++ ")" else code) .call)

/-- The number of occurrences of a text. -/
def textCount : Rule := fun ch _ => do
  let t ← ch.valueOr "TEXT" .member "''"
  let needle ← ch.valueOr "SUB" .unbound "''"
  let helper ← GenM.provide "textCount" countLines
  pure (.value (helper ++ "(" ++ t ++ ", " ++ needle ++ ")") .subtraction)

/-- A text with every occurrence of one text replaced by another. -/
def textReplace : Rule := fun ch _ => do
  let t ← ch.valueOr "TEXT" .member "''"
  let source ← ch.valueOr "FROM" .unbound "''"
  let target ← ch.valueOr "TO" .unbound "''"
  let helper ← GenM.provide "textReplace" replaceLines
  pure (.value (helper ++ "(" ++ t ++ ", " ++ source ++ ", " ++ target ++ ")") .member)

/-- A text reversed. -/
def textReverse : Rule := fun ch _ => do
  let t ← ch.valueOr "TEXT" .member "''"
  pure (.value (t ++ ".split('').reverse().join('')") .member)

end Rules
end BlockScribe
