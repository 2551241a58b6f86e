import BlockScribe.Text.Blank
import BlockScribe.Text.Lines
/-!
# Literals of the script language

A string literal is written between single quotes; inside it a backslash, a newline and a
single quote are each preceded by a backslash (`escapeChar`), and every other character stands
for itself.  A text of several lines is written as one literal per line, joined by
`+ '\n' +` and a line break (`multilineQuote`).

Besides the writers, this module holds the tests that the generator applies to code it has
already written: whether it is a plain decimal number (`isNumber`), a word of letters, digits
and underscores (`isWord`), such a word in quotes (`isQuotedWord`), or a string literal whose
inner quotes are all escaped (`isStringLiteral`); and `prefixLines`, which puts a prefix before
every line of a text.

Source: `cumin-compiler/src/literal.rs`: `quote`, `multiline_quote`, `prefix_lines`, `is_number`,
`is_word`, `is_quoted_word` and `is_string_literal`.
-/

namespace BlockScribe
namespace Text

/-- How one character is written inside a quoted literal. -/
def escapeChar : Char → List Char
  | '\\' => ['\\', '\\']
  | '\n' => ['\\', '\n']
  | '\'' => ['\\', '\'']
  | c => [c]

/-- The characters of the literal that denotes `cs`. -/
def quoteList (cs : List Char) : List Char := '\'' :: (cs.flatMap escapeChar ++ ['\''])

/-- The string literal that denotes a text. -/
def quote (s : String) : String := String.ofList (quoteList s.toList)

/-- A text written as one literal per line, joined by an explicit newline and a line break. -/
def multilineQuote (s : String) : String :=
  String.ofList (" + '\\n' +\n".toList.intercalate ((lines s.toList).map quoteList))

/-- `pre` before every line of `cs`; a final newline ends the last line and opens none. -/
def prefixList (cs pre : List Char) : List Char :=
  if cs.isEmpty then []
  else
    let (body, trailer) :=
      if cs.getLast? = some '\n' then (cs.dropLast, ['\n']) else (cs, [])
    pre ++ ('\n' :: pre).intercalate (lines body) ++ trailer

/-- A prefix before every line of a text; the empty text stays empty. -/
def prefixLines (text pre : String) : String := String.ofList (prefixList text.toList pre.toList)

/-- A nonempty run of ASCII digits. -/
def isDigits (cs : List Char) : Bool := !cs.isEmpty && cs.all Char.isDigit

/-- Decimal numerals: an optional minus, digits, and optionally a point followed by digits,
with blanks around them allowed. -/
def isNumber (s : String) : Bool :=
  let cs := dropTrailingBlanks (dropBlanks s.toList)
  let unsigned := match cs with
    | '-' :: rest => rest
    | _ => cs
  match unsigned.dropWhile (· != '.') with
  | [] => isDigits unsigned
  | _ :: frac => isDigits (unsigned.takeWhile (· != '.')) && isDigits frac

/-- A letter, digit or underscore of ASCII. -/
def isWordChar (c : Char) : Bool := c.isAlphanum || c == '_'

/-- A nonempty run of ASCII letters, digits and underscores. -/
def isWord (s : String) : Bool := !s.isEmpty && s.toList.all isWordChar

/-- Removes one leading occurrence of `c`. -/
def dropFirst (c : Char) : List Char → List Char
  | d :: rest => if d = c then rest else d :: rest
  | [] => []

/-- Removes one trailing occurrence of `c`. -/
def dropLastIf (c : Char) (cs : List Char) : List Char :=
  if cs.getLast? = some c then cs.dropLast else cs

/-- A word, with or without a single quote before it and one after it. -/
def isQuotedWord (s : String) : Bool :=
  let inner := dropLastIf '\'' (dropFirst '\'' s.toList)
  !inner.isEmpty && inner.all isWordChar

/-- Every single quote of `cs` directly follows a backslash (`prev` is the character before). -/
def quotesEscaped (prev : Option Char) : List Char → Bool
  | [] => true
  | c :: rest => (c != '\'' || prev == some '\\') && quotesEscaped (some c) rest

/-- Code between single quotes, blanks around it allowed, whose inner single quotes all follow
a backslash. -/
def isStringLiteral (s : String) : Bool :=
  match dropTrailingBlanks (dropBlanks s.toList) with
  | '\'' :: rest => rest.getLast? = some '\'' && quotesEscaped none rest.dropLast
  | _ => false

example : quote "it's" = "'it\\'s'" := by decide
example : multilineQuote "a\nb" = "'a' + '\\n' +\n'b'" := by decide
example : prefixLines "a\nb\n" "// " = "// a\n// b\n" := by decide
example : isNumber " -12.5 " = true ∧ isNumber "1." = false ∧ isNumber "-" = false := by decide
example : isStringLiteral "'a\\'b'" = true ∧ isStringLiteral "'" = false := by decide

end Text
end BlockScribe
