import BlockScribe.Text.Literal
/-!
# Identifiers

`safeName` turns any text into an identifier of ASCII letters, digits and underscores: letters,
digits and underscores stay, a space and the URI marks `; , / ? : @ & = + $ - . ! ~ * ' ( ) #`
become an underscore, and every other character becomes `_XX` for each byte of its UTF-8
form (two uppercase hexadecimal digits).  The empty text is `unnamed`, and a result that would
start with a digit gets the prefix `my_`.

`pascalCase` cuts a text at underscores, hyphens and points and writes each nonempty word with
an uppercase first letter and lowercase others (ASCII case only).

Source: `cumin-compiler/src/names.rs` (`safe_name`) and `cumin-core/src/utils.rs`
(`to_pascal_case`).
-/

namespace BlockScribe
namespace Text

/-- The uppercase hexadecimal digit of `n < 16`. -/
def hexDigit (n : Nat) : Char := Char.ofNat (if n < 10 then 48 + n else 55 + n)

/-- A byte written as an underscore and two uppercase hexadecimal digits. -/
def byteEscape (b : UInt8) : List Char := ['_', hexDigit (b.toNat / 16), hexDigit (b.toNat % 16)]

/-- The marks that URIs allow unescaped, which an identifier writes as an underscore. -/
def isUriMark (c : Char) : Bool := ";,/?:@&=+$-.!~*'()#".toList.contains c

/-- How one character of a name is written in an identifier. -/
def safeChar (c : Char) : List Char :=
  if isWordChar c then [c]
  else if c == ' ' || isUriMark c then ['_']
  else (String.utf8EncodeChar c).flatMap byteEscape

/-- The identifier made from a name. -/
def safeName (s : String) : String :=
  if s.isEmpty then "unnamed"
  else
    let out := s.toList.flatMap safeChar
    match out with
    | c :: _ => if c.isDigit then String.ofList ('m' :: 'y' :: '_' :: out) else String.ofList out
    | [] => ""

/-- A character that separates the words of a compound name. -/
def isWordBreak (c : Char) : Bool := c == '_' || c == '-' || c == '.'

/-- The nonempty words of a list of characters, cut at word breaks. -/
def words : List Char → List Char → List (List Char)
  | acc, [] => if acc.isEmpty then [] else [acc.reverse]
  | acc, c :: rest =>
    if isWordBreak c then (if acc.isEmpty then words [] rest else acc.reverse :: words [] rest)
    else words (c :: acc) rest

/-- A word with an uppercase first letter and lowercase others. -/
def capitalize : List Char → List Char
  | [] => []
  | c :: rest => c.toUpper :: rest.map Char.toLower

/-- A compound name written in Pascal case. -/
def pascalCase (s : String) : String := String.ofList ((words [] s.toList).flatMap capitalize)

example : safeName "my var" = "my_var" ∧ safeName "2x" = "my_2x" ∧ safeName "é" = "_C3_A9" := by
  decide
example : pascalCase "from_start" = "FromStart" ∧ pascalCase "a..b-C" = "ABC" := by decide

end Text
end BlockScribe
