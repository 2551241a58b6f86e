import BlockScribe.Text.Blank
import BlockScribe.Text.Lines
/-!
# Layout of generated code

The generated program is its definitions, each separated by a blank line, then two blank lines,
then the code of the roots.  `tidy` then normalises the text: blanks before the first line are
dropped up to the last line break among them (`dropLeadingLines`); blanks after the last
character collapse to one line break if they hold one (`closeTrailing`); and spaces and tabs
at the end of every line but the last are removed (`trimLineEnds`).

Source: `cumin-compiler/src/generator/mod.rs`: `finish`, `strip_leading`, `collapse_trailing` and
`strip_trailing_spaces`.
-/

namespace BlockScribe
namespace Layout

/-- Drops the leading blanks up to and including the last line break among them. -/
def dropLeadingLines (cs : List Char) : List Char :=
  let lead := cs.takeWhile Text.isBlank
  if lead.contains '\n' then
    let kept := (lead.reverse.takeWhile (· != '\n')).reverse
    kept ++ cs.drop lead.length
  else cs

/-- Ends the text with one line break if its trailing blanks hold one. -/
def closeTrailing (cs : List Char) : List Char :=
  let body := Text.dropTrailingBlanks cs
  let trail := cs.drop body.length
  if trail.contains '\n' then body ++ trail.takeWhile (· != '\n') ++ ['\n'] else cs

/-- A line without trailing spaces and tabs. -/
def trimLineEnd (line : List Char) : List Char :=
  (line.reverse.dropWhile (fun c => c == ' ' || c == '\t')).reverse

/-- Every line but the last without trailing spaces and tabs. -/
def trimLineEnds (cs : List Char) : List Char :=
  let ls := Text.lines cs
  Text.unlines ((ls.dropLast.map trimLineEnd) ++ ls.getLast?.toList)

/-- The normalised program text. -/
def tidy (s : String) : String :=
  String.ofList (trimLineEnds (closeTrailing (dropLeadingLines s.toList)))

/-- The program of definitions and root code, normalised. -/
def assemble (definitions : List String) (body : String) : String :=
  tidy ("\n\n".intercalate definitions ++ "\n\n\n" ++ body)

example : assemble [] "a;\n" = "a;\n" := by decide +kernel
example : assemble ["var x;"] "x = 0;  \n\n" = "var x;\n\n\nx = 0;\n" := by decide +kernel

end Layout
end BlockScribe
