import BlockScribe.Number.Notation
import BlockScribe.Number.Numeral
import BlockScribe.Text.Blank
/-!
# Numbers in generated code

The generator reads a number out of code or a field with `parseNumber`: blanks around it are
dropped, an empty text is zero, and otherwise the text must consist of digits, signs, points
and exponent letters and be a numeral (`Numeral.read?`); its value is the nearest binary64.

It writes a number with `formatNumber`: NaN and the infinities by name, an integral value below
`10^15` in magnitude as an integer (so negative zero is `0`), and any other value as the
shortest decimal that reads back, positionally (`Notation.script`).

Source: `cumin-compiler/src/literal.rs`: `parse_number` and `format_number`.
-/

namespace BlockScribe

/-- A character that may appear in a number the generator reads. -/
def isNumeralChar (c : Char) : Bool :=
  c.isDigit || c == '-' || c == '+' || c == '.' || c == 'e' || c == 'E'

/-- The number written in a text, if it is one. -/
def parseNumber (s : String) : Option Binary64 :=
  let cs := Text.dropTrailingBlanks (Text.dropBlanks s.toList)
  if cs.isEmpty then some (Binary64.zero false)
  else if !cs.all isNumeralChar then none
  else (Numeral.read? cs).map Numeral.value

/-- The text of a number in generated code. -/
def formatNumber (v : Binary64) : String :=
  match v with
  | .nan => "NaN"
  | .infinity negative => if negative then "-Infinity" else "Infinity"
  | .finite .. =>
    if v.isIntegral && v.magnitudeBelowPow10 15 then toString v.truncate
    else Notation.script.write v

example : (parseNumber " +5 ").map formatNumber = some "5" := by decide +kernel
example : (parseNumber "0x10") = none := by decide +kernel
example : ((parseNumber "1e21").map formatNumber).map String.toList =
    some "1000000000000000000000".toList := by decide +kernel

end BlockScribe
