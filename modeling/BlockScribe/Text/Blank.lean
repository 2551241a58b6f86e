/-!
# Blank characters

The blanks of this library are the characters with the Unicode property `White_Space`:
the ASCII controls from tab to carriage return, space, next line, no-break space, the ogham
space mark, the spaces from en quad to hair space, the line and paragraph separators, the
narrow no-break space, the medium mathematical space and the ideographic space (25 in all).
Trimming removes them at either end of a text; `isBlank_of_isWhitespace` says that every
character that core calls whitespace is among them.

Source: `cumin-compiler/src/literal.rs`: the blanks that `is_number` and `parse_number` trim.
-/

namespace BlockScribe
namespace Text

/-- A character with the Unicode property `White_Space`. -/
def isBlank (c : Char) : Bool :=
  let n := c.toNat
  (0x09 ≤ n && n ≤ 0x0D) || n == 0x20 || n == 0x85 || n == 0xA0 || n == 0x1680 ||
    (0x2000 ≤ n && n ≤ 0x200A) || n == 0x2028 || n == 0x2029 || n == 0x202F ||
    n == 0x205F || n == 0x3000

theorem isBlank_of_isWhitespace {c : Char} (h : c.isWhitespace = true) : isBlank c = true := by
  simp only [Char.isWhitespace, Bool.or_eq_true, decide_eq_true_eq] at h
  rcases h with ((h | h) | h) | h <;> subst h <;> decide

/-- The characters of a list after its leading blanks. -/
def dropBlanks (cs : List Char) : List Char := cs.dropWhile isBlank

/-- The characters of a list without its trailing blanks. -/
def dropTrailingBlanks (cs : List Char) : List Char := (cs.reverse.dropWhile isBlank).reverse

/-- A text without its leading blanks. -/
def trimStart (s : String) : String := String.ofList (dropBlanks s.toList)

/-- A text without its trailing blanks. -/
def trimEnd (s : String) : String := String.ofList (dropTrailingBlanks s.toList)

/-- A text without blanks at either end. -/
def trim (s : String) : String := String.ofList (dropTrailingBlanks (dropBlanks s.toList))

example : trim " 12　" = "12" := by decide
example : trim " \t\n" = "" := by decide

end Text
end BlockScribe
