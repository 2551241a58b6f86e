import BlockScribe.Text.Unicode.Lowercase
import BlockScribe.Text.Unicode.Cased
/-!
# Lowercase

Names are compared without regard to case: two spellings are the same name when their
lowercase forms agree.  The lowercase form maps each character by the Unicode lowercase
mapping (`lowerCode`).  Capital I with dot above becomes two characters, and a capital sigma
becomes a final sigma when it ends a word: when, skipping case-ignorable characters, a cased
character stands before it and none follows it.

Source: `cumin-compiler/src/names.rs` (`get_or_create`) and `cumin-core/src/workspace.rs`
(`used_variables`): names compared without case.
-/

namespace BlockScribe
namespace Text

/-- Whether, skipping case-ignorable characters, the first character is cased. -/
def casedAfterIgnorable : List Char → Bool
  | [] => false
  | c :: rest => if isCaseIgnorable c then casedAfterIgnorable rest else isCased c

/-- The lowercase of one character, given whether a cased character stands before it and
whether one follows it, case-ignorable characters skipped (which decides the final sigma). -/
def lowerChar (before after : Bool) (c : Char) : List Char :=
  if c.toNat == 0x130 then ['i', Char.ofNat 0x307]
  else if c.toNat == 0x3A3 then
    [Char.ofNat (if before && !after then 0x3C2 else 0x3C3)]
  else match lowerCode c.toNat with
    | some m => [Char.ofNat m]
    | none => [c]

/-- The lowercase form of a list of characters, `before` telling whether, skipping
case-ignorable characters, the text before it ends in a cased character. -/
def lowerList (before : Bool) : List Char → List Char
  | [] => []
  | c :: rest =>
    lowerChar before (casedAfterIgnorable rest) c ++
      lowerList (if isCaseIgnorable c then before else isCased c) rest

/-- The lowercase form of a text. -/
def lower (s : String) : String := String.ofList (lowerList false s.toList)

example : lower "ÄbC" = "äbc" := by decide +kernel
example : lower "ΟΔΟΣ" = "οδος" := by decide +kernel

end Text
end BlockScribe
