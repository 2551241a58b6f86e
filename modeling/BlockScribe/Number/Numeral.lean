import BlockScribe.Number.Binary64
import BlockScribe.Number.Shortest
/-!
# Decimal numerals

A numeral is an optional sign followed either by one of the words `inf`, `infinity` and `nan`
in any case, or by digits with an optional point (at least one digit on either side of it) and
an optional exponent (`e` or `E`, an optional sign, at least one digit).  `Numeral.read?` reads
the whole text or nothing, and `Numeral.value` is the binary64 value nearest the numeral.
Exponents of any size are read: a numeral of `10^309` or more is an infinity and one below
`10^-324` a zero, without computing the power.

Source: `cumin-compiler/src/literal.rs`: the numerals that `parse_number` reads.
-/

namespace BlockScribe

/-- A numeral read from text. -/
inductive Numeral where
  /-- `(-1)^negative · digits · 10^scale`. -/
  | decimal (negative : Bool) (digits : Nat) (scale : Int)
  /-- An infinity. -/
  | infinity (negative : Bool)
  /-- Not a number. -/
  | nan
  deriving DecidableEq, Repr

namespace Numeral

/-- The value of a run of decimal digits. -/
def digitsValue (ds : List Char) : Nat := ds.foldl (fun n c => 10 * n + (c.toNat - 48)) 0

/-- Splits off the leading digits. -/
def spanDigits (cs : List Char) : List Char × List Char := (cs.takeWhile Char.isDigit, cs.dropWhile Char.isDigit)

/-- Reads an exponent part: `e` or `E`, an optional sign and at least one digit, to the end. -/
def readExponent? : List Char → Option Int
  | [] => some 0
  | c :: rest =>
    if c == 'e' || c == 'E' then
      let (negative, body) := match rest with
        | '+' :: more => (false, more)
        | '-' :: more => (true, more)
        | _ => (false, rest)
      let (ds, tail) := spanDigits body
      if ds.isEmpty || !tail.isEmpty then none
      else
        let v : Int := digitsValue ds
        some (if negative then -v else v)
    else none

/-- Reads the unsigned part of a numeral. -/
def readUnsigned? (negative : Bool) (cs : List Char) : Option Numeral :=
  let word := String.ofList (cs.map Char.toLower)
  if word == "inf" || word == "infinity" then some (.infinity negative)
  else if word == "nan" then some .nan
  else
    let (whole, rest) := spanDigits cs
    let (frac, rest) := match rest with
      | '.' :: more => spanDigits more
      | _ => ([], rest)
    if whole.isEmpty && frac.isEmpty then none
    else
      (readExponent? rest).map fun exponent =>
        .decimal negative (digitsValue (whole ++ frac)) (exponent - frac.length)

/-- Reads a whole text as a numeral. -/
def read? (cs : List Char) : Option Numeral :=
  match cs with
  | '+' :: rest => readUnsigned? false rest
  | '-' :: rest => readUnsigned? true rest
  | _ => readUnsigned? false cs

/-- The binary64 value nearest a numeral. -/
def value : Numeral → Binary64
  | .nan => .nan
  | .infinity negative => .infinity negative
  | .decimal negative digits scale =>
    if digits = 0 then Binary64.zero negative
    else
      let lead := scale + digitCount digits - 1
      if lead > 308 then .infinity negative
      else if lead < -325 then Binary64.zero negative
      else Binary64.ofRatio negative (digits * Nat.pow 10 scale.toNat) (Nat.pow 10 (-scale).toNat)

end Numeral

example : (Numeral.read? "1.".toList).map Numeral.value = some (Binary64.ofNat 1) := by
  decide +kernel
example : (Numeral.read? "-.5e1".toList).map Numeral.value = some (Binary64.ofInt (-5)) := by
  decide +kernel
example : Numeral.read? ".".toList = none ∧ Numeral.read? "1e".toList = none := by decide +kernel
example : (Numeral.read? "1e400".toList).map Numeral.value = some (.infinity false) := by
  decide +kernel

end BlockScribe
