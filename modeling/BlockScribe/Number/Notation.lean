import BlockScribe.Number.Shortest
/-!
# Writing binary64 values as decimal text

A `Notation` records the decisions of one way of writing numbers: the range of decimal
exponents written positionally, whether an integral positional value keeps `.0`, whether a
positive exponent carries a plus, how a tie between two shortest decimals goes, and the
texts of NaN and the infinities.  `Notation.write` writes the shortest decimal that reads back
(`shortestDecimal`) in that notation.

Two notations are in use.  Numbers of the workspace format (`Notation.workspace`) are
positional from `1e-5` to below `1e16`, keep `.0` and write `1e+16`; numbers in generated code
(`Notation.script`) are always positional and never end in `.0`.

Source: `cumin-compiler/src/literal.rs` (`format_number`) and the number fields of
`cumin-core/src/json.rs`.
-/

namespace BlockScribe

/-- The decisions of one decimal notation for binary64 values. -/
structure Notation where
  /-- The least leading-digit exponent written positionally (`none`: no least). -/
  positionalMin : Option Int
  /-- The greatest leading-digit exponent written positionally (`none`: no greatest). -/
  positionalMax : Option Int
  /-- An integral value written positionally ends in `.0`. -/
  pointZero : Bool
  /-- A nonnegative exponent is written with a plus. -/
  plusExponent : Bool
  /-- How a tie between two shortest decimals goes. -/
  tie : TieRule
  /-- The text of NaN. -/
  nanText : String
  /-- The text of positive infinity (a minus precedes the negative one). -/
  infinityText : String

namespace Notation

/-- Workspace numbers: positional from `1e-5` to below `1e16`, `.0` kept, `e+`, ties even. -/
def workspace : Notation :=
  ⟨some (-5), some 15, true, true, .even, "NaN", "inf"⟩

/-- Numbers in generated code: always positional, no `.0`, ties up. -/
def script : Notation :=
  ⟨none, none, false, false, .up, "NaN", "Infinity"⟩

/-- Whether a leading-digit exponent is written positionally. -/
def isPositional (n : Notation) (x : Int) : Bool :=
  (match n.positionalMin with | some lo => lo ≤ x | none => true) &&
    (match n.positionalMax with | some hi => x ≤ hi | none => true)

/-- `n` zeros. -/
def zeros (n : Nat) : List Char := List.replicate n '0'

/-- The text of the decimal `digits · 10^exponent` (no trailing zeros in `digits`). -/
def writeDecimal (n : Notation) (d : Decimal) : List Char :=
  let ds := Nat.toDigits 10 d.digits
  let x : Int := d.exponent + ds.length - 1
  if n.isPositional x then
    if d.exponent ≥ 0 then
      ds ++ zeros d.exponent.toNat ++ (if n.pointZero then ['.', '0'] else [])
    else if x ≥ 0 then
      let whole := (x + 1).toNat
      ds.take whole ++ '.' :: ds.drop whole
    else
      '0' :: '.' :: (zeros (-x - 1).toNat ++ ds)
  else
    let mantissa := match ds with
      | [c] => [c]
      | c :: rest => c :: '.' :: rest
      | [] => []
    let sign := if x < 0 then ['-'] else if n.plusExponent then ['+'] else []
    mantissa ++ 'e' :: (sign ++ Nat.toDigits 10 x.natAbs)

/-- The text of a binary64 value. -/
def write (n : Notation) : Binary64 → String
  | .nan => n.nanText
  | .infinity negative => (if negative then "-" else "") ++ n.infinityText
  | .finite negative m e =>
    let body :=
      if m = 0 then writeDecimal n ⟨0, 0⟩
      else writeDecimal n (shortestDecimal n.tie m e)
    String.ofList ((if negative then ['-'] else []) ++ body)

example : (workspace.write (.finite false 0x152d02c7e14af6 24)).toList = "1e+23".toList := by
  decide +kernel
example : (script.write (.finite false 0x1b1ae4d6e2ef50 17)).toList =
    "1000000000000000000000".toList := by
  decide +kernel
example : (workspace.write (.finite true 0 (-1074))).toList = "-0.0".toList := by decide +kernel

end Notation

end BlockScribe
