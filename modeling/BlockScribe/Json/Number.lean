import BlockScribe.Json.Value
import BlockScribe.Number.Notation
/-!
# Numbers of the workspace format

A JSON number of the workspace format means a 64-bit integer when it is written without a
point or an exponent and fits (nonnegative up to `2^64 - 1`, negative down to `-2^63`), and a
finite binary64 value otherwise (`JsonNumber.read`).  Minus zero is a float.

The binary64 value is computed the way the format's readers compute it, which is not always
the nearest value to the decimal: the digits are gathered into a 64-bit significand until the
next digit would overflow it (further integer digits only raise the decimal exponent, further
fraction digits are dropped), the significand is rounded to binary64, and the result is
multiplied or divided by the binary64 value of `10^k`, in steps of `10^308` for larger `k`.
A product that overflows, or an exponent too large to read with a nonzero significand, makes
the number unreadable (`none`).

`JsonNumeric.text` writes a number back: integers in decimal, floats in `Notation.workspace`.

Source: `cumin-core/src/json.rs`: the numbers of `Workspace::from_json`, as its JSON reader computes
them.
-/

namespace BlockScribe

/-- A JSON number as the workspace format reads it. -/
inductive JsonNumeric where
  /-- A nonnegative integer below `2^64`. -/
  | natural (n : Nat)
  /-- The negative integer `-n`, for `0 < n ≤ 2^63`. -/
  | negative (n : Nat)
  /-- A finite binary64 value. -/
  | float (v : Binary64)
  deriving DecidableEq, Repr

namespace JsonNumeric

/-- The greatest 64-bit unsigned integer. -/
def wordMax : Nat := Nat.pow 2 64 - 1

/-- The greatest 32-bit signed integer, the bound of decimal exponents. -/
def exponentMax : Int := Int.pow 2 31 - 1

/-- The value of a decimal digit. -/
def digitValue (c : Char) : Nat := c.toNat - 48

/-- Integer digits gathered into a significand: a digit that would overflow it, and every
digit after that one, raises the exponent instead. -/
def gatherWhole (digits : List Char) : Nat × Int × Bool :=
  digits.foldl (fun (sig, exp, full) c =>
    if full || sig * 10 + digitValue c > wordMax then (sig, exp + 1, true)
    else (sig * 10 + digitValue c, exp, false)) (0, 0, false)

/-- Fraction digits appended to a significand, each lowering the exponent, until one would
overflow it; the rest are dropped. -/
def gatherFraction (sig : Nat) (exp : Int) (digits : List Char) : Nat × Int :=
  let (sig, exp, _) := digits.foldl (fun (sig, exp, stopped) c =>
    if stopped || sig * 10 + digitValue c > wordMax then (sig, exp, true)
    else (sig * 10 + digitValue c, exp - 1, false)) (sig, exp, false)
  (sig, exp)

/-- `f · 10^exp` by steps of binary64 powers of ten; `none` if it overflows. -/
def scale (f : Binary64) (exp : Int) : Option Binary64 :=
  if exp.natAbs ≤ 308 then
    let pow := Binary64.ofNat (Nat.pow 10 exp.natAbs)
    if exp ≥ 0 then
      match f.mul pow with
      | .infinity _ => none
      | g => some g
    else some (f.div pow)
  else if f == Binary64.zero false then some f
  else if exp ≥ 0 then none
  else scale (f.div (Binary64.ofNat (Nat.pow 10 308))) (exp + 308)
termination_by exp.natAbs
decreasing_by omega

/-- The float of a significand and a decimal exponent, with the number's sign. -/
def ofParts (negative : Bool) (sig : Nat) (exp : Int) : Option JsonNumeric :=
  (scale (Binary64.ofNat sig) exp).map fun f => .float (if negative then f.neg else f)

/-- The value of the exponent digits, or `none` when it exceeds the exponent bound. -/
def exponentValue (digits : List Char) : Option Int :=
  let v := digits.foldl (fun n c => 10 * n + digitValue c) 0
  if (v : Int) > exponentMax then none else some v

/-- `a + b` kept within the 32-bit signed range. -/
def saturatingAdd (a b : Int) : Int := max (-exponentMax - 1) (min exponentMax (a + b))

end JsonNumeric

/-- What a JSON number means, or `none` if it is out of the binary64 range. -/
def JsonNumber.read (n : JsonNumber) : Option JsonNumeric :=
  let (sig, exp, _) := JsonNumeric.gatherWhole n.whole
  match n.fraction, n.exponent with
  | none, none =>
    if exp = 0 then
      if !n.negative then some (.natural sig)
      else if sig = 0 then some (.float (Binary64.zero true))
      else if sig ≤ Nat.pow 2 63 then some (.negative sig)
      else some (.float (Binary64.ofNat sig).neg)
    else JsonNumeric.ofParts n.negative sig exp
  | fraction, exponent =>
    let (sig, exp) := match fraction with
      | some ds => JsonNumeric.gatherFraction sig exp ds
      | none => (sig, exp)
    match exponent with
    | none => JsonNumeric.ofParts n.negative sig exp
    | some (negExp, ds) =>
      match JsonNumeric.exponentValue ds with
      | some e =>
        JsonNumeric.ofParts n.negative sig
          (JsonNumeric.saturatingAdd exp (if negExp then -e else e))
      | none =>
        if sig ≠ 0 && !negExp then none else some (.float (Binary64.zero n.negative))

/-- The text of a number read from the workspace format. -/
def JsonNumeric.text : JsonNumeric → String
  | .natural n => toString n
  | .negative n => "-" ++ toString n
  | .float v => Notation.workspace.write v

end BlockScribe
