/-!
# Binary64 numbers

The numbers of the script language and of the workspace format are IEEE 754 binary64 values.
A finite value is kept as a sign, a significand and a power of two (`Binary64.finite`), in the
one form that the format itself stores: a significand of 53 bits with an exponent from −1074
to 971, or a smaller significand at the least exponent −1074 (zero and the subnormals).

All arithmetic is exact rational arithmetic followed by one rounding to the nearest
representable value, a tie going to the even significand (`Binary64.ofRatio`); a magnitude
that rounds to `2^1024` or beyond is an infinity.  `roundHalfEven` is that rounding on
natural quotients, and `ofRatio` places the binary point so that the quotient has 53 bits.

Source: the number arithmetic of `cumin-compiler/src/literal.rs` (`parse_number`, `format_number`)
and of the index folding in `generator/compose.rs` (`adjusted_index`).
-/

namespace BlockScribe

/-- An IEEE 754 binary64 value. -/
inductive Binary64 where
  /-- `(-1)^negative · significand · 2^exponent`, with `2^52 ≤ significand < 2^53` and
  `-1074 ≤ exponent ≤ 971`, or `significand < 2^52` and `exponent = -1074`. -/
  | finite (negative : Bool) (significand : Nat) (exponent : Int)
  /-- An infinity of the given sign. -/
  | infinity (negative : Bool)
  /-- Not a number. -/
  | nan
  deriving DecidableEq, Repr, Inhabited

/-- The integer nearest `num / den`, a tie going to the even one. -/
def roundHalfEven (num den : Nat) : Nat :=
  let q := num / den
  let r := num % den
  if 2 * r > den || (2 * r == den && q % 2 == 1) then q + 1 else q

/-- `num · 2^k` for an integer `k`, as the pair `(numerator, denominator)`. -/
def scaleByTwo (num : Nat) (k : Int) : Nat × Nat :=
  (num * Nat.pow 2 k.toNat, Nat.pow 2 (-k).toNat)

/-- `⌊log₂ (num / den)⌋` for positive `num` and `den`. -/
def log2Ratio (num den : Nat) : Int :=
  let k : Int := (Nat.log2 num : Int) - (Nat.log2 den : Int)
  -- `num / den ≥ 2^k` exactly when `num · 2^(-k) ≥ den · 2^k`, read with natural powers
  if num * Nat.pow 2 (-k).toNat ≥ den * Nat.pow 2 k.toNat then k else k - 1

namespace Binary64

/-- Zero of the given sign. -/
def zero (negative : Bool) : Binary64 := .finite negative 0 (-1074)

/-- The binary64 value nearest `(-1)^negative · num / den`. -/
def ofRatio (negative : Bool) (num den : Nat) : Binary64 :=
  if num = 0 || den = 0 then zero negative
  else
    let e := max (log2Ratio num den - 52) (-1074)
    let m := roundHalfEven (num * Nat.pow 2 (-e).toNat) (den * Nat.pow 2 e.toNat)
    let (m, e) := if m = Nat.pow 2 53 then (Nat.pow 2 52, e + 1) else (m, e)
    if e > 971 then .infinity negative else .finite negative m e

/-- The binary64 value nearest `(-1)^negative · m · 2^e`. -/
def ofScaled (negative : Bool) (m : Nat) (e : Int) : Binary64 :=
  let (num, den) := scaleByTwo m e
  ofRatio negative num den

/-- The 64 bits that store a value: sign, biased exponent of 11 bits, 52 fraction bits; a
NaN is the quiet NaN `0x7FF8000000000000`. -/
def toBits : Binary64 → Nat
  | finite negative m e =>
    (if negative then Nat.pow 2 63 else 0) +
      (if m < Nat.pow 2 52 then m else (e + 1075).toNat * Nat.pow 2 52 + (m - Nat.pow 2 52))
  | infinity negative => (if negative then Nat.pow 2 63 else 0) + 0x7FF * Nat.pow 2 52
  | nan => 0x7FF8 * Nat.pow 2 48

/-- The value with the other sign. -/
def neg : Binary64 → Binary64
  | finite negative m e => finite (!negative) m e
  | infinity negative => infinity (!negative)
  | nan => nan

/-- The value without its sign. -/
def abs : Binary64 → Binary64
  | finite _ m e => finite false m e
  | infinity _ => infinity false
  | nan => nan

/-- Whether a value is negative, zero and NaN excluded. -/
def isNegative : Binary64 → Bool
  | finite negative m _ => negative && m != 0
  | infinity negative => negative
  | nan => false

/-- A significand with its sign, as an integer. -/
def signedScaled (negative : Bool) (m : Nat) : Int := if negative then -(m : Int) else m

/-- The rounded sum of two values; an infinity of each sign gives NaN, and an exact zero sum
is positive unless both addends are negative zeros. -/
def add : Binary64 → Binary64 → Binary64
  | nan, _ | _, nan => nan
  | infinity a, infinity b => if a == b then infinity a else nan
  | infinity a, finite .. | finite .., infinity a => infinity a
  | finite s₁ m₁ e₁, finite s₂ m₂ e₂ =>
    let e := min e₁ e₂
    let total := signedScaled s₁ m₁ * Int.pow 2 (e₁ - e).toNat + signedScaled s₂ m₂ * Int.pow 2 (e₂ - e).toNat
    if total = 0 then zero (s₁ && s₂)
    else ofScaled (total < 0) total.natAbs e

/-- The rounded product of two values. -/
def mul : Binary64 → Binary64 → Binary64
  | nan, _ | _, nan => nan
  | infinity a, infinity b => infinity (a != b)
  | infinity a, finite b m _ | finite b m _, infinity a => if m = 0 then nan else infinity (a != b)
  | finite s₁ m₁ e₁, finite s₂ m₂ e₂ => ofScaled (s₁ != s₂) (m₁ * m₂) (e₁ + e₂)

/-- The rounded quotient of two values. -/
def div : Binary64 → Binary64 → Binary64
  | nan, _ | _, nan => nan
  | infinity _, infinity _ => nan
  | infinity a, finite b _ _ => infinity (a != b)
  | finite a _ _, infinity b => zero (a != b)
  | finite s₁ m₁ e₁, finite s₂ m₂ e₂ =>
    if m₂ = 0 then (if m₁ = 0 then nan else infinity (s₁ != s₂))
    else
      let (n₁, d₁) := scaleByTwo m₁ e₁
      let (n₂, d₂) := scaleByTwo m₂ e₂
      ofRatio (s₁ != s₂) (n₁ * d₂) (d₁ * n₂)

/-- `x ≤ y` as the format orders values: zeros of both signs are equal and NaN is unordered. -/
def le : Binary64 → Binary64 → Bool
  | nan, _ | _, nan => false
  | infinity a, infinity b => a || !b
  | infinity a, finite .. => a
  | finite .., infinity b => !b
  | finite s₁ m₁ e₁, finite s₂ m₂ e₂ =>
    let e := min e₁ e₂
    signedScaled s₁ m₁ * Int.pow 2 (e₁ - e).toNat ≤ signedScaled s₂ m₂ * Int.pow 2 (e₂ - e).toNat

/-- The value of a natural number. -/
def ofNat (n : Nat) : Binary64 := ofRatio false n 1

/-- The value of an integer. -/
def ofInt (n : Int) : Binary64 := ofRatio (n < 0) n.natAbs 1

/-- Whether a value is finite with no fractional part. -/
def isIntegral : Binary64 → Bool
  | finite _ m e => e ≥ 0 || m % Nat.pow 2 (-e).toNat == 0
  | _ => false

/-- The integer part of a finite value, rounded toward zero. -/
def truncate : Binary64 → Int
  | finite negative m e =>
    let n := if e ≥ 0 then m * Nat.pow 2 e.toNat else m / Nat.pow 2 (-e).toNat
    signedScaled negative n
  | _ => 0

/-- Whether the magnitude of a value is below `10^k`. -/
def magnitudeBelowPow10 (k : Nat) : Binary64 → Bool
  | finite _ m e => m * Nat.pow 2 e.toNat < Nat.pow 10 k * Nat.pow 2 (-e).toNat
  | _ => false

example : toBits (ofNat 100000) = 0x40f86a0000000000 := by decide
example : toBits (ofRatio false 1 10) = 0x3fb999999999999a := by decide
example : toBits (zero true) = 0x8000000000000000 := by decide

end Binary64

end BlockScribe
