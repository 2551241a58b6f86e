import BlockScribe.Number.Binary64
/-!
# Shortest decimals

A positive finite binary64 value `m · 2^e` stands for every real number that rounds to it:
the interval from halfway to its lower neighbour to halfway to its upper neighbour, the ends
included exactly when `m` is even (a tie rounds to the even significand).  The lower
neighbour is only half as far when `m` is the least 53-bit significand above the least
exponent.

`shortestDecimal` finds the decimal with the fewest significant digits in that interval: for
1, 2, … 17 digits it looks at the two neighbours of the value on the grid `10^(k - n)` (where
`10^(k-1) ≤ value < 10^k`); the first grid with a neighbour inside wins, of two the nearer,
and an exact tie goes as the `TieRule` says.  If some point of a grid lies in the interval,
so does one of the two neighbours, so no shorter decimal reads back.

Source: `cumin-compiler/src/literal.rs`: the shortest digits of `format_number`.
-/

namespace BlockScribe

/-- How a choice between two equally near decimals goes. -/
inductive TieRule where
  /-- To the larger one. -/
  | up
  /-- To the one whose last digit is even. -/
  | even
  deriving DecidableEq, Repr

/-- A decimal `digits · 10^exponent`. -/
structure Decimal where
  digits : Nat
  exponent : Int
  deriving DecidableEq, Repr

namespace Decimal

/-- The same decimal without trailing zeros in its digits. -/
def trim (d : Decimal) : Decimal :=
  if h : d.digits ≠ 0 ∧ d.digits % 10 = 0 then
    trim ⟨d.digits / 10, d.exponent + 1⟩
  else d
termination_by d.digits
decreasing_by omega

end Decimal

/-- The number of decimal digits of a natural number (one for zero). -/
def digitCount (n : Nat) : Nat := (Nat.toDigits 10 n).length

/-- Compares `c · 10^t` with `u · 2^E` by cross-multiplying into natural numbers. -/
def compareScaled (c : Nat) (t : Int) (u : Nat) (E : Int) : Ordering :=
  compare (c * Nat.pow 10 t.toNat * Nat.pow 2 (-E).toNat) (u * Nat.pow 10 (-t).toNat * Nat.pow 2 E.toNat)

/-- The greatest `j ≤ fuel` with `v · 10^j < 2^s`, for `v < 2^s`. -/
def leadingZeros (v s : Nat) : Nat → Nat
  | 0 => 0
  | fuel + 1 => if v * Nat.pow 10 (fuel + 1) < Nat.pow 2 s then fuel + 1 else leadingZeros v s fuel

/-- The least `k` with `v · 2^E < 10^k`, for positive `v`. -/
def decimalExponent (v : Nat) (E : Int) : Int :=
  if E ≥ 0 then digitCount (v * Nat.pow 2 E.toNat)
  else
    let q := v / Nat.pow 2 (-E).toNat
    if q ≥ 1 then digitCount q
    else -(leadingZeros v (-E).toNat (-E).toNat : Int)

/-- The shortest decimal inside the rounding interval of the positive value `m · 2^e`. -/
def shortestDecimal (tie : TieRule) (m : Nat) (e : Int) : Decimal :=
  let narrow := m == Nat.pow 2 52 && e > -1074
  let E := e - 2
  let v := 4 * m
  let lo := if narrow then 4 * m - 1 else 4 * m - 2
  let hi := 4 * m + 2
  let inclusive := m % 2 == 0
  let inside (c : Nat) (t : Int) : Bool :=
    let above := compareScaled c t lo E
    let below := compareScaled c t hi E
    (above == .gt || (inclusive && above == .eq)) && (below == .lt || (inclusive && below == .eq))
  let k := decimalExponent v E
  let attempt (n : Nat) : Option Decimal :=
    let t := k - n
    let c := (v * Nat.pow 2 E.toNat * Nat.pow 10 (-t).toNat) / (Nat.pow 10 t.toNat * Nat.pow 2 (-E).toNat)
    match inside c t, inside (c + 1) t with
    | false, false => none
    | true, false => some ⟨c, t⟩
    | false, true => some ⟨c + 1, t⟩
    | true, true =>
      -- twice the value against the sum of the two neighbours
      match compareScaled (2 * c + 1) t (2 * v) E with
      | .gt => some ⟨c, t⟩
      | .lt => some ⟨c + 1, t⟩
      | .eq =>
        match tie with
        | .up => some ⟨c + 1, t⟩
        | .even => some (if c % 2 == 0 then ⟨c, t⟩ else ⟨c + 1, t⟩)
  let found := (List.range 17).findSome? (fun i => attempt (i + 1))
  (found.getD ⟨(v * Nat.pow 2 E.toNat * Nat.pow 10 (17 - k).toNat) / (Nat.pow 10 (k - 17).toNat * Nat.pow 2 (-E).toNat),
    k - 17⟩).trim

example : shortestDecimal .even 0x1999999999999a (-56) = ⟨1, -1⟩ := by decide +kernel
example : shortestDecimal .even 1 (-1074) = ⟨5, -324⟩ := by decide +kernel

end BlockScribe
