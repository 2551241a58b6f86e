import BlockScribe.Number.Binary64
import Mathlib.Tactic.Ring
import Mathlib.Tactic.Positivity
import Mathlib.Algebra.Order.Ring.Abs
/-!
# Integers of fewer than 54 bits are exact

A binary64 value holds every integer whose magnitude is below `2^53` exactly: `Binary64.ofInt`
shifts the magnitude up to a 53-bit significand by `intShift` and lowers the exponent as much
(`Binary64.ofInt_eq`).  Two such integers whose sum is one too add without rounding
(`Binary64.add_ofInt`), and the integer part of each is the integer again
(`Binary64.truncate_ofInt`).

Rounding a ratio whose numerator and denominator are one integer and one power of two, each
scaled by the same power of two, is exact (`Binary64.ofRatio_scaled`): the scaling changes neither
the binary logarithm `log2Ratio` estimates nor the rounded quotient.
-/

namespace BlockScribe
namespace Binary64

/-- An exact quotient needs no rounding. -/
theorem roundHalfEven_of_dvd {num den : Nat} (hden : 0 < den) (h : den ∣ num) :
    roundHalfEven num den = num / den := by
  have hr : num % den = 0 := Nat.mod_eq_zero_of_dvd h
  unfold roundHalfEven
  simp [hr]
  omega

theorem log2_mul_pow {n : Nat} (hn : n ≠ 0) (J : Nat) : Nat.log2 (n * 2 ^ J) = Nat.log2 n + J := by
  have hnJ : n * 2 ^ J ≠ 0 := Nat.mul_ne_zero hn (by positivity)
  apply Nat.le_antisymm
  · rw [← Nat.lt_succ_iff, Nat.log2_lt hnJ, Nat.pow_succ, Nat.pow_add]
    have := Nat.lt_log2_self (n := n)
    rw [Nat.pow_succ] at this
    rw [Nat.mul_right_comm]
    exact Nat.mul_lt_mul_of_pos_right this (Nat.two_pow_pos J)
  · rw [Nat.le_log2 hnJ, Nat.pow_add]
    exact Nat.mul_le_mul_right _ (Nat.log2_self_le hn)

theorem log2_two_pow (J : Nat) : Nat.log2 (2 ^ J) = J := by
  have h := log2_mul_pow one_ne_zero J
  rw [Nat.one_mul] at h
  rw [h]
  have : Nat.log2 1 = 0 := by decide
  omega

/-- The binary logarithm of an integer over a power of two, both scaled alike, is the
integer's. -/
theorem log2Ratio_scaled {n : Nat} (hn : n ≠ 0) (J : Nat) :
    log2Ratio (n * Nat.pow 2 J) (Nat.pow 2 J) = Nat.log2 n := by
  unfold log2Ratio
  simp only [Nat.pow_eq, log2_mul_pow hn, log2_two_pow, Nat.cast_add, add_sub_cancel_right,
    Int.toNat_natCast, Int.toNat_neg_natCast]
  rw [if_pos]
  rw [Nat.pow_zero, Nat.mul_one, Nat.mul_comm (2 ^ J)]
  exact Nat.mul_le_mul_right _ (Nat.log2_self_le hn)

/-- An integer below `2^53`, over `1`, both scaled by `2^J`, rounds to itself: its magnitude
shifted up to 53 bits. -/
theorem ofRatio_scaled (s : Bool) {n : Nat} (hn : 0 < n) (h53 : n < 2 ^ 53) (J : Nat) :
    ofRatio s (n * Nat.pow 2 J) (Nat.pow 2 J) =
      finite s (n * 2 ^ (52 - n.log2)) ((n.log2 : Int) - 52) := by
  have hk : n.log2 < 53 := (Nat.log2_lt (by omega)).2 h53
  have hm : roundHalfEven (n * 2 ^ J * 2 ^ (52 - n.log2)) (2 ^ J) = n * 2 ^ (52 - n.log2) := by
    rw [roundHalfEven_of_dvd (Nat.two_pow_pos J) (Dvd.intro (n * 2 ^ (52 - n.log2)) (by ring)), Nat.mul_right_comm,
      Nat.mul_div_cancel _ (Nat.two_pow_pos J)]
  have hlt : n * 2 ^ (52 - n.log2) < 2 ^ 53 := by
    have := Nat.lt_log2_self (n := n)
    calc n * 2 ^ (52 - n.log2) < 2 ^ (n.log2 + 1) * 2 ^ (52 - n.log2) :=
          Nat.mul_lt_mul_of_pos_right this (Nat.two_pow_pos _)
      _ = 2 ^ 53 := by rw [← Nat.pow_add]; congr 1; omega
  unfold ofRatio
  rw [if_neg (by simp [Nat.pow_eq]; omega)]
  simp only [log2Ratio_scaled (Nat.pos_iff_ne_zero.1 hn) J]
  have he : max ((n.log2 : Int) - 52) (-1074) = (n.log2 : Int) - 52 := by omega
  have hneg : (-((n.log2 : Int) - 52)).toNat = 52 - n.log2 := by omega
  have hpos : ((n.log2 : Int) - 52).toNat = 0 := by omega
  simp only [he, hneg, hpos, Nat.pow_eq, Nat.pow_zero, Nat.mul_one, hm, if_neg (Nat.ne_of_lt hlt)]
  rw [if_neg (by omega)]

/-- How far the magnitude of an integer of fewer than 54 bits is shifted up in its representation:
to 53 bits, or to the least exponent for zero. -/
def intShift (a : Int) : Nat := if a = 0 then 1074 else 52 - a.natAbs.log2

/-- The representation of an integer below `2^53`. -/
theorem ofInt_eq {a : Int} (h : a.natAbs < 2 ^ 53) :
    ofInt a = finite (decide (a < 0)) (a.natAbs * 2 ^ intShift a) (-(intShift a : Int)) := by
  unfold ofInt
  by_cases ha : a = 0
  · subst ha
    rw [Int.natAbs_zero, Nat.zero_mul]
    rfl
  · have hk : a.natAbs.log2 < 53 := (Nat.log2_lt (by omega)).2 h
    have hr := ofRatio_scaled (decide (a < 0)) (n := a.natAbs) (by omega) h 0
    rw [Nat.pow_eq, pow_zero, Nat.mul_one] at hr
    rw [hr, intShift, if_neg ha]
    congr 1
    omega

theorem signedScaled_natAbs (a : Int) (k : Nat) :
    signedScaled (decide (a < 0)) (a.natAbs * 2 ^ k) = a * 2 ^ k := by
  unfold signedScaled
  push_cast
  by_cases ha : a < 0
  · rw [if_pos (decide_eq_true ha), abs_of_neg ha]
    ring
  · rw [if_neg (by simpa using ha), abs_of_nonneg (by omega)]

/-- The sum of two integers below `2^53` before it is rounded: zero, or the sum over a power of
two, both scaled by it. -/
theorem add_ofInt_eq {a b : Int} (ha : a.natAbs < 2 ^ 53) (hb : b.natAbs < 2 ^ 53) :
    ∃ M : Nat, (ofInt a).add (ofInt b) =
      if a + b = 0 then ofInt 0
      else ofRatio (decide (a + b < 0)) ((a + b).natAbs * Nat.pow 2 M) (Nat.pow 2 M) := by
  rw [ofInt_eq ha, ofInt_eq hb]
  -- both addends are scaled up to the larger of their shifts, `M`
  obtain ⟨M, haM, hbM, hmin⟩ : ∃ M, intShift a ≤ M ∧ intShift b ≤ M ∧
      min (-(intShift a : Int)) (-(intShift b : Int)) = -(M : Int) :=
    ⟨max (intShift a) (intShift b), le_max_left _ _, le_max_right _ _, by omega⟩
  have hscale : ∀ c : Int, intShift c ≤ M →
      signedScaled (decide (c < 0)) (c.natAbs * 2 ^ intShift c) *
        Int.pow 2 ((-(intShift c : Int)) - (-(M : Int))).toNat = c * 2 ^ M := by
    intro c hc
    have hexp : (-(intShift c : Int) - -(M : Int)).toNat = M - intShift c := by omega
    rw [signedScaled_natAbs, hexp, Int.pow_eq, mul_assoc, ← pow_add, Nat.add_sub_cancel' hc]
  refine ⟨M, ?_⟩
  simp only [add, hmin]
  rw [hscale a haM, hscale b hbM, ← add_mul]
  by_cases h0 : a + b = 0
  · -- an exact zero sum is the positive zero, since the two cannot both be negative
    rw [if_pos (by rw [h0, zero_mul]), if_pos h0]
    have hsign : (decide (a < 0) && decide (b < 0)) = false := by
      rw [Bool.and_eq_false_iff]
      by_cases ha0 : a < 0
      · exact .inr (decide_eq_false (by omega))
      · exact .inl (decide_eq_false ha0)
    rw [hsign]
    rfl
  · rw [if_neg (mul_ne_zero h0 (by positivity)), if_neg h0]
    have hsign : decide ((a + b) * 2 ^ M < 0) = decide (a + b < 0) := by
      have : (0 : Int) < 2 ^ M := by positivity
      by_cases hn : a + b < 0
      · rw [decide_eq_true hn, decide_eq_true (mul_neg_of_neg_of_pos hn this)]
      · rw [decide_eq_false hn, decide_eq_false (not_lt.2 (mul_nonneg (by omega) this.le))]
    have hnum : ((a + b) * 2 ^ M).natAbs * Nat.pow 2 (-(M : Int)).toNat =
        (a + b).natAbs * Nat.pow 2 M := by
      have : (-(M : Int)).toNat = 0 := by omega
      simp [Int.natAbs_mul, Int.natAbs_pow, this]
    have hden : Nat.pow 2 (-(-(M : Int))).toNat = Nat.pow 2 M := by
      rw [neg_neg, Int.toNat_natCast]
    rw [hsign, ofScaled, scaleByTwo]
    dsimp only
    rw [hnum, hden]

/-- **Adding integers of fewer than 54 bits is exact.** -/
theorem add_ofInt {a b : Int} (ha : a.natAbs < 2 ^ 53) (hb : b.natAbs < 2 ^ 53)
    (hab : (a + b).natAbs < 2 ^ 53) : (ofInt a).add (ofInt b) = ofInt (a + b) := by
  obtain ⟨M, hM⟩ := add_ofInt_eq ha hb
  rw [hM]
  by_cases h0 : a + b = 0
  · rw [if_pos h0, h0]
  · have hk : (a + b).natAbs.log2 < 53 := (Nat.log2_lt (by omega)).2 hab
    rw [if_neg h0, ofRatio_scaled _ (by omega) hab, ofInt_eq hab, intShift, if_neg h0]
    congr 1
    omega

/-- `2^53`, over `1`, both scaled by `2^J`, rounds to itself: the least significand at
exponent `1`. -/
theorem ofRatio_scaled_top (s : Bool) (J : Nat) :
    ofRatio s (2 ^ 53 * Nat.pow 2 J) (Nat.pow 2 J) = finite s (2 ^ 52) 1 := by
  have hlog : Nat.log2 (2 ^ 53) = 53 := log2_two_pow 53
  have hm : roundHalfEven (2 ^ 53 * 2 ^ J * 2 ^ 0) (2 ^ J * 2 ^ 1) = 2 ^ 52 := by
    rw [roundHalfEven_of_dvd (by positivity) (Dvd.intro (2 ^ 52) (by ring))]
    rw [show 2 ^ 53 * 2 ^ J * 2 ^ 0 = (2 ^ J * 2 ^ 1) * 2 ^ 52 by ring,
      Nat.mul_div_cancel_left _ (by positivity)]
  unfold ofRatio
  rw [if_neg (by simp [Nat.pow_eq])]
  simp only [log2Ratio_scaled (n := 2 ^ 53) (by positivity) J, hlog]
  have he : max ((53 : Nat) - (52 : Int)) (-1074) = 1 := by omega
  simp only [he, Nat.pow_eq, Int.toNat_one, show (-(1 : Int)).toNat = 0 by rfl, hm]
  rw [if_neg (by decide), if_neg (by decide)]

/-- An integer of fewer than 54 bits is the integer part of its value. -/
theorem truncate_ofInt {a : Int} (h : a.natAbs < 2 ^ 53) : (ofInt a).truncate = a := by
  have hsigned := signedScaled_natAbs a 0
  rw [pow_zero, Nat.mul_one, pow_zero, mul_one] at hsigned
  rw [ofInt_eq h, truncate]
  by_cases hE : intShift a = 0
  · rw [if_pos (by omega)]
    simp only [hE, Nat.cast_zero, neg_zero, Int.toNat_zero, Nat.pow_eq, pow_zero, Nat.mul_one]
    exact hsigned
  · -- the magnitude was shifted up by `intShift a` and is shifted back exactly
    have hexp : (-(-(intShift a : Int))).toNat = intShift a := by omega
    rw [if_neg (by omega), hexp, Nat.pow_eq, Nat.mul_div_cancel _ (Nat.two_pow_pos _)]
    exact hsigned

/-- **The integer part of a sum of integers below `2^53` is their sum**, up to `2^53`. -/
theorem truncate_add_ofInt {a b : Int} (ha : a.natAbs < 2 ^ 53) (hb : b.natAbs < 2 ^ 53)
    (hab : (a + b).natAbs ≤ 2 ^ 53) : ((ofInt a).add (ofInt b)).truncate = a + b := by
  rcases Nat.lt_or_eq_of_le hab with hlt | htop
  · rw [add_ofInt ha hb hlt, truncate_ofInt hlt]
  · -- a sum of magnitude `2^53` is still a binary64 value
    obtain ⟨M, hM⟩ := add_ofInt_eq ha hb
    rw [hM, if_neg (by omega), htop, ofRatio_scaled_top, truncate]
    simp only [show ((1 : Int) ≥ 0) by decide, if_true, Int.toNat_one, Nat.pow_eq, signedScaled]
    by_cases hn : a + b < 0
    · rw [if_pos (decide_eq_true hn)]
      omega
    · rw [if_neg (by simpa using hn)]
      omega

/-- Negating a value negates its integer part. -/
theorem truncate_neg (x : Binary64) : x.neg.truncate = -x.truncate := by
  cases x with
  | finite negative m e =>
    simp only [neg, truncate, signedScaled]
    cases negative <;> simp
  | infinity negative => rfl
  | nan => rfl

end Binary64
end BlockScribe
