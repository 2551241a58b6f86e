import BlockScribe.Proofs.Generate.IndexConvention
/-!
# Shifted positions as operands

`adjustedIndex` writes a list position as index arithmetic over the code of a slot
(`IndexExpr.shifted`): a shift by a constant, a negation, and brackets around them when the
place the result goes to asks for an order that binds as loosely as the added operator or more
loosely.  This module says what that arithmetic stands for and where it stands as one operand.

Index arithmetic stands as one operand where an order is asked for (`IndexExpr.isOperand`) when
none of its operators needs brackets there (`needsParens`), each operand of an operator standing
where that operator asks, brackets opening a place that takes anything.  The slot's code is
asked for at the order of the operator that holds it (`IndexExpr.codePlace`), so the child
brackets it for that place itself.

The value is exact for a code that is no numeral; a numeral is folded with the shift in
binary64, exactly within the safe integers and not past them (`value_shifted_past_safe_integers`).

For a slot code that is not a numeral the arithmetic stands as one operand exactly when the
asked order binds no more tightly than the operator the shift puts outermost
(`adjustedIndex_operand_exactly`).  The rules ask only for `.unbound` and `.subtraction`, where
it always does (`isOperand_shifted_of_rule_order`); under a product it does not, and `i + 1` is
written without brackets (`shifted_index_under_product`).
-/

namespace BlockScribe

/-- The operator that a shift by `delta`, negated if asked, puts outermost around a slot's
code. -/
def addedOperator (delta : Int) (negate : Bool) : Option Order :=
  if negate then some .unaryNegation
  else if delta > 0 then some .addition
  else if delta < 0 then some .subtraction
  else none

/-- The operator that a shift by `delta`, negated if asked, puts directly around a slot's
code. -/
def holdingOperator (delta : Int) (negate : Bool) : Option Order :=
  if delta > 0 then some .addition
  else if delta < 0 then some .subtraction
  else if negate then some .unaryNegation
  else none

namespace Context

/-- The position counting starts from: one when positions count from one. -/
def indexBase (ctx : Context) : Int := if ctx.oneBased then 1 else 0

/-- The code an empty index slot stands for: the first position. -/
def firstPosition (ctx : Context) : String := if ctx.oneBased then "1" else "0"

end Context

theorem needsParens_unbound (inner : Order) : needsParens .unbound inner = false := by
  cases inner <;> rfl

/-- The only piece that chains into a tighter place is a call after a member access. -/
theorem Order.eq_call_of_chains {outer inner : Order} (h : Order.chains outer inner = true)
    (hlt : outer.tier < inner.tier) : inner = .call := by
  revert h hlt
  cases outer <;> cases inner <;> decide

/-- A piece of a looser tier than the place it stands in needs brackets there, but for a call
after a member access. -/
theorem needsParens_of_tier_lt {outer inner : Order} (h : outer.tier < inner.tier)
    (hcall : inner ≠ .call) : needsParens outer inner = true := by
  have hchains : Order.chains outer inner = false := by
    cases hc : Order.chains outer inner
    · rfl
    · exact absurd (Order.eq_call_of_chains hc h) hcall
  unfold needsParens
  rw [if_neg (by omega), if_neg (by simp; omega), hchains]
  rfl

namespace IndexExpr

/-- Whether index arithmetic stands as one operand where `outer` is asked for: no operator of it
needs brackets at its place, each operand of an operator standing where that operator asks and
brackets opening a place that takes anything.  A slot's code stands as it is (its child
brackets it for the place it is asked for), and so does a numeral, but for its sign. -/
def isOperand : Order → IndexExpr → Bool
  | _, code _ => true
  | outer, num x => !(formatNumber x).startsWith "-" || !needsParens outer .unaryNegation
  | outer, plus e _ => !needsParens outer .addition && e.isOperand .addition
  | outer, minus e _ => !needsParens outer .subtraction && e.isOperand .subtraction
  | outer, neg e => !needsParens outer .unaryNegation && e.isOperand .unaryNegation
  | _, paren e => e.isOperand .unbound

/-- The place a slot's code stands in, in index arithmetic put where `outer` is asked for: the
order of the operator that holds it; none for a numeral. -/
def codePlace : Order → IndexExpr → Option Order
  | outer, code _ => some outer
  | _, num _ => none
  | _, plus e _ => e.codePlace .addition
  | _, minus e _ => e.codePlace .subtraction
  | _, neg e => e.codePlace .unaryNegation
  | _, paren e => e.codePlace .unbound

/-- The arithmetic a shift by `delta`, negated if asked, builds around a slot's code, before
any outer brackets: the shift is bracketed under the negation. -/
def shiftedBody (pos : String) (delta : Int) (negate : Bool) : IndexExpr :=
  let e := if delta > 0 then plus (code pos) delta
    else if delta < 0 then minus (code pos) (-delta) else code pos
  if negate then neg (if delta ≠ 0 then paren e else e) else e

/-- Arithmetic under an outermost operator, bracketed where the place asks for an order of that
operator's tier or a looser one. -/
def bracketFor (o : Order) : Option Order → IndexExpr → IndexExpr
  | some i, e => if o.tier ≥ i.tier then paren e else e
  | none, e => e

/-- `shifted` on a code that is not a numeral: the body of the shift, bracketed for the place. -/
theorem shifted_of_numeral_none {pos : String} (hpos : numeral pos = none) (delta : Int)
    (negate : Bool) (o : Order) :
    shifted pos delta negate o =
      bracketFor o (addedOperator delta negate) (shiftedBody pos delta negate) := by
  unfold shifted shiftedBody addedOperator
  rw [hpos]
  rcases lt_trichotomy delta 0 with hd | rfl | hd
  · have hp : ¬delta > 0 := by omega
    cases negate <;> simp [hp, hd, bracketFor]
  · cases negate <;> simp [bracketFor]
  · cases negate <;> simp [hd, bracketFor]

/-- Arithmetic whose outermost operator is `i`, bracketed for a place asking for `o`, stands
as one operand there exactly when `o` binds no more tightly than `i`: in a tighter place the
brackets are left out although `i` needs them. -/
theorem isOperand_bracketFor {e : IndexExpr} {i : Order} (hcall : i ≠ .call)
    (htop : ∀ outer, e.isOperand outer = !needsParens outer i) (o : Order) :
    (bracketFor o (some i) e).isOperand o = decide (i.tier ≤ o.tier) := by
  rw [bracketFor]
  split_ifs with h
  · rw [isOperand, htop, needsParens_unbound]
    simp [h]
  · rw [htop, needsParens_of_tier_lt (by omega) hcall]
    simp
    omega

/-- The body of a shift that adds an operator stands where that operator does: its slot code
is held by the shift's own operator and its inner shift is bracketed. -/
theorem isOperand_shiftedBody {pos : String} {delta : Int} {negate : Bool} {i : Order}
    (hadd : addedOperator delta negate = some i) (outer : Order) :
    (shiftedBody pos delta negate).isOperand outer = !needsParens outer i := by
  unfold addedOperator at hadd
  unfold shiftedBody
  rcases lt_trichotomy delta 0 with hd | rfl | hd
  · have hp : ¬delta > 0 := by omega
    have hz : delta ≠ 0 := by omega
    cases negate <;> simp only [hp, hd, hz, if_true, if_false, Bool.false_eq_true, ne_eq,
      not_false_eq_true] at hadd ⊢ <;> cases hadd <;> simp [isOperand, needsParens_unbound]
  · cases negate <;> simp at hadd
    subst hadd
    simp [isOperand]
  · have hz : delta ≠ 0 := by omega
    cases negate <;> simp only [hd, hz, if_true, if_false, Bool.false_eq_true, ne_eq,
      not_false_eq_true] at hadd ⊢ <;> cases hadd <;> simp [isOperand, needsParens_unbound]

theorem addedOperator_ne_call {delta : Int} {negate : Bool} {i : Order}
    (hadd : addedOperator delta negate = some i) : i ≠ .call := by
  unfold addedOperator at hadd
  split_ifs at hadd <;> (cases hadd; decide)

theorem shiftedBody_of_addedOperator_none {pos : String} {delta : Int} {negate : Bool}
    (hadd : addedOperator delta negate = none) : shiftedBody pos delta negate = code pos := by
  unfold addedOperator at hadd
  unfold shiftedBody
  split_ifs at hadd with hn hp hm
  simp [hn, hp, hm]

/-- **A shifted slot code stands as one operand exactly where the place binds no more tightly
than the operator the shift adds**, and always when the shift adds none. -/
theorem isOperand_shifted {pos : String} (hpos : numeral pos = none) (delta : Int)
    (negate : Bool) (o : Order) :
    (shifted pos delta negate o).isOperand o =
      (addedOperator delta negate).all fun i => decide (i.tier ≤ o.tier) := by
  rw [shifted_of_numeral_none hpos]
  cases hadd : addedOperator delta negate with
  | none =>
    rw [bracketFor, shiftedBody_of_addedOperator_none hadd]
    rfl
  | some i =>
    rw [isOperand_bracketFor (addedOperator_ne_call hadd) (isOperand_shiftedBody hadd)]
    rfl

/-- The rules put positions only where `.unbound` or `.subtraction` is asked for, no tighter than
any operator a shift adds: there a shifted slot code always stands as one operand. -/
theorem isOperand_shifted_of_rule_order {pos : String} (hpos : numeral pos = none) (delta : Int)
    (negate : Bool) {o : Order} (ho : o = .unbound ∨ o = .subtraction) :
    (shifted pos delta negate o).isOperand o = true := by
  rw [isOperand_shifted hpos]
  unfold addedOperator
  rcases ho with rfl | rfl <;> split_ifs <;> rfl

/-- The slot's code stands where the shift asks for it: under the operator the shift puts
directly around it, or where the whole is put when the shift adds nothing. -/
theorem codePlace_shifted {pos : String} (hpos : numeral pos = none) (delta : Int)
    (negate : Bool) (o : Order) :
    (shifted pos delta negate o).codePlace o = some ((holdingOperator delta negate).getD o) := by
  rw [shifted_of_numeral_none hpos]
  unfold addedOperator holdingOperator shiftedBody
  rcases lt_trichotomy delta 0 with hd | rfl | hd
  · have hp : ¬delta > 0 := by omega
    have hz : delta ≠ 0 := by omega
    cases negate <;> simp only [hp, hd, hz, if_true, if_false, Bool.false_eq_true, ne_eq,
      not_false_eq_true, bracketFor, Option.getD_some] <;> split_ifs <;> rfl
  · cases negate <;> simp only [if_true, if_false, Bool.false_eq_true, lt_irrefl, ne_eq,
      not_true_eq_false, bracketFor, Option.getD_some, Option.getD_none] <;> (try split_ifs) <;> rfl
  · have hz : delta ≠ 0 := by omega
    cases negate <;> simp only [hd, hz, if_true, if_false, Bool.false_eq_true, ne_eq,
      not_false_eq_true, bracketFor, Option.getD_some] <;> split_ifs <;> rfl

end IndexExpr

/-- `adjustedIndex` asks the slot for its code at the order of the operator the shift puts
around it (the first position when the slot is empty) and writes it shifted by `delta`, less
the position counting starts from. -/
theorem exec_adjustedIndex (ch : Children) (slot : String) (delta : Int) (negate : Bool)
    (o : Order) (ctx : Context) (s : Session) :
    (adjustedIndex ch slot delta negate o).exec ctx s =
      ((fun pos => (IndexExpr.shifted pos (delta - ctx.indexBase) negate o).write) <$>
        ch.valueOr slot ((holdingOperator (delta - ctx.indexBase) negate).getD o)
          ctx.firstPosition).exec ctx s := by
  have hshift : (if ctx.oneBased = true then delta - 1 else delta) = delta - ctx.indexBase := by
    unfold Context.indexBase
    split_ifs <;> omega
  have hdefault : (if ctx.oneBased = true then "1" else "0") = ctx.firstPosition := rfl
  unfold adjustedIndex
  rw [GenM.exec_bind, GenM.exec_read]
  dsimp only
  rw [hshift, hdefault, ← bind_pure_comp]
  unfold holdingOperator
  simp only [IndexExpr.write_shifted]
  congr 2
  split_ifs <;> rfl

/-- Shifted by `delta` less the counting base, a position stands for the position less the
base plus `delta`, negated if asked: a code that is no numeral always, a numeral while it, the
shift and the sum are safe integers. -/
theorem value_shifted_signed (r : IndexReading) {pos : String} (hpos : IndexExpr.SafeNumeral pos)
    (delta base : Int) (negate : Bool) (o : Order)
    (hbound : IndexExpr.numeral pos ≠ none →
      (delta - base).natAbs < 2 ^ 53 ∧ (r.position pos - base + delta).natAbs ≤ 2 ^ 53) :
    (IndexExpr.shifted pos (delta - base) negate o).value r =
      (if negate then -1 else 1) * (r.position pos - base + delta) := by
  have hvalue : (IndexExpr.shifted pos (delta - base) negate o).value r =
      if negate then -(r.position pos + (delta - base)) else r.position pos + (delta - base) := by
    cases hnum : IndexExpr.numeral pos with
    | none => rw [IndexExpr.value_shifted_of_numeral_none r hnum, IndexReading.position, hnum]
    | some x =>
      obtain ⟨hshift, hsum⟩ := hbound (by simp [hnum])
      exact IndexExpr.value_shifted r _ negate o hpos hshift (by omega)
  rw [hvalue]
  cases negate
  · simp only [Bool.false_eq_true, if_false, one_mul]
    omega
  · simp only [if_true, neg_mul, one_mul]
    omega

/-- **What `adjustedIndex` writes, and where it stands as one operand.**  In any context and
session, `adjustedIndex` fails or ends as asking the slot for its code does, at the order of the
operator the shift puts around the code (the first position standing for an empty slot), and
writes that code as index arithmetic `shifted` by `delta` less the counting base.  The
arithmetic stands for the position less the base plus `delta`, negated if asked: for a code
that is no numeral always, and for a numeral while it is folded within the safe integers.  For a code that is not a numeral it stands as one
operand where `o` is asked for exactly when `o` binds no more tightly than the operator the
shift adds, with the code itself under the operator that holds it. -/
theorem adjustedIndex_operand_exactly (ch : Children) (slot : String) (delta : Int)
    (negate : Bool) (o : Order) (ctx : Context) (r : IndexReading) :
    (∀ s, (adjustedIndex ch slot delta negate o).exec ctx s =
      ((fun pos => (IndexExpr.shifted pos (delta - ctx.indexBase) negate o).write) <$>
        ch.valueOr slot ((holdingOperator (delta - ctx.indexBase) negate).getD o)
          ctx.firstPosition).exec ctx s) ∧
    (∀ pos, IndexExpr.SafeNumeral pos →
      (IndexExpr.numeral pos ≠ none → (delta - ctx.indexBase).natAbs < 2 ^ 53 ∧
        (r.position pos - ctx.indexBase + delta).natAbs ≤ 2 ^ 53) →
      (IndexExpr.shifted pos (delta - ctx.indexBase) negate o).value r =
        (if negate then -1 else 1) * (r.position pos - ctx.indexBase + delta)) ∧
    (∀ pos, IndexExpr.numeral pos = none →
      (IndexExpr.shifted pos (delta - ctx.indexBase) negate o).isOperand o =
          ((addedOperator (delta - ctx.indexBase) negate).all fun i => decide (i.tier ≤ o.tier)) ∧
        (IndexExpr.shifted pos (delta - ctx.indexBase) negate o).codePlace o =
          some ((holdingOperator (delta - ctx.indexBase) negate).getD o)) :=
  ⟨exec_adjustedIndex ch slot delta negate o ctx,
    fun _ hpos hbound => value_shifted_signed r hpos delta ctx.indexBase negate o hbound,
    fun _ hpos => ⟨IndexExpr.isOperand_shifted hpos _ negate o,
      IndexExpr.codePlace_shifted hpos _ negate o⟩⟩

/-- **Past the safe integers a numeral is not shifted exactly.**  The numeral `2^53` shifted
up by one, as counting from zero asks for one past a position, is folded to `2^53` again: the
sum `2^53 + 1` rounds to the even binary64 value. -/
theorem value_shifted_past_safe_integers (r : IndexReading) (o : Order) :
    r.position "9007199254740992" = 2 ^ 53 ∧
      (IndexExpr.shifted "9007199254740992" 1 false o).write = "9007199254740992" ∧
      (IndexExpr.shifted "9007199254740992" 1 false o).value r = 2 ^ 53 := by
  have hnum : IndexExpr.numeral "9007199254740992" = some (Binary64.ofInt (2 ^ 53)) := by
    decide +kernel
  have hsum : (Binary64.ofInt (2 ^ 53)).add (Binary64.ofInt 1) = Binary64.ofInt (2 ^ 53) := by
    decide +kernel
  have htrunc : (Binary64.ofInt (2 ^ 53)).truncate = 2 ^ 53 := by decide +kernel
  have hshift : IndexExpr.shifted "9007199254740992" 1 false o = .num (Binary64.ofInt (2 ^ 53)) := by
    unfold IndexExpr.shifted
    rw [hnum]
    simp only [Bool.false_eq_true, if_false, hsum]
  refine ⟨by rw [IndexReading.position, hnum]; exact htrunc, ?_, by rw [hshift]; exact htrunc⟩
  rw [hshift]
  decide +kernel

/-- Under a product a position shifted up is written without brackets, as `i + 1`, where the
product takes `i` alone. -/
theorem shifted_index_under_product :
    (adjustedIndex ⟨fun _ _ => pure (some "i"), fun _ => pure ""⟩ "AT" 1 false
        .multiplication).exec (Generation.context default {}) (Generation.start default {}) =
      (.ok "i + 1", Generation.start default {}) ∧
    (IndexExpr.shifted "i" 1 false .multiplication).isOperand .multiplication = false := by
  have hi : IndexExpr.numeral "i" = none := by decide +kernel
  constructor
  · rfl
  · rw [IndexExpr.isOperand_shifted hi]
    rfl

end BlockScribe
