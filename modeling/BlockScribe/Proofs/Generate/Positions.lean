import BlockScribe.Proofs.Generate.Operands
import BlockScribe.Proofs.Generate.IndexOperand
/-!
# List positions as operands

`adjustedIndex` writes a list position as index arithmetic around a slot's code
(`IndexExpr.shifted`).  Printed, the arithmetic is the slot's form moved by the shift and negated
if asked, the move bracketed under the negation (`Form.shifted`), and it stands for the slot's
tree so shifted (`Expr.shifted`).  Where the rules put positions, at orders of tier six or
looser, the arithmetic is bracketed whenever the shift adds an operator, and so is one operand
(`Operand.shifted`); the first position that stands for an empty slot is folded with the shift
into the numeral of the position asked for (`write_shifted_firstPosition`).  Both together make
`Children.Operands.adjustedIndex`.

The rules shift by no more than one, and negate only a shift by one; the lemmas take the shifts
as they are asked for.
-/

namespace BlockScribe

open Script GenM

namespace Script.Form

/-- A form moved by `d`: a sum or a difference with the numeral of `d`'s size. -/
def moved (f : Form) (d : Int) : Form :=
  if 0 < d then bin .add f (num (toString d.natAbs).toList)
  else if d < 0 then bin .sub f (num (toString d.natAbs).toList) else f

/-- A form moved by `d` and negated if asked, a move bracketed under the negation. -/
def shifted (f : Form) (d : Int) (negate : Bool) : Form :=
  if negate then neg (if d ≠ 0 then paren (f.moved d) else f.moved d) else f.moved d

/-- An integer printed: its numeral, negated when it is below zero. -/
def intForm (v : Int) : Form :=
  if v < 0 then neg (num (toString v.natAbs).toList) else num (toString v.natAbs).toList

theorem sem_shifted (f : Form) (d : Int) (negate : Bool) :
    (f.shifted d negate).sem = f.sem.shifted d negate := by
  unfold shifted moved Expr.shifted
  cases negate <;> split_ifs <;> simp [Expr.numeral]

theorem sem_intForm (v : Int) : (intForm v).sem = Expr.intLit v := by
  unfold intForm Expr.intLit
  split_ifs <;> simp [Expr.numeral]

theorem moved_of_pos {f : Form} {d : Int} (h : 0 < d) :
    f.moved d = bin .add f (num (toString d.natAbs).toList) := by
  simp [moved, h]

theorem moved_of_neg {f : Form} {d : Int} (h : d < 0) :
    f.moved d = bin .sub f (num (toString d.natAbs).toList) := by
  simp [moved, h, not_lt.2 h.le]

theorem faithful_paren_bin (op : BinOp) (l r : Form) : (paren (bin op l r)).Faithful :=
  faithful_paren.2 (by simp [Expr.isStr, Expr.isQuotedWord])

theorem faithful_paren_neg (e : Form) : (paren (neg e)).Faithful :=
  faithful_paren.2 (by simp [Expr.isStr, Expr.isQuotedWord])

theorem numeral_one {d : Int} (hd : d.natAbs = 1) : Lx.Numeral (toString d.natAbs).toList := by
  rw [hd]
  exact ⟨⟨'1', [], by decide, rfl⟩, false, by decide⟩

theorem toString_natAbs_of_pos {d : Int} (h : 0 < d) : toString d = toString d.natAbs := by
  obtain ⟨n, rfl⟩ := Int.eq_ofNat_of_zero_le h.le
  rfl

/-- The code of a shift is that of the form moved and negated. -/
theorem code_shiftedBody {pos : String} {f : Form} (h : pos.toList = f.code) (d : Int)
    (negate : Bool) : (IndexExpr.shiftedBody pos d negate).write.toList = (f.shifted d negate).code := by
  unfold IndexExpr.shiftedBody shifted moved
  rcases lt_trichotomy d 0 with hd | rfl | hd
  · have hp : ¬0 < d := by omega
    have hz : d ≠ 0 := by omega
    have hstr : toString (-d) = toString d.natAbs := by
      rw [toString_natAbs_of_pos (by omega), Int.natAbs_neg]
    cases negate <;> simp [hp, hd, hz, hstr, h, IndexExpr.write, BinOp.text]
  · cases negate <;> simp [h, IndexExpr.write]
  · have hz : d ≠ 0 := by omega
    cases negate <;> simp [hd, hz, h, toString_natAbs_of_pos hd, IndexExpr.write, BinOp.text]

/-- Shifted by at most one, the form of an operand asked for where the shift holds it is well
formed, and bracketed it is read as its tree. -/
theorem WF.shifted {f : Form} (hf : f.WF Written) {d : Int} {negate : Bool} {o : Order}
    (hl : f.level ≤ ((holdingOperator d negate).getD o).operandLevel) (hd : d.natAbs ≤ 1)
    (hadd : addedOperator d negate ≠ none) :
    (f.shifted d negate).WF Written ∧ (Form.paren (f.shifted d negate)).Faithful := by
  rcases (show d = -1 ∨ d = 0 ∨ d = 1 by omega) with rfl | rfl | rfl
  · -- `p - 1`, negated as `-(p - 1)`
    have hhold : holdingOperator (-1) negate = some .subtraction := by simp [holdingOperator]
    rw [hhold, Option.getD_some] at hl
    have hmove : (f.moved (-1)).WF Written := by
      rw [moved_of_neg (by decide)]
      exact .bin hf (.num (numeral_one rfl)) (Level.le_trans hl (by decide)) (Level.primary_le _)
    cases negate
    · simp only [Form.shifted, Bool.false_eq_true, if_false]
      exact ⟨hmove, by rw [moved_of_neg (by decide)]; exact faithful_paren_bin _ _ _⟩
    · simp only [Form.shifted, if_true, ne_eq, Int.reduceNeg, neg_eq_zero, one_ne_zero,
        not_false_eq_true]
      exact ⟨.neg (.paren hmove) (Level.primary_le _) (by simp [head]) (by simp [head]),
        faithful_paren_neg _⟩
  · -- no move: only a negation, `-p`
    cases negate
    · simp [addedOperator] at hadd
    · have hhold : holdingOperator 0 true = some .unaryNegation := by simp [holdingOperator]
      rw [hhold, Option.getD_some] at hl
      simp only [Form.shifted, Form.moved, if_true, ne_eq, not_true_eq_false, if_false, lt_irrefl]
      exact ⟨.neg hf (Level.le_trans hl (by decide))
        (hf.head_ne_minus (level_le_lhs_of_le_update hl)) hf.head_ne_eq, faithful_paren_neg _⟩
  · -- `p + 1`, negated as `-(p + 1)`
    have hhold : holdingOperator 1 negate = some .addition := by simp [holdingOperator]
    rw [hhold, Option.getD_some] at hl
    have hmove : (f.moved 1).WF Written := by
      rw [moved_of_pos (by decide)]
      exact .bin hf (.num (numeral_one rfl)) hl (Level.primary_le _)
    cases negate
    · simp only [Form.shifted, Bool.false_eq_true, if_false]
      exact ⟨hmove, by rw [moved_of_pos (by decide)]; exact faithful_paren_bin _ _ _⟩
    · simp only [Form.shifted, if_true, ne_eq, one_ne_zero, not_false_eq_true]
      exact ⟨.neg (.paren hmove) (Level.primary_le _) (by simp [head]) (by simp [head]),
        faithful_paren_neg _⟩

end Script.Form

/-- The arithmetic `shifted` writes for a numeral folds it, whatever the order asked for. -/
theorem IndexExpr.shifted_of_numeral_some {pos : String} {v : Binary64}
    (h : IndexExpr.numeral pos = some v) (d : Int) (negate : Bool) (o : Order) :
    IndexExpr.shifted pos d negate o =
      .num (if negate then (v.add (Binary64.ofInt d)).neg else v.add (Binary64.ofInt d)) := by
  unfold IndexExpr.shifted
  rw [h]

/-- An operator a shift adds binds no more loosely than a sum. -/
theorem tier_le_of_addedOperator {d : Int} {negate : Bool} {i : Order}
    (h : addedOperator d negate = some i) : i.tier ≤ 6 := by
  unfold addedOperator at h
  split_ifs at h <;> (cases h; decide)

/-- A shift that adds no operator neither moves nor negates. -/
theorem eq_zero_of_addedOperator_none {d : Int} {negate : Bool} (h : addedOperator d negate = none) :
    negate = false ∧ d = 0 := by
  unfold addedOperator at h
  split_ifs at h with hn hp hm
  exact ⟨by simpa using hn, by omega⟩

/-- **A shifted operand that is no numeral is one operand where the rules put positions**, and
stands for the slot's tree shifted. -/
theorem Operand.shifted {o : Order} {pos : String} {f : Form} {d : Int} {negate : Bool}
    (hf : Operand ((holdingOperator d negate).getD o) pos f) (hnum : f.isNumeric = false)
    (hd : d.natAbs ≤ 1) (ho : 6 ≤ o.tier) :
    ∃ g, Operand o (IndexExpr.shifted pos d negate o).write g ∧ g.sem = f.sem.shifted d negate := by
  have hpos : IndexExpr.numeral pos = none := by
    have := hf.wf.isNumber_code hnum
    rw [← hf.text_eq, String.ofList_toList] at this
    simp [IndexExpr.numeral, this]
  rw [IndexExpr.shifted_of_numeral_none hpos]
  cases hadd : addedOperator d negate with
  | none =>
    -- no shift: the slot's code as it is, asked for where the position goes
    obtain ⟨rfl, rfl⟩ := eq_zero_of_addedOperator_none hadd
    rw [IndexExpr.bracketFor, IndexExpr.shiftedBody_of_addedOperator_none hadd]
    exact ⟨f, hf, by simp [Expr.shifted]⟩
  | some i =>
    -- the shift adds an operator, and the place binds no more tightly: brackets
    have hi : i.tier ≤ o.tier := by
      have := tier_le_of_addedOperator hadd
      omega
    rw [IndexExpr.bracketFor, if_pos hi]
    obtain ⟨hwf, hfaith⟩ := hf.wf.shifted hf.level_le hd (by simp [hadd])
    refine ⟨.paren (f.shifted d negate), ⟨?_, .paren hwf, Level.primary_le _, fun _ _ => hfaith⟩,
      by simp [Form.sem_shifted]⟩
    simp [IndexExpr.write, Form.code_shiftedBody hf.text_eq]

/-- The first position of an empty slot, folded with a shift the rules ask for, is the numeral
of the position asked for. -/
theorem write_shifted_firstPosition (ob : Bool) {delta : Int} {negate : Bool}
    (hd : delta = 0 ∨ delta = 1) (hneg : negate = true → delta = 1) (o : Order) :
    (IndexExpr.shifted (if ob then "1" else "0") (delta - if ob then 1 else 0) negate o).write =
      toString (if negate then -delta else delta) := by
  have h0 : IndexExpr.numeral "0" = some (Binary64.ofInt 0) := by decide +kernel
  have h1 : IndexExpr.numeral "1" = some (Binary64.ofInt 1) := by decide +kernel
  rcases hd with rfl | rfl <;> cases negate <;> cases ob
  · rw [if_neg (by decide), IndexExpr.shifted_of_numeral_some h0]
    decide +kernel
  · rw [if_pos rfl, IndexExpr.shifted_of_numeral_some h1]
    decide +kernel
  · exact absurd (hneg rfl) (by decide)
  · exact absurd (hneg rfl) (by decide)
  · rw [if_neg (by decide), IndexExpr.shifted_of_numeral_some h0]
    decide +kernel
  · rw [if_pos rfl, IndexExpr.shifted_of_numeral_some h1]
    decide +kernel
  · rw [if_neg (by decide), IndexExpr.shifted_of_numeral_some h0]
    decide +kernel
  · rw [if_pos rfl, IndexExpr.shifted_of_numeral_some h1]
    decide +kernel

/-- An integer of size at most one is one operand where the rules put positions. -/
theorem Operand.intForm {v : Int} (hv : v.natAbs ≤ 1) {o : Order} (ho : 6 ≤ o.tier) :
    Operand o (toString v) (Form.intForm v) := by
  have hone : Operand o "1" (.num ['1']) := Operand.firstPosition true o
  rcases (show v = -1 ∨ v = 0 ∨ v = 1 by omega) with rfl | rfl | rfl
  · have hform : Form.intForm (-1) = .neg (.num ['1']) := by
      rw [Form.intForm, if_pos (by decide)]
      congr 2
    rw [hform, show toString (-1 : Int) = "-1" from rfl]
    exact ⟨by simp, .neg hone.wf (Level.primary_le _) (by decide) (by decide),
      Level.le_trans (by decide) (Order.unary_le_operandLevel ho),
      fun _ _ => Form.faithful_of_ne_paren fun _ h => by cases h⟩
  · have hform : Form.intForm 0 = .num ['0'] := by
      rw [Form.intForm, if_neg (by decide)]
      congr 1
    rw [hform, show toString (0 : Int) = "0" from rfl]
    exact Operand.zero o
  · have hform : Form.intForm 1 = .num ['1'] := by
      rw [Form.intForm, if_neg (by decide)]
      congr 1
    rw [hform, show toString (1 : Int) = "1" from rfl]
    exact hone

/-- **A list position is one operand where a rule puts it, and stands for the position the
slot's tree gives**: shifted by `delta`, less one when positions count from one, and negated if
asked; an empty slot stands for the first position so shifted. -/
theorem Children.Operands.adjustedIndex {ch : Children} {w : Workspace} {ob : Bool} {b : Block}
    (hch : ch.Operands w ob b) (slot : String) {delta : Int} {negate : Bool}
    (hd : delta = 0 ∨ delta = 1) (hneg : negate = true → delta = 1) {o : Order} (ho : 6 ≤ o.tier) :
    Gives w ob (fun code => ∃ a g, SlotTree w ob b slot a ∧ Operand o code g ∧
      g.sem = Expr.position ob delta negate a) (BlockScribe.adjustedIndex ch slot delta negate o) := by
  intro ctx s hw hob hs
  have hbase : ctx.indexBase = if ob then 1 else 0 := by rw [Context.indexBase, hob]
  have hfirst : ctx.firstPosition = if ob then "1" else "0" := by rw [Context.firstPosition, hob]
  have hsize : (delta - if ob then 1 else 0).natAbs ≤ 1 := by
    rcases hd with rfl | rfl <;> cases ob <;> decide
  rw [exec_adjustedIndex, hbase, hfirst]
  refine Gives.map _ (hch.valueOr slot _ (Operand.firstPosition ob _)) (fun pos hpos => ?_)
    ctx s hw hob hs
  obtain ⟨a, f, htree, hf, hsem, hnone, hsome⟩ := hpos
  cases a with
  | none =>
    -- an empty slot: its first position, folded with the shift
    obtain rfl := hnone rfl
    have hcode : pos = if ob then "1" else "0" := by
      apply String.toList_inj.1
      rw [hf.text_eq]
      cases ob <;> simp
    have hv : (if negate then -delta else delta).natAbs ≤ 1 := by
      rcases hd with rfl | rfl <;> cases negate <;> decide
    refine ⟨none, _, htree, ?_, (Form.sem_intForm _).trans rfl⟩
    rw [hcode, write_shifted_firstPosition ob hd hneg]
    exact Operand.intForm hv ho
  | some t =>
    obtain ⟨g, hg, hgsem⟩ := hf.shifted (hsome (by simp)) hsize ho
    exact ⟨some t, g, htree, hg, by rw [hgsem, hsem]; rfl⟩

end BlockScribe
