import BlockScribe.Proofs.Generate.Positions
/-!
# What the value rules print

Every rule of a kind that `Denotes` describes prints its block's tree: it returns code, of the
order it reports, printed as a form that stands for the block's tree (`Printed`), given children
whose slots give operands (`Children.Operands`).  The shapes rules print are few: an operator
between operands, a prefix operator, a conditional, a method called on an operand asked for as a
member's object, and a call of a name with operands as arguments; each is built here once
(`Form.WF.method`, `Form.WF.callName`), and the numbered slots of a variadic block are read in
one go (`Filled.forall₂`).

This module holds the connectives and comparisons, variables, procedure calls and colours; the
texts follow in `TextPrints`.
-/

namespace BlockScribe

open Script GenM Rules

/-- What the rule of the kind `k` gives for `b`: code, of the order it reports, printed as a form
that stands for the block's tree. -/
def Printed (w : Workspace) (ob : Bool) (k : BlockKind) (b : Block) (out : Output) : Prop :=
  ∃ code inner f, out = .value code inner ∧ Prints code inner f ∧ Denotes w ob k b f.sem

/-! ### Shapes of printed code -/

namespace Script

theorem isReference_true : IsReference "true".toList :=
  isReference_of_nameText (by decide) (.inr (by decide))

theorem isReference_false : IsReference "false".toList :=
  isReference_of_nameText (by decide) (.inr (by decide))

theorem isReference_null : IsReference "null".toList :=
  isReference_of_nameText (by decide) (.inr (by decide))

namespace Form

/-- A method called on an object that stands where a member's object is asked for. -/
theorem WF.method {t : Form} (ht : t.WF Written) (hl : t.level ≤ .lhs) (hend : t.endsNum = false)
    {m : String} (hm : Lx.nameText m.toList = true) {args : List Form}
    (hargs : ∀ a ∈ args, a.WF Written) : (Form.call (Form.member t m.toList) args).WF Written :=
  .call (.member ht hl hend (Lx.isName_of_nameText hm)) (Level.le_refl _) hargs
    fun a _ => level_le_assign a

/-- A helper or a procedure called by its name. -/
theorem WF.callName {n : List Char} (hn : IsReference n) {args : List Form}
    (hargs : ∀ a ∈ args, a.WF Written) : (Form.call (Form.name n) args).WF Written :=
  .call (.name hn) (Level.primary_le _) hargs fun a _ => level_le_assign a

end Form

end Script

/-- An operand asked for where a member's object is, no numeral, is an object for a method. -/
theorem Operand.method {o : Order} {code : String} {f : Form} (h : Operand o code f)
    (ho : o.operandLevel ≤ .lhs) (hn : f.isNumeric = false) {m : String}
    (hm : Lx.nameText m.toList = true) {args : List Form} (hargs : ∀ a ∈ args, a.WF Written) :
    (Form.call (.member f m.toList) args).WF Written :=
  Form.WF.method h.wf (Level.le_trans h.level_le ho) (h.endsNum_eq_false ho hn) hm hargs

/-- The codes of numbered slots, each filled: the trees the slots hold, and forms of the codes
that stand for them. -/
theorem Filled.forall₂ {w : Workspace} {ob : Bool} {b : Block} {slot : Nat → String} {o : Order}
    {fd : Form} {is : List Nat} {codes : List String}
    (h : List.Forall₂ (fun i c => Filled w ob b (slot i) o fd c) is codes) :
    ∃ (ots : List (Option Expr)) (fs : List Form),
      List.Forall₂ (fun i ot => SlotTree w ob b (slot i) ot) is ots ∧
      codes.map String.toList = fs.map Form.code ∧
      (∀ f ∈ fs, f.WF Written ∧ f.level ≤ o.operandLevel) ∧
      fs.map Form.sem = ots.map (·.getD fd.sem) := by
  induction h with
  | nil => exact ⟨[], [], .nil, rfl, by simp, rfl⟩
  | cons hc _ ih =>
    obtain ⟨ot, f, htree, hf, hsem, -, -⟩ := hc
    obtain ⟨ots, fs, htrees, hcodes, hwf, hsems⟩ := ih
    refine ⟨ot :: ots, f :: fs, .cons htree htrees, by simp [hf.text_eq, hcodes], ?_,
      by simp [hsem, hsems]⟩
    intro g hg
    rcases List.mem_cons.1 hg with rfl | hg
    · exact ⟨hf.wf, hf.level_le⟩
    · exact hwf g hg

/-- The trees of the slots numbered from zero, one for each number. -/
theorem SlotTree.forall₂_range {w : Workspace} {ob : Bool} {b : Block} {slot : Nat → String}
    {n : Nat} {ots : List (Option Expr)}
    (h : List.Forall₂ (fun i ot => SlotTree w ob b (slot i) ot) (List.range n) ots) :
    ots.length = n ∧ ∀ i (hi : i < ots.length), SlotTree w ob b (slot i) ots[i] := by
  obtain ⟨hlen, hget⟩ := List.forall₂_iff_get.1 h
  rw [List.length_range] at hlen
  refine ⟨hlen.symm, fun i hi => ?_⟩
  have := hget i (by simp; omega) hi
  simpa using this

/-- Two codes with a binary operator between them print the operation. -/
theorem Prints.operation {x y : String} {fx fy : Form} (op : BinOp) {operator : String}
    {inner : Order} (hx : x.toList = fx.code) (hy : y.toList = fy.code)
    (hop : operator.toList = op.text) (hwf : (Form.bin op fx fy).WF Written)
    (hlevel : op.level ≤ inner.level) :
    Prints (x ++ " " ++ operator ++ " " ++ y) inner (.bin op fx fy) :=
  .compound (by simp [hx, hy, hop]) hwf hlevel (Form.compound_bin _ _ _)

section

variable {ch : Children} {w : Workspace} {ob : Bool} {b : Block}

/-! ### Comparisons and connectives -/

/-- A comparison puts its operands at its own order and its operator between them. -/
theorem Children.Operands.compare (hch : ch.Operands w ob b) (op : BinOp) {operator : String}
    {order : Order} (hop : operator.toList = op.text) (hlevel : order.level = op.level)
    (hl : order.operandLevel ≤ op.level) (hr : order.operandLevel ≤ op.right)
    (hfield : compareOperator ((b.field? "OP").getD "EQ") = some op) :
    Gives w ob (Printed w ob .logicCompare b) (do
      let x ← ch.valueOr "A" order "0"
      let y ← ch.valueOr "B" order "0"
      pure (Output.value (x ++ " " ++ operator ++ " " ++ y) order)) := by
  refine .bind (hch.valueOr "A" order (Operand.zero _)) fun x hx =>
    .bind (hch.valueOr "B" order (Operand.zero _)) fun y hy => .pure ?_
  obtain ⟨ox, fx, hxt, hx, hxs, -, -⟩ := hx
  obtain ⟨oy, fy, hyt, hy, hys, -, -⟩ := hy
  refine ⟨_, _, .bin op fx fy, rfl, .operation op hx.text_eq hy.text_eq hop
    (.bin hx.wf hy.wf (Level.le_trans hx.level_le hl) (Level.le_trans hy.level_le hr))
    (by rw [hlevel]), ?_⟩
  have h0 : (Form.num ['0']).sem = Expr.numeral "0" := by simp [Expr.numeral]
  rw [Form.sem_bin, hxs, hys, h0]
  exact .compare hfield hxt hyt

theorem logicCompare_printed (hch : ch.Operands w ob b) :
    Gives w ob (Printed w ob .logicCompare b) (logicCompare ch b) := by
  refine .bind (Gives.choose b "OP" rfl) fun op hop => ?_
  -- the field's text names the operator; each comparison asks for its own order
  cases op <;> simp only [CompareOp.options, List.mem_cons, Prod.mk.injEq, reduceCtorEq, and_false,
    and_true, false_or, or_false, List.not_mem_nil] at hop
  · exact hch.compare .eq rfl rfl (by decide) (by decide) (by simp [hop, compareOperator])
  · exact hch.compare .ne rfl rfl (by decide) (by decide) (by simp [hop, compareOperator])
  · exact hch.compare .lt rfl rfl (by decide) (by decide) (by simp [hop, compareOperator])
  · exact hch.compare .le rfl rfl (by decide) (by decide) (by simp [hop, compareOperator])
  · exact hch.compare .gt rfl rfl (by decide) (by decide) (by simp [hop, compareOperator])
  · exact hch.compare .ge rfl rfl (by decide) (by decide) (by simp [hop, compareOperator])

/-- A connective of two slots: each empty one is the operator's neutral element, and two empty
ones make `false && false` (or `false || false`); a chain of the same operator may stand on
either side. -/
theorem connective_printed {isAnd : Bool} {rx ry : Option String} {order : Order}
    {operator neutral x y : String} (hx : SlotCode w ob b "A" order rx)
    (hy : SlotCode w ob b "B" order ry)
    (hfield : (b.field? "OP").getD "AND" = if isAnd then "AND" else "OR")
    (horder : order = if isAnd then .logicalAnd else .logicalOr)
    (hop : operator.toList = (if isAnd then BinOp.and else .or).text)
    (hneutral : neutral = if isAnd then "true" else "false")
    (hxy : if rx.isNone && ry.isNone then x = "false" ∧ y = "false"
      else x = rx.getD neutral ∧ y = ry.getD neutral) :
    Printed w ob .logicOperation b (.value (x ++ " " ++ operator ++ " " ++ y) order) := by
  have hreg : (if isAnd then BinOp.and else .or).regroups = true := by cases isAnd <;> rfl
  have hlevel : order.operandLevel = (if isAnd then BinOp.and else .or).level := by
    cases isAnd <;> subst horder <;> rfl
  have hneu : Operand order neutral (.name neutral.toList) := by
    subst hneutral
    cases isAnd
    · exact Operand.word _ isReference_false
    · exact Operand.word _ isReference_true
  have hfalse : Operand order "false" (.name "false".toList) := Operand.word _ isReference_false
  obtain ⟨ox, fx, hxt, hxn, hx, hxs, -, -⟩ := hx.filled hneu
  obtain ⟨oy, fy, hyt, hyn, hy, hys, -, -⟩ := hy.filled hneu
  by_cases hboth : (rx.isNone && ry.isNone) = true
  · -- two empty slots
    obtain ⟨hrx, hry⟩ : rx = none ∧ ry = none := by simpa using hboth
    subst hrx hry
    have hox : ox = none := by simpa using hxn
    have hoy : oy = none := by simpa using hyn
    subst hox hoy
    obtain ⟨rfl, rfl⟩ := hxy
    refine ⟨_, _, .bin _ (.name "false".toList) (.name "false".toList), rfl,
      .operation _ hfalse.text_eq hfalse.text_eq hop
        (.chain hreg hfalse.wf hfalse.wf (Level.primary_le _) (Level.primary_le _))
        (by rw [horder]; cases isAnd <;> exact Level.le_refl _), ?_⟩
    simp only [Form.sem_bin, Form.sem_name]
    exact .operation hfield hxt hyt
  · -- an operand in a slot, the neutral element in an empty one
    rw [if_neg hboth] at hxy
    obtain ⟨rfl, rfl⟩ := hxy
    refine ⟨_, _, .bin _ fx fy, rfl, .operation _ hx.text_eq hy.text_eq hop
      (.chain hreg hx.wf hy.wf (hlevel ▸ hx.level_le) (hlevel ▸ hy.level_le))
      (by rw [horder]; cases isAnd <;> exact Level.le_refl _), ?_⟩
    have hnot : (ox.isNone && oy.isNone) = false := by
      rw [hxn, hyn]
      exact Bool.eq_false_iff.2 hboth
    have htree := @Denotes.operation _ ob _ isAnd _ _ hfield hxt hyt
    rw [Expr.connective, if_neg (by simp [hnot])] at htree
    rw [Form.sem_bin, hxs, hys, Form.sem_name]
    subst hneutral
    cases isAnd <;> exact htree

theorem logicOperation_printed (hch : ch.Operands w ob b) :
    Gives w ob (Printed w ob .logicOperation b) (logicOperation ch b) := by
  refine .bind (Gives.choose b "OP" rfl) fun isAnd hop => ?_
  have hfield : (b.field? "OP").getD "AND" = if isAnd then "AND" else "OR" := by
    cases isAnd <;> simpa using hop
  -- the two connectives differ only in their operator, order and neutral element
  cases isAnd <;> refine .bind (hch "A" _) fun rx hx => .bind (hch "B" _) fun ry hy => .pure ?_ <;>
    cases rx <;> cases ry <;> exact connective_printed hx hy hfield rfl rfl rfl (by simp)

theorem logicNegate_printed (hch : ch.Operands w ob b) :
    Gives w ob (Printed w ob .logicNegate b) (logicNegate ch b) := by
  refine .bind (hch.valueOr "BOOL" .logicalNot (Operand.word _ isReference_true)) fun x hx =>
    .pure ?_
  obtain ⟨ot, f, htree, hf, hsem, -, -⟩ := hx
  refine ⟨_, _, .not f, rfl, .compound (by simp [hf.text_eq])
    (.not hf.wf hf.level_le hf.wf.head_ne_eq) (Level.le_refl _) (Form.compound_not f), ?_⟩
  rw [Form.sem_not, hsem, Form.sem_name]
  exact .negate htree

theorem logicBoolean_printed : Gives w ob (Printed w ob .logicBoolean b) (logicBoolean ch b) := by
  refine .bind (Gives.choose b "BOOL" rfl) fun v hv => .pure ?_
  have hfield : (b.field? "BOOL").getD "TRUE" = if v then "TRUE" else "FALSE" := by
    cases v <;> simpa using hv
  have hword : ∀ {s : String}, IsReference s.toList →
      Prints s .atomic (.name s.toList) ∧ (Form.name s.toList).sem = Expr.word s := fun hs =>
    ⟨.atom (Form.code_name _).symm (.name hs) rfl (fun _ h => by cases h) rfl, Form.sem_name _⟩
  cases v
  · obtain ⟨hp, hs⟩ := hword isReference_false
    exact ⟨_, _, _, rfl, hp, hs ▸ .boolean hfield⟩
  · obtain ⟨hp, hs⟩ := hword isReference_true
    exact ⟨_, _, _, rfl, hp, hs ▸ .boolean hfield⟩

theorem logicNull_printed : Gives w ob (Printed w ob .logicNull b) (logicNull ch b) :=
  .pure ⟨_, _, .name "null".toList, rfl,
    .atom (Form.code_name _).symm (.name isReference_null) rfl (fun _ h => by cases h) rfl,
    (Form.sem_name _).symm ▸ .null⟩

theorem logicTernary_printed (hch : ch.Operands w ob b) :
    Gives w ob (Printed w ob .logicTernary b) (logicTernary ch b) := by
  refine .bind (hch.valueOr "IF" .conditional (Operand.word _ isReference_false)) fun c hc =>
    .bind (hch.valueOr "THEN" .conditional (Operand.word _ isReference_null)) fun x hx =>
    .bind (hch.valueOr "ELSE" .conditional (Operand.word _ isReference_null)) fun y hy => .pure ?_
  obtain ⟨oc, fc, hct, hc, hcs, -, -⟩ := hc
  obtain ⟨ox, fx, hxt, hx, hxs, -, -⟩ := hx
  obtain ⟨oy, fy, hyt, hy, hys, -, -⟩ := hy
  refine ⟨_, _, .cond fc fx fy, rfl, .compound (by simp [hc.text_eq, hx.text_eq, hy.text_eq])
    (.cond hc.wf hx.wf hy.wf hc.level_le (Form.level_le_assign _) (Form.level_le_assign _))
    (Level.le_refl _) (Form.compound_cond _ _ _), ?_⟩
  rw [Form.sem_cond, hcs, hxs, hys, Form.sem_name, Form.sem_name]
  exact .ternary hct hxt hyt

/-! ### Variables and procedures -/

theorem variablesGet_printed {k : BlockKind} (hk : k = .variablesGet ∨ k = .variablesGetDynamic) :
    Gives w ob (Printed w ob k b) (variablesGet ch b) :=
  .bind (Gives.variableName _) fun n hn => .pure ⟨n, .atomic, .name n.toList, rfl,
    .atom (Form.code_name _).symm (.name hn) rfl (fun _ h => by cases h) rfl,
    (Form.sem_name _).symm ▸ .variable hk hn⟩

theorem callReturn_printed (hch : ch.Operands w ob b) :
    Gives w ob (Printed w ob .callReturn b) (callReturn ch b) := by
  refine .bind (Gives.procedureName _) fun n hn =>
    .bind (Gives.mapM (R := fun i c => Filled w ob b ("ARG" ++ toString i) .comma
      (.name "null".toList) c) _ fun _ _ => hch.valueOr _ _ (Operand.word _ isReference_null))
      fun args hargs => .pure ?_
  -- one argument for each parameter, in the order of the parameters
  obtain ⟨ots, fs, htrees, hcodes, hwf, hsems⟩ := Filled.forall₂ hargs
  obtain ⟨hlen, hslots⟩ := SlotTree.forall₂_range htrees
  refine ⟨_, _, .call (.name n.toList) fs, rfl, .compound (by simp [hcodes])
    (Form.WF.callName hn fun f hf => (hwf f hf).1) (Level.le_refl _) (Form.compound_call _ _), ?_⟩
  simp only [Form.sem_call, Form.sem_name, hsems]
  exact .callReturn hn hlen hslots

/-! ### Colours -/

theorem colourPicker_printed : Gives w ob (Printed w ob .colourPicker b) (colourPicker ch b) :=
  .pure ⟨_, _, _, rfl, .atom (Operand.quote .atomic _).text_eq (Operand.quote .atomic _).wf rfl
    (fun _ h => by cases h) rfl, (Form.sem_str _).symm ▸ .colour⟩

theorem colourRandom_printed : Gives w ob (Printed w ob .colourRandom b) (colourRandom ch b) :=
  .bind (Gives.provide _ _) fun h hh => .pure ⟨_, _, .call (.name h.toList) [], rfl,
    .compound (by simp) (Form.WF.callName hh (by simp)) (Level.le_refl _) (Form.compound_call _ _),
    by simpa using Denotes.randomColour hh⟩

theorem colourRgb_printed (hch : ch.Operands w ob b) :
    Gives w ob (Printed w ob .colourRgb b) (colourRgb ch b) := by
  refine .bind (hch.valueOr "RED" .comma (Operand.zero _)) fun r hr =>
    .bind (hch.valueOr "GREEN" .comma (Operand.zero _)) fun g hg =>
    .bind (hch.valueOr "BLUE" .comma (Operand.zero _)) fun c hc =>
    .bind (Gives.provide _ _) fun h hh => .pure ?_
  obtain ⟨o₁, f₁, ht₁, h₁, hs₁, -, -⟩ := hr
  obtain ⟨o₂, f₂, ht₂, h₂, hs₂, -, -⟩ := hg
  obtain ⟨o₃, f₃, ht₃, h₃, hs₃, -, -⟩ := hc
  refine ⟨_, _, .call (.name h.toList) [f₁, f₂, f₃], rfl,
    .compound (by simp [h₁.text_eq, h₂.text_eq, h₃.text_eq])
      (Form.WF.callName hh (by simp [h₁.wf, h₂.wf, h₃.wf])) (Level.le_refl _)
      (Form.compound_call _ _), ?_⟩
  have h0 : (Form.num ['0']).sem = Expr.numeral "0" := by simp [Expr.numeral]
  simp only [Form.sem_call, Form.sem_name, List.map_cons, List.map_nil, hs₁, hs₂, hs₃, h0]
  exact .rgb ht₁ ht₂ ht₃ hh

theorem colourBlend_printed (hch : ch.Operands w ob b) :
    Gives w ob (Printed w ob .colourBlend b) (colourBlend ch b) := by
  have hblack : ∀ o, Operand o "'#000000'" (.str ("#000000".toList.flatMap Text.escapeChar)) :=
    fun o => (show Text.quote "#000000" = "'#000000'" by decide) ▸ Operand.quote o "#000000"
  refine .bind (hch.valueOr "COLOUR1" .comma (hblack _)) fun c₁ h₁ =>
    .bind (hch.valueOr "COLOUR2" .comma (hblack _)) fun c₂ h₂ =>
    .bind (hch.valueOr "RATIO" .comma (Operand.half _)) fun r hr =>
    .bind (Gives.provide _ _) fun h hh => .pure ?_
  obtain ⟨o₁, f₁, ht₁, h₁, hs₁, -, -⟩ := h₁
  obtain ⟨o₂, f₂, ht₂, h₂, hs₂, -, -⟩ := h₂
  obtain ⟨o₃, f₃, ht₃, h₃, hs₃, -, -⟩ := hr
  refine ⟨_, _, .call (.name h.toList) [f₁, f₂, f₃], rfl,
    .compound (by simp [h₁.text_eq, h₂.text_eq, h₃.text_eq])
      (Form.WF.callName hh (by simp [h₁.wf, h₂.wf, h₃.wf])) (Level.le_refl _)
      (Form.compound_call _ _), ?_⟩
  have hhalf : (Form.num ['0', '.', '5']).sem = Expr.numeral "0.5" := by simp [Expr.numeral]
  simp only [Form.sem_call, Form.sem_name, Form.sem_str, List.map_cons, List.map_nil, hs₁, hs₂, hs₃,
    hhalf]
  exact .blend ht₁ ht₂ ht₃ hh

end

end BlockScribe
