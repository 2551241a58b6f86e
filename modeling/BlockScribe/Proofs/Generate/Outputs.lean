import BlockScribe.Proofs.Generate.Exec
import BlockScribe.Proofs.Text.Inline
/-!
# What each rule gives back

The traversal decides what to do with a block from its kind alone, before the block's rule
runs: a kind of value (`BlockKind.isValue`) gives an expression, a procedure definition
(`BlockKind.isDefinition`) leaves nothing in place, and every other kind gives statements
(`Output.Fits`).  Every rule keeps to what its kind says, and the expression of a value rule is
never empty (`BlockKind.rule_fits`).

What a step returns is described by `GenM.Yields P m`: every value that `m` returns, from any
context and session, has `P`.  It goes through binds and choices by its own lemmas, so the
lemma of each rule follows the rule's steps and looks only at its last one.  Most expressions
hold a piece of text of their own, so they are not empty whatever the children gave.  Three
rules start with a child's code and add at most a text chosen by a field (the whole of a text, a
text whose case or blanks a method changes); their code is not empty because a child's code,
when there is one, never is (`Children.ValuesFilled`).  A variable is its name, which is
inline, so not empty, in every session whose table has given each key an inline name
(`NameTable.KeysInline`).
-/

namespace BlockScribe

/-- Whether a kind is a procedure definition, whose rule leaves nothing in place. -/
def BlockKind.isDefinition : BlockKind → Bool
  | .defineReturn | .defineNoReturn => true
  | _ => false

namespace BlockKind

theorem isDefinition_iff (k : BlockKind) :
    k.isDefinition = true ↔ k = .defineReturn ∨ k = .defineNoReturn := by
  cases k <;> decide

theorem isValue_eq_false_of_isDefinition {k : BlockKind} (h : k.isDefinition = true) :
    k.isValue = false := by
  revert h
  cases k <;> decide

theorem isDefinition_eq_false_of_isValue {k : BlockKind} (h : k.isValue = true) :
    k.isDefinition = false := by
  revert h
  cases k <;> decide

end BlockKind

namespace Output

/-- An expression that is not empty. -/
def IsValue (out : Output) : Prop := ∃ code order, out = .value code order ∧ code ≠ ""

/-- Statements. -/
def IsStatement (out : Output) : Prop := ∃ code, out = .statement code

/-- What the rule of a kind gives back: a nonempty expression for a kind of value, nothing in
place for a procedure definition, statements for every other kind. -/
def Fits (k : BlockKind) (out : Output) : Prop :=
  if k.isValue then out.IsValue else if k.isDefinition then out = .hoisted else out.IsStatement

namespace Fits

variable {k : BlockKind} {out : Output}

theorem of_value (hk : k.isValue = true) (h : out.IsValue) : out.Fits k := by
  rw [Fits, if_pos hk]
  exact h

theorem of_definition (hk : k.isDefinition = true) (h : out = .hoisted) : out.Fits k := by
  rw [Fits, if_neg (by simp [BlockKind.isValue_eq_false_of_isDefinition hk]), if_pos hk]
  exact h

theorem of_statement (hv : k.isValue = false) (hd : k.isDefinition = false) (h : out.IsStatement) :
    out.Fits k := by
  rw [Fits, if_neg (by simp [hv]), if_neg (by simp [hd])]
  exact h

theorem value (h : out.Fits k) (hk : k.isValue = true) : out.IsValue := by
  rw [Fits, if_pos hk] at h
  exact h

/-- The three forms apart: an output fits a kind as an expression exactly when the kind is one
of values, as nothing in place exactly when it is a definition, and as statements otherwise. -/
theorem classify (h : out.Fits k) :
    ((∃ code order, out = .value code order) ↔ k.isValue = true) ∧
      (∀ code order, out = .value code order → code ≠ "") ∧
      (out = .hoisted ↔ k.isDefinition = true) ∧
      ((∃ code, out = .statement code) ↔ k.isValue = false ∧ k.isDefinition = false) := by
  unfold Fits at h
  by_cases hv : k.isValue = true
  · rw [if_pos hv] at h
    obtain ⟨code, order, rfl, hcode⟩ := h
    have hd := BlockKind.isDefinition_eq_false_of_isValue hv
    refine ⟨by simp [hv], fun _ _ heq => ?_, by simp [hd], by simp [hv]⟩
    cases heq
    exact hcode
  · rw [if_neg hv] at h
    have hv' : k.isValue = false := by simpa using hv
    by_cases hd : k.isDefinition = true
    · rw [if_pos hd] at h
      subst h
      exact ⟨by simp [hv'], by simp, by simp [hd], by simp [hd]⟩
    · rw [if_neg hd] at h
      obtain ⟨code, rfl⟩ := h
      exact ⟨by simp [hv'], by simp, by simp [hd], by simpa [hv'] using hd⟩

end Fits

end Output

open Output

/-! ### What a step returns -/

namespace GenM

/-- A bind returns a value exactly when its first step does and its continuation, run from
where the first step ended, returns it. -/
theorem exec_bind_eq_ok {α β : Type} {ctx : Context} {s t : Session} {m : GenM β}
    {k : β → GenM α} {a : α} :
    (m >>= k).exec ctx s = (.ok a, t) ↔
      ∃ b u, m.exec ctx s = (.ok b, u) ∧ (k b).exec ctx u = (.ok a, t) := by
  rw [exec_bind]
  rcases m.exec ctx s with ⟨_ | b, u⟩
  · simp
  · simp

/-- Every value that a step returns, from any context and session, has `P`. -/
def Yields {α : Type} (P : α → Prop) (m : GenM α) : Prop :=
  ∀ ctx s a t, m.exec ctx s = (.ok a, t) → P a

namespace Yields

variable {α β : Type} {P : α → Prop} {Q : β → Prop}

theorem pure {a : α} (h : P a) : Yields P (Pure.pure a) := by
  intro ctx s a' t hrun
  rw [exec_pure] at hrun
  cases hrun
  exact h

theorem throw (e : GenerateError) : Yields P (MonadExcept.throw e : GenM α) := by
  intro ctx s a t hrun
  rw [exec_throw] at hrun
  cases hrun

theorem bind {m : GenM β} {k : β → GenM α} (hm : Yields Q m) (hk : ∀ x, Q x → Yields P (k x)) :
    Yields P (m >>= k) := by
  intro ctx s a t hrun
  obtain ⟨x, u, hx, hrest⟩ := exec_bind_eq_ok.1 hrun
  exact hk x (hm ctx s x u hx) ctx u a t hrest

/-- A bind whose continuation yields `P` after every value. -/
theorem bind_any {m : GenM β} {k : β → GenM α} (hk : ∀ x, Yields P (k x)) : Yields P (m >>= k) :=
  bind (Q := fun _ => True) (fun _ _ _ _ _ => trivial) fun x _ => hk x

theorem ite (c : Prop) [Decidable c] {x y : GenM α} (hx : c → Yields P x) (hy : ¬c → Yields P y) :
    Yields P (if c then x else y) := by
  by_cases h : c
  · rw [if_pos h]
    exact hx h
  · rw [if_neg h]
    exact hy h

end Yields

end GenM

open GenM

/-- Children whose code for a value slot, when there is one, is not empty. -/
def Children.ValuesFilled (ch : Children) : Prop :=
  ∀ slot order, Yields (fun r => ∀ code ∈ r, code ≠ "") (ch.value slot order)

/-- A slot's code or a nonempty default is not empty. -/
theorem Children.ValuesFilled.valueOr {ch : Children} (hch : ch.ValuesFilled) (slot : String)
    (order : Order) {d : String} (hd : d ≠ "") : Yields (· ≠ "") (ch.valueOr slot order d) := by
  unfold Children.valueOr
  refine .bind (hch slot order) fun r hr => .pure ?_
  cases r with
  | none => exact hd
  | some code => exact hr code rfl

/-! ### Texts that are never empty -/

theorem Text.quote_ne_empty (s : String) : Text.quote s ≠ "" := by
  simp [Text.quote, Text.quoteList]

theorem forceString_ne_empty (code : String) : forceString code ≠ "" := by
  unfold forceString
  split
  · rename_i hlit
    rintro rfl
    exact absurd hlit (by decide)
  · simp

theorem bracket_ne_empty {code : String} (h : code ≠ "") (inner outer : Order) :
    bracket code inner outer ≠ "" := by
  unfold bracket
  split
  · simp
  · exact h

/-! ### The rules -/

namespace Rules

variable (ch : Children) (b : Block)

theorem controlsIf_statement (kind : BlockKind) : Yields IsStatement (controlsIf kind ch b) := by
  unfold controlsIf
  refine .bind_any fun _ => .bind_any fun _ => ?_
  exact .ite _ (fun _ => .bind_any fun _ => .pure ⟨_, rfl⟩) fun _ => .pure ⟨_, rfl⟩

theorem logicCompare_value : Yields IsValue (logicCompare ch b) := by
  refine .bind_any fun op => ?_
  cases op <;> exact .bind_any fun _ => .bind_any fun _ => .pure ⟨_, _, rfl, by simp⟩

theorem logicOperation_value : Yields IsValue (logicOperation ch b) :=
  .bind_any fun _ => .bind_any fun _ => .bind_any fun _ => .pure ⟨_, _, rfl, by simp⟩

theorem logicNegate_value : Yields IsValue (logicNegate ch b) :=
  .bind_any fun _ => .pure ⟨_, _, rfl, by simp⟩

theorem logicBoolean_value : Yields IsValue (logicBoolean ch b) :=
  .bind_any fun v => .pure ⟨_, _, rfl, by cases v <;> simp⟩

theorem logicNull_value : Yields IsValue (logicNull ch b) := .pure ⟨_, _, rfl, by simp⟩

theorem logicTernary_value : Yields IsValue (logicTernary ch b) :=
  .bind_any fun _ => .bind_any fun _ => .bind_any fun _ => .pure ⟨_, _, rfl, by simp⟩

theorem repeatTimes_statement : Yields IsStatement (repeatTimes ch b) :=
  .bind_any fun _ => .bind_any fun _ => .bind_any fun _ => .bind_any fun _ =>
    .bind_any fun _ => .pure ⟨_, rfl⟩

theorem whileUntil_statement : Yields IsStatement (whileUntil ch b) :=
  .bind_any fun _ => .bind_any fun _ => .bind_any fun _ => .bind_any fun _ => .pure ⟨_, rfl⟩

theorem forRange_statement : Yields IsStatement (forRange ch b) := by
  refine .bind_any fun _ => .bind_any fun _ => .bind_any fun _ => .bind_any fun _ =>
    .bind_any fun _ => .bind_any fun _ => ?_
  -- with three numbers the loop is written at once; otherwise through temporaries
  split
  · exact .pure ⟨_, rfl⟩
  · exact .bind_any fun _ => .bind_any fun _ => .bind_any fun _ => .pure ⟨_, rfl⟩

theorem forEach_statement : Yields IsStatement (forEach ch b) :=
  .bind_any fun _ => .bind_any fun _ => .bind_any fun _ => .bind_any fun _ =>
    .bind_any fun _ => .bind_any fun _ => .pure ⟨_, rfl⟩

theorem flowStatement_statement : Yields IsStatement (flowStatement ch b) :=
  .bind_any fun _ => .bind_any fun _ => .bind_any fun _ => .pure ⟨_, rfl⟩

theorem defineProcedure_hoisted : Yields (· = .hoisted) (defineProcedure ch b) :=
  .bind_any fun _ => .bind_any fun _ => .bind_any fun _ => .bind_any fun _ =>
    .bind_any fun _ => .pure rfl

theorem callReturn_value : Yields IsValue (callReturn ch b) :=
  .bind_any fun _ => .bind_any fun _ => .pure ⟨_, _, rfl, by simp⟩

theorem callNoReturn_statement : Yields IsStatement (callNoReturn ch b) := by
  refine .bind (callReturn_value ch b) fun out hout => ?_
  obtain ⟨code, order, rfl, -⟩ := hout
  exact .pure ⟨_, rfl⟩

theorem ifReturn_statement : Yields IsStatement (ifReturn ch b) :=
  .bind_any fun _ => .bind_any fun _ => .bind_any fun _ => .pure ⟨_, rfl⟩

/-- A variable is its name, inline when the table's names are. -/
theorem variablesGet_value {ctx : Context} {s t : Session} {out : Output}
    (hs : s.names.KeysInline) (h : (variablesGet ch b).exec ctx s = (.ok out, t)) :
    out.IsValue := by
  obtain ⟨name, u, hname, hout⟩ := exec_bind_eq_ok.1 h
  rw [exec_variableName] at hname
  rw [exec_pure] at hout
  cases hname
  cases hout
  exact ⟨_, _, rfl, (hs.nameFor _ _ _).1.ne_empty⟩

theorem variablesSet_statement : Yields IsStatement (variablesSet ch b) :=
  .bind_any fun _ => .bind_any fun _ => .pure ⟨_, rfl⟩

theorem text_value : Yields IsValue (text ch b) := .pure ⟨_, _, rfl, Text.quote_ne_empty _⟩

theorem textMultiline_value : Yields IsValue (textMultiline ch b) := by
  refine .pure ⟨_, _, rfl, ?_⟩
  split
  · simp
  · exact (Text.inline_multilineQuote _).ne_empty

theorem textJoin_value : Yields IsValue (textJoin ch b) := by
  -- one item is coerced to a text, two are added, more are joined as an array
  unfold textJoin
  split
  · exact .pure ⟨_, _, rfl, by simp⟩
  · exact .bind_any fun _ => .pure ⟨_, _, rfl, forceString_ne_empty _⟩
  · exact .bind_any fun _ => .bind_any fun _ => .pure ⟨_, _, rfl, by simp⟩
  · exact .bind_any fun _ => .pure ⟨_, _, rfl, by simp⟩

theorem textAppend_statement : Yields IsStatement (textAppend ch b) :=
  .bind_any fun _ => .bind_any fun _ => .pure ⟨_, rfl⟩

theorem textLength_value : Yields IsValue (textLength ch b) :=
  .bind_any fun _ => .pure ⟨_, _, rfl, by simp⟩

theorem textIsEmpty_value : Yields IsValue (textIsEmpty ch b) :=
  .bind_any fun _ => .pure ⟨_, _, rfl, by simp⟩

theorem textIndexOf_value : Yields IsValue (textIndexOf ch b) :=
  .bind_any fun _ => .bind_any fun _ => .bind_any fun _ => .bind_any fun _ =>
    .ite _ (fun _ => .pure ⟨_, _, rfl, by simp⟩) fun _ => .pure ⟨_, _, rfl, by simp⟩

theorem textCharAt_value : Yields IsValue (textCharAt ch b) := by
  refine .bind_any fun place => .bind_any fun _ =>
    .bind (Q := (· ≠ "")) ?_ fun _ hcode => .pure ⟨_, _, rfl, hcode⟩
  -- every position writes a method or a helper call after the text
  cases place with
  | fromStart => exact .bind_any fun _ => .pure (by simp)
  | fromEnd => exact .bind_any fun _ => .pure (by simp)
  | first => exact .pure (by simp)
  | last => exact .pure (by simp)
  | random => exact .bind_any fun _ => .pure (by simp)

theorem textGetSubstring_value {ch : Children} (hch : ch.ValuesFilled) :
    Yields IsValue (textGetSubstring ch b) := by
  refine .bind (hch.valueOr "STRING" .call (by simp)) fun t ht => ?_
  refine .bind_any fun _ => .bind_any fun _ => ?_
  -- the whole text is the text's own code; every other part is a slice or a helper call
  refine .ite _ (fun _ => .pure ⟨_, _, rfl, ht⟩) fun _ => .ite _ (fun _ => ?_) fun _ => ?_
  · exact .bind_any fun _ => .bind_any fun _ => .pure ⟨_, _, rfl, by simp⟩
  · exact .bind_any fun _ => .bind_any fun _ => .bind_any fun _ => .pure ⟨_, _, rfl, by simp⟩

theorem textChangeCase_value {ch : Children} (hch : ch.ValuesFilled) :
    Yields IsValue (textChangeCase ch b) := by
  refine .bind_any fun _ => .bind (hch.valueOr "TEXT" _ (by simp)) fun t ht => ?_
  split
  · exact .pure ⟨_, _, rfl, by simp [ht]⟩
  · exact .bind_any fun _ => .pure ⟨_, _, rfl, by simp⟩

theorem textTrim_value {ch : Children} (hch : ch.ValuesFilled) : Yields IsValue (textTrim ch b) :=
  .bind_any fun _ => .bind (hch.valueOr "TEXT" _ (by simp)) fun _ ht =>
    .pure ⟨_, _, rfl, by simp [ht]⟩

theorem textPrint_statement : Yields IsStatement (textPrint ch b) :=
  .bind_any fun _ => .pure ⟨_, rfl⟩

theorem textPrompt_value : Yields IsValue (textPrompt ch b) :=
  .bind_any fun _ => .bind_any fun asNumber => .pure ⟨_, _, rfl, by cases asNumber <;> simp⟩

theorem textCount_value : Yields IsValue (textCount ch b) :=
  .bind_any fun _ => .bind_any fun _ => .bind_any fun _ => .pure ⟨_, _, rfl, by simp⟩

theorem textReplace_value : Yields IsValue (textReplace ch b) :=
  .bind_any fun _ => .bind_any fun _ => .bind_any fun _ => .bind_any fun _ =>
    .pure ⟨_, _, rfl, by simp⟩

theorem textReverse_value : Yields IsValue (textReverse ch b) :=
  .bind_any fun _ => .pure ⟨_, _, rfl, by simp⟩

theorem colourPicker_value : Yields IsValue (colourPicker ch b) :=
  .pure ⟨_, _, rfl, Text.quote_ne_empty _⟩

theorem colourRandom_value : Yields IsValue (colourRandom ch b) :=
  .bind_any fun _ => .pure ⟨_, _, rfl, by simp⟩

theorem colourRgb_value : Yields IsValue (colourRgb ch b) :=
  .bind_any fun _ => .bind_any fun _ => .bind_any fun _ => .bind_any fun _ =>
    .pure ⟨_, _, rfl, by simp⟩

theorem colourBlend_value : Yields IsValue (colourBlend ch b) :=
  .bind_any fun _ => .bind_any fun _ => .bind_any fun _ => .bind_any fun _ =>
    .pure ⟨_, _, rfl, by simp⟩

end Rules

namespace Output.Fits

variable {k : BlockKind} {m : GenM Output} {ctx : Context} {s t : Session} {out : Output}

theorem of_yields_value (hk : k.isValue = true) (hm : Yields IsValue m)
    (h : m.exec ctx s = (.ok out, t)) : out.Fits k :=
  .of_value hk (hm ctx s out t h)

theorem of_yields_statement (hv : k.isValue = false) (hd : k.isDefinition = false)
    (hm : Yields IsStatement m) (h : m.exec ctx s = (.ok out, t)) : out.Fits k :=
  .of_statement hv hd (hm ctx s out t h)

theorem of_yields_hoisted (hd : k.isDefinition = true) (hm : Yields (· = .hoisted) m)
    (h : m.exec ctx s = (.ok out, t)) : out.Fits k :=
  .of_definition hd (hm ctx s out t h)

end Output.Fits

/-- **Every rule gives back what its kind says.**  From a session whose table has given each key
an inline name, with children whose code is never empty, the rule of every kind that returns
gives a nonempty expression for a kind of value, nothing in place for a procedure definition,
and statements for every other kind. -/
theorem BlockKind.rule_fits {ch : Children} (hch : ch.ValuesFilled) {ctx : Context} {s t : Session} :
    ∀ (k : BlockKind) (b : Block) (out : Output), (k.rule ch b).exec ctx s = (.ok out, t) →
      s.names.KeysInline → out.Fits k
  | .controlsIf, b, _, h, _ => .of_yields_statement rfl rfl (Rules.controlsIf_statement ch b _) h
  | .controlsIfElse, b, _, h, _ => .of_yields_statement rfl rfl (Rules.controlsIf_statement ch b _) h
  | .logicCompare, b, _, h, _ => .of_yields_value rfl (Rules.logicCompare_value ch b) h
  | .logicOperation, b, _, h, _ => .of_yields_value rfl (Rules.logicOperation_value ch b) h
  | .logicNegate, b, _, h, _ => .of_yields_value rfl (Rules.logicNegate_value ch b) h
  | .logicBoolean, b, _, h, _ => .of_yields_value rfl (Rules.logicBoolean_value ch b) h
  | .logicNull, b, _, h, _ => .of_yields_value rfl (Rules.logicNull_value ch b) h
  | .logicTernary, b, _, h, _ => .of_yields_value rfl (Rules.logicTernary_value ch b) h
  | .repeatExt, b, _, h, _ => .of_yields_statement rfl rfl (Rules.repeatTimes_statement ch b) h
  | .repeatTimes, b, _, h, _ => .of_yields_statement rfl rfl (Rules.repeatTimes_statement ch b) h
  | .whileUntil, b, _, h, _ => .of_yields_statement rfl rfl (Rules.whileUntil_statement ch b) h
  | .forRange, b, _, h, _ => .of_yields_statement rfl rfl (Rules.forRange_statement ch b) h
  | .forEach, b, _, h, _ => .of_yields_statement rfl rfl (Rules.forEach_statement ch b) h
  | .flowStatement, b, _, h, _ => .of_yields_statement rfl rfl (Rules.flowStatement_statement ch b) h
  | .defineReturn, b, _, h, _ => .of_yields_hoisted rfl (Rules.defineProcedure_hoisted ch b) h
  | .defineNoReturn, b, _, h, _ => .of_yields_hoisted rfl (Rules.defineProcedure_hoisted ch b) h
  | .callReturn, b, _, h, _ => .of_yields_value rfl (Rules.callReturn_value ch b) h
  | .callNoReturn, b, _, h, _ => .of_yields_statement rfl rfl (Rules.callNoReturn_statement ch b) h
  | .ifReturn, b, _, h, _ => .of_yields_statement rfl rfl (Rules.ifReturn_statement ch b) h
  | .variablesGet, b, _, h, hs => .of_value rfl (Rules.variablesGet_value ch b hs h)
  | .variablesGetDynamic, b, _, h, hs => .of_value rfl (Rules.variablesGet_value ch b hs h)
  | .variablesSet, b, _, h, _ => .of_yields_statement rfl rfl (Rules.variablesSet_statement ch b) h
  | .variablesSetDynamic, b, _, h, _ =>
    .of_yields_statement rfl rfl (Rules.variablesSet_statement ch b) h
  | .text, b, _, h, _ => .of_yields_value rfl (Rules.text_value ch b) h
  | .textMultiline, b, _, h, _ => .of_yields_value rfl (Rules.textMultiline_value ch b) h
  | .textJoin, b, _, h, _ => .of_yields_value rfl (Rules.textJoin_value ch b) h
  | .textAppend, b, _, h, _ => .of_yields_statement rfl rfl (Rules.textAppend_statement ch b) h
  | .textLength, b, _, h, _ => .of_yields_value rfl (Rules.textLength_value ch b) h
  | .textIsEmpty, b, _, h, _ => .of_yields_value rfl (Rules.textIsEmpty_value ch b) h
  | .textIndexOf, b, _, h, _ => .of_yields_value rfl (Rules.textIndexOf_value ch b) h
  | .textCharAt, b, _, h, _ => .of_yields_value rfl (Rules.textCharAt_value ch b) h
  | .textGetSubstring, b, _, h, _ => .of_yields_value rfl (Rules.textGetSubstring_value b hch) h
  | .textChangeCase, b, _, h, _ => .of_yields_value rfl (Rules.textChangeCase_value b hch) h
  | .textTrim, b, _, h, _ => .of_yields_value rfl (Rules.textTrim_value b hch) h
  | .textPrint, b, _, h, _ => .of_yields_statement rfl rfl (Rules.textPrint_statement ch b) h
  | .textPromptExt, b, _, h, _ => .of_yields_value rfl (Rules.textPrompt_value ch b) h
  | .textPrompt, b, _, h, _ => .of_yields_value rfl (Rules.textPrompt_value ch b) h
  | .textCount, b, _, h, _ => .of_yields_value rfl (Rules.textCount_value ch b) h
  | .textReplace, b, _, h, _ => .of_yields_value rfl (Rules.textReplace_value ch b) h
  | .textReverse, b, _, h, _ => .of_yields_value rfl (Rules.textReverse_value ch b) h
  | .colourPicker, b, _, h, _ => .of_yields_value rfl (Rules.colourPicker_value ch b) h
  | .colourRandom, b, _, h, _ => .of_yields_value rfl (Rules.colourRandom_value ch b) h
  | .colourRgb, b, _, h, _ => .of_yields_value rfl (Rules.colourRgb_value ch b) h
  | .colourBlend, b, _, h, _ => .of_yields_value rfl (Rules.colourBlend_value ch b) h

end BlockScribe
