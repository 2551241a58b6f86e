import BlockScribe.Proofs.Generate.IndexRuns
/-!
# Each rule in both conventions

A rule is run in a context counting positions from zero and in the same context counting from
one, with children that run alike (`ChildrenRecount`).  It makes values of both runs
(`ValueCodes`) of one order, statements recounted, or nothing in place (`OutputsRecounted`).

The convention is read by two rules only.  A position given in a slot is written by
`adjustedIndex`: the slot's code shifted by zero or one, and by one less counting from one, an
empty slot standing for `0` and `1` (`RuleRecountable.adjustedIndex`).  A position found by
`textIndexOf` has one added counting from one, which changes its order; both codes are
opaque to the tests of code, so the brackets they get keep them values of both runs.

Every other rule writes the same text around its children's code.  Its tests of that code
answer alike (`Text.TestedAlike`): a loop bound is stored, a number is folded, a text is coerced
and a part of a text is taken inline exactly when it is in the other run.  A value that ends
with a child's value is no string literal after the operator before it
(`ValueCodes.append_lead`); every other value ends with a bracket, a name or a word.
-/

namespace BlockScribe

/-- What a rule needs to run alike in both conventions: a context counting from zero and
children that run alike. -/
structure RuleRecountable (ctx : Context) (ch : Children) : Prop where
  zero : ctx.oneBased = false
  children : ChildrenRecount ch

namespace RuleRecountable

variable {ctx : Context} {ch : Children} {b : Block} (h : RuleRecountable ctx ch)
include h

theorem value (slot : String) (order : Order) :
    Recounts ctx (Option.Rel ValueCodes) (ch.value slot order) (ch.value slot order) :=
  h.children.value ctx h.zero slot order

theorem body (slot : String) : Recounts ctx StatementsRecounted (ch.body slot) (ch.body slot) :=
  h.children.body ctx h.zero slot

/-- A slot's value, or a default that is solid. -/
theorem valueOr (slot : String) (order : Order) {d : String} (hd : Text.Solid d.toList) :
    Recounts ctx ValueCodes (ch.valueOr slot order d) (ch.valueOr slot order d) := by
  unfold Children.valueOr
  refine (h.value slot order).bind fun o₀ o₁ ho => Recounts.pure ?_
  cases ho with
  | some hv => exact hv
  | none => exact .same hd

/-- **A position given in a slot is recounted**: the slot's code, asked for at the orders of the
two shifts, shifted by one less counting from one, and `0` and `1` for an empty slot. -/
theorem adjustedIndex (slot : String) {delta : Int} (hdelta : delta = 0 ∨ delta = 1)
    (negate : Bool) (order : Order) :
    Recounts ctx Recounted (BlockScribe.adjustedIndex ch slot delta negate order)
      (BlockScribe.adjustedIndex ch slot delta negate order) := by
  unfold BlockScribe.adjustedIndex Children.valueOr
  refine Recounts.read_bind ?_
  simp only [h.zero, Context.countingFromOne_oneBased, Bool.false_eq_true, if_false, if_true,
    bind_assoc, pure_bind]
  refine (h.children.position ctx h.zero slot _ _).bind fun p₀ p₁ hp => Recounts.pure ?_
  cases hp with
  | some hp => exact .position hp hdelta negate order
  | none => exact .firstPosition hdelta negate order

omit h in
/-- A bound kept as it is, or stored in a temporary by a line of its own. -/
theorem stored (keep : Bool) (base : String) {code₀ code₁ : String}
    (hcode : Recounted code₀ code₁) :
    Recounts ctx (fun p₀ p₁ => Recounted p₀.1 p₁.1 ∧ Recounted p₀.2 p₁.2)
      (Rules.stored keep base code₀) (Rules.stored keep base code₁) := by
  unfold Rules.stored
  cases keep
  · exact (Recounts.temporary base).bind_eq fun t =>
      Recounts.pure ⟨.same t, ((Recounted.same_append _ hcode).append_same _)⟩
  · exact Recounts.pure ⟨hcode, .same ""⟩

omit h in
theorem value_pure {c₀ c₁ : String} (hc : ValueCodes c₀ c₁) (o : Order) :
    Recounts ctx OutputsRecounted (pure (.value c₀ o)) (pure (.value c₁ o)) :=
  Recounts.pure ⟨hc, .inl rfl⟩

omit h in
theorem statement_pure {c₀ c₁ : String} (hc : StatementsRecounted c₀ c₁) :
    Recounts ctx OutputsRecounted (pure (.statement c₀)) (pure (.statement c₁)) :=
  Recounts.pure hc

/-- `if` arms: each arm's head holds a condition of both runs, its body is recounted. -/
theorem controlsIf (kind : BlockKind) :
    Recounts ctx OutputsRecounted (Rules.controlsIf kind ch b) (Rules.controlsIf kind ch b) := by
  unfold Rules.controlsIf
  refine Recounts.read_bind ?_
  simp only [Context.countingFromOne_earlyExitSuffix, Context.countingFromOne_prefixFor,
    Context.countingFromOne_suffixFor]
  refine (Recounts.forIn Recounted _ (.same _) fun n a₀ a₁ ha => ?_).bind fun code₀ code₁ hcode => ?_
  · -- one arm, after an `else` unless it is the first
    refine (h.valueOr _ _ (Text.solid_of_endsPlain (by decide))).bind fun cond₀ cond₁ hcond => ?_
    refine (h.body _).bind fun br₀ br₁ hbr => ?_
    refine Recounts.ite _ (fun _ => Recounts.pure ?_) fun _ => Recounts.pure ?_
    · exact ((((((ha.append_same _).append_same _).append hcond.alike.recounted).append_same _).append_same
        _).append hbr.recounted).append_same _
    · exact (((((ha.append_same _).append hcond.alike.recounted).append_same _).append_same _).append
        hbr.recounted).append_same _
  · refine Recounts.ite _ (fun _ => (h.body _).bind fun br₀ br₁ hbr => statement_pure ?_)
      fun _ => statement_pure (.closed hcode (by decide))
    exact .closed ((((hcode.append_same _).append_same _).append hbr.recounted).append_same _)
      (by decide)

theorem logicCompare :
    Recounts ctx OutputsRecounted (Rules.logicCompare ch b) (Rules.logicCompare ch b) := by
  unfold Rules.logicCompare
  refine (Recounts.choose _ _ _).bind_eq fun op => ?_
  cases op <;>
  exact (h.valueOr _ _ (Text.solid_of_endsPlain (by decide))).bind fun x₀ x₁ hx =>
    (h.valueOr _ _ (Text.solid_of_endsPlain (by decide))).bind fun y₀ y₁ hy =>
      value_pure (.append_lead (hx.alike.append_same _ |>.append_same _ |>.append_same _)
        (hx.lead₀.append_text _ (by decide) |>.append_text _ (by decide) |>.append_text _ (by decide))
        (hx.lead₁.append_text _ (by decide) |>.append_text _ (by decide) |>.append_text _ (by decide))
        hy) _

/-- A connective: an operand is a child's value, the neutral element, or `false`. -/
theorem logicOperation :
    Recounts ctx OutputsRecounted (Rules.logicOperation ch b) (Rules.logicOperation ch b) := by
  unfold Rules.logicOperation
  refine (Recounts.choose _ _ _).bind_eq fun isAnd => ?_
  refine (h.value _ _).bind fun x₀ x₁ hx => (h.value _ _).bind fun y₀ y₁ hy => ?_
  have hliteral : ∀ {s : String}, Text.endsPlain s.toList = true → ValueCodes s s :=
    fun hs => .same (Text.solid_of_endsPlain hs)
  cases isAnd <;> rcases hx with hx | _ <;> rcases hy with hy | _ <;> dsimp only <;>
  exact value_pure (.append_lead
    ((by first | exact hx | exact hliteral (by decide) : ValueCodes _ _).alike.append_same _
      |>.append_same _ |>.append_same _)
    ((by first | exact hx.lead₀ | exact .of_endsPlain (by decide) : Text.Lead _).append_text _ (by decide)
      |>.append_text _ (by decide) |>.append_text _ (by decide))
    ((by first | exact hx.lead₁ | exact .of_endsPlain (by decide) : Text.Lead _).append_text _ (by decide)
      |>.append_text _ (by decide) |>.append_text _ (by decide))
    (by first | exact hy | exact hliteral (by decide))) _

theorem logicNegate :
    Recounts ctx OutputsRecounted (Rules.logicNegate ch b) (Rules.logicNegate ch b) :=
  (h.valueOr _ _ (Text.solid_of_endsPlain (by decide))).bind fun _ _ hx =>
    value_pure (.append_lead (.same _) (.of_endsPlain (by decide)) (.of_endsPlain (by decide)) hx) _

omit h in
theorem logicBoolean :
    Recounts ctx OutputsRecounted (Rules.logicBoolean ch b) (Rules.logicBoolean ch b) :=
  (Recounts.choose _ _ _).bind_eq fun v =>
    value_pure (.same (Text.solid_of_endsPlain (by cases v <;> decide))) _

omit h in
theorem logicNull :
    Recounts ctx OutputsRecounted (Rules.logicNull ch b) (Rules.logicNull ch b) :=
  value_pure (.same (Text.solid_of_endsPlain (by decide))) _

theorem logicTernary :
    Recounts ctx OutputsRecounted (Rules.logicTernary ch b) (Rules.logicTernary ch b) :=
  (h.valueOr _ _ (Text.solid_of_endsPlain (by decide))).bind fun _ _ hc =>
    (h.valueOr _ _ (Text.solid_of_endsPlain (by decide))).bind fun _ _ ht =>
      (h.valueOr _ _ (Text.solid_of_endsPlain (by decide))).bind fun _ _ he =>
        value_pure (.append_lead (hc.alike.append_same _ |>.append ht.alike |>.append_same _)
          (hc.lead₀.append_text _ (by decide) |>.append_text _ ht.solid₀.getLast_ne
            |>.append_text _ (by decide))
          (hc.lead₁.append_text _ (by decide) |>.append_text _ ht.solid₁.getLast_ne
            |>.append_text _ (by decide)) he) _

/-- A loop that repeats its body: the bound is stored first unless it is a word or a number, in
both runs alike. -/
theorem repeatTimes :
    Recounts ctx OutputsRecounted (Rules.repeatTimes ch b) (Rules.repeatTimes ch b) := by
  unfold Rules.repeatTimes
  refine Recounts.bind (R := Alike) ?_ fun rep₀ rep₁ hrep => ?_
  · cases b.field? "TIMES" with
    | none =>
      exact (h.valueOr _ _ (Text.solid_of_endsPlain (by decide))).imp fun _ _ hv => hv.alike
    | some raw =>
      dsimp only
      cases parseNumber raw with
      | none => exact Recounts.throw _
      | some v => exact Recounts.pure (.same _)
  · refine (h.body _).bind fun br₀ br₁ hbr => Recounts.read_bind ?_
    simp only [Context.countingFromOne_addLoopTrap]
    refine (Recounts.temporary _).bind_eq fun counter => ?_
    rw [← hrep.tested.isWord_eq, ← hrep.tested.isNumber_eq]
    refine (stored _ _ hrep.recounted).bind fun p₀ p₁ hp => statement_pure ?_
    obtain ⟨bound₀, setup₀⟩ := p₀
    obtain ⟨bound₁, setup₁⟩ := p₁
    obtain ⟨hbound, hsetup⟩ := hp
    exact .closed (hsetup.append_same _ |>.append_same _ |>.append_same _ |>.append_same _
      |>.append_same _ |>.append hbound |>.append_same _ |>.append_same _ |>.append_same _
      |>.append (hbr.recounted.addLoopTrap _ _)) (by decide)

theorem whileUntil :
    Recounts ctx OutputsRecounted (Rules.whileUntil ch b) (Rules.whileUntil ch b) := by
  unfold Rules.whileUntil
  refine (Recounts.choose _ _ _).bind_eq fun untilMode => ?_
  refine (h.valueOr _ _ (Text.solid_of_endsPlain (by decide))).bind fun c₀ c₁ hc => ?_
  refine (h.body _).bind fun br₀ br₁ hbr => Recounts.read_bind ?_
  simp only [Context.countingFromOne_addLoopTrap]
  have hcond : Recounted (if untilMode then "!" ++ c₀ else c₀) (if untilMode then "!" ++ c₁ else c₁) := by
    cases untilMode
    · exact hc.alike.recounted
    · exact Recounted.same_append _ hc.alike.recounted
  exact statement_pure (.closed (Recounted.same_append _ hcond |>.append_same _
    |>.append (hbr.recounted.addLoopTrap _ _)) (by decide))

omit h in
/-- A number is read from code of both runs only where the code is the same. -/
theorem numeral?_eq {a₀ a₁ : String} (h : Text.TestedAlike a₀ a₁) :
    Rules.numeral? a₁ = Rules.numeral? a₀ := by
  unfold Rules.numeral?
  rw [← h.isNumber_eq]
  split
  · rename_i hnum
    rw [h.parse_of_isNumber hnum]
  · rfl

/-- A counting loop: its bounds are numbers in both runs or in neither, stored alike, and the
step's sign is fixed up alike. -/
theorem forRange :
    Recounts ctx OutputsRecounted (Rules.forRange ch b) (Rules.forRange ch b) := by
  unfold Rules.forRange
  refine Recounts.read_bind ?_
  simp only [Context.countingFromOne_addLoopTrap, Context.countingFromOne_indent]
  refine (Recounts.variableName _).bind_same fun var _ => ?_
  refine (h.valueOr _ _ (Text.solid_of_endsPlain (by decide))).bind fun start₀ start₁ hstart => ?_
  refine (h.valueOr _ _ (Text.solid_of_endsPlain (by decide))).bind fun stop₀ stop₁ hstop => ?_
  refine (h.valueOr _ _ (Text.solid_of_endsPlain (by decide))).bind fun step₀ step₁ hstep => ?_
  refine (h.body _).bind fun br₀ br₁ hbr => ?_
  have htrap := hbr.recounted.addLoopTrap ctx.config b
  rw [numeral?_eq hstart.alike.tested, numeral?_eq hstop.alike.tested,
    numeral?_eq hstep.alike.tested]
  rcases Rules.numeral? start₀ with _ | x <;> rcases Rules.numeral? stop₀ with _ | y <;>
    rcases Rules.numeral? step₀ with _ | z
  case some.some.some =>
    exact statement_pure (.closed (Recounted.same_append _ hstart.alike.recounted |>.append_same _
      |>.append_same _ |>.append_same _ |>.append hstop.alike.recounted |>.append_same _
      |>.append_same _ |>.append_same _ |>.append_same _ |>.append htrap) (by decide))
  all_goals
    rw [← hstart.alike.tested.isWord_eq, ← hstart.alike.tested.isNumber_eq,
      ← hstop.alike.tested.isWord_eq, ← hstop.alike.tested.isNumber_eq]
    refine (stored _ _ hstart.alike.recounted).bind fun p₀ p₁ hp => ?_
    obtain ⟨startVar₀, startSetup₀⟩ := p₀
    obtain ⟨startVar₁, startSetup₁⟩ := p₁
    obtain ⟨hsv, hss⟩ := hp
    refine (stored _ _ hstop.alike.recounted).bind fun p₀ p₁ hp => ?_
    obtain ⟨stopVar₀, stopSetup₀⟩ := p₀
    obtain ⟨stopVar₁, stopSetup₁⟩ := p₁
    obtain ⟨htv, hts⟩ := hp
    refine (Recounts.temporary _).bind_eq fun inc => statement_pure (.closed ?_ (by decide))
    dsimp only at hsv hss htv hts ⊢
    -- the magnitude of the step: its number, or the step's own code
    have hdecl := by
      first
      | exact Recounted.same ("var " ++ inc ++ " = " ++ formatNumber z.abs ++ ";\n")
      | exact Recounted.same_append ("var " ++ inc ++ " = Math.abs(") hstep.alike.recounted
          |>.append_same ");\n"
    -- one line of the chain for each line of code the rule adds: the setups and the step, the
    -- direction test, its fix-up, and the loop
    exact hss.append hts |>.append hdecl
      |>.append_same _ |>.append hsv |>.append_same _ |>.append htv |>.append_same _
      |>.append_same _ |>.append_same _ |>.append_same _ |>.append_same _ |>.append_same _
      |>.append_same _
      |>.append_same _ |>.append_same _ |>.append_same _ |>.append hsv |>.append_same _
      |>.append_same _ |>.append_same _ |>.append_same _ |>.append_same _ |>.append htv
      |>.append_same _ |>.append_same _ |>.append_same _ |>.append htv |>.append_same _
      |>.append_same _ |>.append_same _ |>.append_same _ |>.append_same _ |>.append htrap

/-- A loop over a list: the list is stored alike and the element assigned by the same line. -/
theorem forEach :
    Recounts ctx OutputsRecounted (Rules.forEach ch b) (Rules.forEach ch b) := by
  unfold Rules.forEach
  refine Recounts.read_bind ?_
  simp only [Context.countingFromOne_addLoopTrap, Context.countingFromOne_indent]
  refine (Recounts.variableName _).bind_same fun var _ => ?_
  refine (h.valueOr _ _ (Text.solid_of_endsPlain (by decide))).bind fun list₀ list₁ hlist => ?_
  refine (h.body _).bind fun br₀ br₁ hbr => ?_
  rw [← hlist.alike.tested.isWord_eq]
  refine (stored _ _ hlist.alike.recounted).bind fun p₀ p₁ hp => ?_
  obtain ⟨listVar₀, setup₀⟩ := p₀
  obtain ⟨listVar₁, setup₁⟩ := p₁
  obtain ⟨hlv, hsetup⟩ := hp
  dsimp only at hlv hsetup
  refine (Recounts.temporary _).bind_eq fun indexVar => statement_pure (.closed ?_ (by decide))
  have helement := Recounted.same_append (ctx.config.indent ++ var ++ " = ") hlv |>.append_same "["
    |>.append_same indexVar |>.append_same "];\n" |>.append (hbr.recounted.addLoopTrap ctx.config b)
  exact hsetup.append_same _ |>.append_same _ |>.append_same _ |>.append hlv |>.append_same _
    |>.append helement

omit h in
/-- `break` or `continue`: the same text in both runs. -/
theorem flowStatement :
    Recounts ctx OutputsRecounted (Rules.flowStatement ch b) (Rules.flowStatement ch b) := by
  unfold Rules.flowStatement
  refine (Recounts.choose _ _ _).bind_eq fun isBreak => Recounts.read_bind ?_
  simp only [Context.countingFromOne_prefixFor, Context.countingFromOne_suffixFor]
  exact Recounts.surroundingLoop.bind_eq fun _ => statement_pure (.same _)

/-- A procedure is hoisted: the code it registers is recounted, the entry snippets before its
`return` written in both runs or in neither. -/
theorem defineProcedure :
    Recounts ctx OutputsRecounted (Rules.defineProcedure ch b) (Rules.defineProcedure ch b) := by
  unfold Rules.defineProcedure
  refine (Recounts.procedureName _).bind_eq fun name => Recounts.read_bind ?_
  simp only [Context.countingFromOne_prefixFor, Context.countingFromOne_suffixFor,
    Context.countingFromOne_indent, Context.countingFromOne_indentedLoopTrap,
    Context.countingFromOne_workspace, Context.countingFromOne_reach]
  refine (Recounts.inChildScope (R := fun p₀ p₁ => StatementsRecounted p₀.1 p₁.1 ∧
      Option.Rel ValueCodes p₀.2 p₁.2) fun sc => ?_).bind fun p₀ p₁ hp => ?_
  · -- the body and the returned value, in the procedure's own scope
    have hsc : RuleRecountable { ctx with scope := sc } ch := ⟨h.zero, h.children⟩
    exact (hsc.body _).bind fun br₀ br₁ hbr =>
      (hsc.value _ _).bind fun r₀ r₁ hr => Recounts.pure ⟨hbr, hr⟩
  obtain ⟨branch₀, returned₀⟩ := p₀
  obtain ⟨branch₁, returned₁⟩ := p₁
  obtain ⟨hbr, hret⟩ := hp
  dsimp only at hbr hret
  refine (Recounts.mapM Recounts.variableName _).bind_same fun args _ => ?_
  cases hret with
  | none =>
    refine (Recounts.defineProcedure name ?_).bind_eq fun _ => Recounts.pure trivial
    exact (Recounted.same _).append hbr.recounted |>.append_same _ |>.append_same _ |>.append_same _
  | some hv =>
    dsimp only
    rw [hbr.isEmpty]
    refine (Recounts.defineProcedure name ?_).bind_eq fun _ => Recounts.pure trivial
    exact (Recounted.same _).append hbr.recounted |>.append_same _
      |>.append (Recounted.same_append _ hv.alike.recounted |>.append_same _) |>.append_same _

/-- A call: its arguments are values of both runs, or `null`. -/
theorem callReturn :
    Recounts ctx OutputsRecounted (Rules.callReturn ch b) (Rules.callReturn ch b) := by
  unfold Rules.callReturn
  refine (Recounts.procedureName _).bind_eq fun name => ?_
  refine (Recounts.mapM_forall₂ (fun _ => h.valueOr _ _ (Text.solid_of_endsPlain (by decide))) _).bind
    fun args₀ args₁ hargs => value_pure (.call ?_ (by simp) (by simp)) _
  exact Recounted.same_append _ (Recounted.intercalate _ (hargs.imp fun _ _ ha => ha.alike.recounted))

theorem callNoReturn :
    Recounts ctx OutputsRecounted (Rules.callNoReturn ch b) (Rules.callNoReturn ch b) := by
  unfold Rules.callNoReturn
  refine h.callReturn.bind fun o₀ o₁ ho => ?_
  cases o₀ with
  | value c₀ order₀ =>
    cases o₁ with
    | value c₁ order₁ => exact statement_pure (.closed ho.1.alike.recounted (by decide))
    | statement => exact (ho : False).elim
    | hoisted => exact (ho : False).elim
  | statement c₀ =>
    cases o₁ with
    | statement => exact Recounts.pure ho
    | value => exact (ho : False).elim
    | hoisted => exact (ho : False).elim
  | hoisted =>
    cases o₁ with
    | hoisted => exact Recounts.pure ho
    | value => exact (ho : False).elim
    | statement => exact (ho : False).elim

/-- `if (c) return v;`: the condition and the returned value are values of both runs. -/
theorem ifReturn :
    Recounts ctx OutputsRecounted (Rules.ifReturn ch b) (Rules.ifReturn ch b) := by
  unfold Rules.ifReturn
  refine Recounts.read_bind ?_
  simp only [Context.countingFromOne_indent, Context.countingFromOne_earlyExitSuffix]
  refine (h.valueOr _ _ (Text.solid_of_endsPlain (by decide))).bind fun cond₀ cond₁ hcond => ?_
  refine Recounts.bind (R := Recounted) ?_ fun ret₀ ret₁ hret => statement_pure ?_
  · refine Recounts.ite _ (fun _ => (h.valueOr _ _ (Text.solid_of_endsPlain (by decide))).bind
      fun v₀ v₁ hv => Recounts.pure ?_) fun _ => Recounts.pure (.same _)
    exact Recounted.same_append _ hv.alike.recounted |>.append_same _
  · exact .closed (Recounted.same_append _ hcond.alike.recounted |>.append_same _ |>.append_same _
      |>.append hret) (by decide)

omit h in
theorem variablesGet :
    Recounts ctx OutputsRecounted (Rules.variablesGet ch b) (Rules.variablesGet ch b) :=
  (Recounts.variableName _).bind_same fun _ hv => value_pure (.same (Text.solid_of_endsPlain hv)) _

theorem variablesSet :
    Recounts ctx OutputsRecounted (Rules.variablesSet ch b) (Rules.variablesSet ch b) :=
  (h.valueOr _ _ (Text.solid_of_endsPlain (by decide))).bind fun _ _ hv =>
    (Recounts.variableName _).bind_same fun var _ =>
      statement_pure (.closed (Recounted.same_append (var ++ " = ") hv.alike.recounted) (by decide))

omit h in
theorem text : Recounts ctx OutputsRecounted (Rules.text ch b) (Rules.text ch b) :=
  value_pure (.same (Text.solid_quote _)) _

omit h in
theorem textMultiline :
    Recounts ctx OutputsRecounted (Rules.textMultiline ch b) (Rules.textMultiline ch b) := by
  unfold Rules.textMultiline
  refine value_pure (.same ?_) _
  split
  · exact Text.solid_of_endsPlain (Text.endsPlain_append _ (by decide))
  · exact Text.solid_multilineQuote _

/-- Joined texts: one coerced, two added, or more joined as an array. -/
theorem textJoin : Recounts ctx OutputsRecounted (Rules.textJoin ch b) (Rules.textJoin ch b) := by
  unfold Rules.textJoin
  generalize connectedArity b (b.extra.itemCount.getD 2) ["ADD"] = k
  rcases k with _ | _ | _ | k
  · exact value_pure (.same Text.solid_emptyQuote) _
  · exact (h.valueOr _ _ Text.solid_emptyQuote).bind fun _ _ he => value_pure he.forceString _
  · exact (h.valueOr _ _ Text.solid_emptyQuote).bind fun _ _ hx =>
      (h.valueOr _ _ Text.solid_emptyQuote).bind fun _ _ hy =>
        value_pure (.append_lead (hx.forceString.alike.append_same _)
          (hx.forceString.lead₀.append_text _ (by decide))
          (hx.forceString.lead₁.append_text _ (by decide)) hy.forceString) _
  · exact (Recounts.mapM_forall₂ (fun _ => h.valueOr _ _ Text.solid_emptyQuote) _).bind
      fun _ _ hes => value_pure (.bracketed (Recounted.same_append _
        (Recounted.intercalate _ (hes.imp fun _ _ he => he.alike.recounted)) |>.append_same _)
        (by simp) (by simp) (Text.endsPlain_append _ (by decide))
        (Text.endsPlain_append _ (by decide))) _

theorem textAppend :
    Recounts ctx OutputsRecounted (Rules.textAppend ch b) (Rules.textAppend ch b) :=
  (Recounts.variableName _).bind_same fun var _ => (h.valueOr _ _ Text.solid_emptyQuote).bind
    fun _ _ hv => statement_pure
      (.closed (Recounted.same_append (var ++ " += ") hv.forceString.alike.recounted) (by decide))

theorem textLength :
    Recounts ctx OutputsRecounted (Rules.textLength ch b) (Rules.textLength ch b) :=
  (h.valueOr _ _ Text.solid_emptyQuote).bind fun _ _ ht =>
    value_pure (.append_plain ht.alike (by decide)) _

theorem textIsEmpty :
    Recounts ctx OutputsRecounted (Rules.textIsEmpty ch b) (Rules.textIsEmpty ch b) :=
  (h.valueOr _ _ Text.solid_emptyQuote).bind fun _ _ ht =>
    value_pure (.append_plain (Alike.same_append _ ht.alike) (by decide)) _

/-- **A position found is recounted**: counting from one it has one added, and both codes hold a
bracket and end plainly, so they are opaque whatever order each is bracketed for. -/
theorem textIndexOf :
    Recounts ctx OutputsRecounted (Rules.textIndexOf ch b) (Rules.textIndexOf ch b) := by
  unfold Rules.textIndexOf
  refine (Recounts.choose _ _ _).bind_eq fun first => ?_
  refine (h.valueOr _ _ Text.solid_emptyQuote).bind fun n₀ n₁ hn =>
    (h.valueOr _ _ Text.solid_emptyQuote).bind fun t₀ t₁ ht => Recounts.read_bind ?_
  simp only [h.zero, Context.countingFromOne_oneBased, Bool.false_eq_true, if_false, if_true]
  have hfound := Recounted.found ht.alike.recounted hn.alike.recounted first
  have hparen₀ : '(' ∈ (foundAt t₀ n₀ first).toList := by simp [foundAt]
  have hparen₁ : '(' ∈ (foundAt t₁ n₁ first ++ " + 1").toList := by simp [foundAt]
  have hends₀ : Text.endsPlain (foundAt t₀ n₀ first).toList = true :=
    Text.endsPlain_append _ (by decide)
  have hends₁ : Text.endsPlain (foundAt t₁ n₁ first ++ " + 1").toList = true :=
    Text.endsPlain_append _ (by decide)
  exact Recounts.pure ⟨.bracketed hfound hparen₀ hparen₁ hends₀ hends₁,
    .inr ⟨.of_endsPlain hparen₀ hends₀, .of_endsPlain hparen₁ hends₁⟩⟩

/-- A letter of a text: counting from the start or the end, its position is recounted. -/
theorem textCharAt :
    Recounts ctx OutputsRecounted (Rules.textCharAt ch b) (Rules.textCharAt ch b) := by
  unfold Rules.textCharAt
  refine (Recounts.choose _ _ _).bind_eq fun w => (h.valueOr _ _ Text.solid_emptyQuote).bind
    fun t₀ t₁ ht => ?_
  refine Recounts.bind (R := ValueCodes) ?_ fun _ _ hcode => value_pure hcode _
  cases w with
  | fromStart =>
    exact (h.adjustedIndex _ (.inl rfl) _ _).bind fun _ _ hi => Recounts.pure
      (.call (ht.alike.recounted.append_same _ |>.append hi) (by simp) (by simp))
  | fromEnd =>
    exact (h.adjustedIndex _ (.inr rfl) _ _).bind fun _ _ hi => Recounts.pure (.bracketed
      (ht.alike.recounted.append_same _ |>.append hi |>.append_same _) (by simp) (by simp)
      (Text.endsPlain_append _ (by decide)) (Text.endsPlain_append _ (by decide)))
  | first => exact Recounts.pure (.append_plain ht.alike (by decide))
  | last => exact Recounts.pure (.append_plain ht.alike (by decide))
  | random =>
    exact (Recounts.provide _ _).bind_eq fun _ => Recounts.pure
      (.call (Recounted.same_append _ ht.alike.recounted) (by simp) (by simp))

/-- A part of a text: taken inline in both runs or through a helper in both, as the text is a
quoted word in both or in neither; its ends are recounted. -/
theorem textGetSubstring :
    Recounts ctx OutputsRecounted (Rules.textGetSubstring ch b) (Rules.textGetSubstring ch b) := by
  unfold Rules.textGetSubstring
  refine (h.valueOr _ _ Text.solid_emptyQuote).bind fun t₀ t₁ ht => (Recounts.choose _ _ _).bind_eq
    fun start => (Recounts.choose _ _ _).bind_eq fun stop => ?_
  refine Recounts.ite _ (fun _ => value_pure ht _) fun _ => ?_
  refine Recounts.ite_of_iff (by rw [ht.alike.tested.isQuotedWord_eq]) (fun _ => ?_) fun _ => ?_
  · refine Recounts.bind (R := Recounted) ?_ fun _ _ h₁ => Recounts.bind (R := Recounted) ?_
      fun _ _ h₂ => value_pure (.call ?_ (by simp) (by simp)) _
    · cases start with
      | fromStart => exact h.adjustedIndex _ (.inl rfl) _ _
      | fromEnd =>
        exact (h.adjustedIndex _ (.inr rfl) _ _).bind fun _ _ hi =>
          Recounts.pure (ht.alike.recounted.append_same _ |>.append hi)
      | first => exact Recounts.pure (.same _)
    · cases stop with
      | fromStart => exact h.adjustedIndex _ (.inr rfl) _ _
      | fromEnd =>
        exact (h.adjustedIndex _ (.inl rfl) _ _).bind fun _ _ hi =>
          Recounts.pure (ht.alike.recounted.append_same _ |>.append hi)
      | last => exact Recounts.pure (ht.alike.recounted.append_same _)
    · exact ht.alike.recounted.append_same _ |>.append h₁ |>.append_same _ |>.append h₂
  · -- through a helper: the ends that are given are passed on as arguments
    have hend : ∀ (c : Bool) (slot : String), Recounts ctx (Option.Rel Recounted)
        (if c = true then some <$> BlockScribe.adjustedIndex ch slot 0 false .unbound else Pure.pure none)
        (if c = true then some <$> BlockScribe.adjustedIndex ch slot 0 false .unbound else Pure.pure none) :=
      fun c slot => Recounts.ite _ (fun _ => (h.adjustedIndex _ (.inl rfl) _ _).map fun _ _ ha => .some ha)
        fun _ => Recounts.pure .none
    refine (hend _ "AT1").bind fun _ _ h₁ => (hend _ "AT2").bind fun _ _ h₂ =>
      (Recounts.provide _ _).bind_eq fun _ => value_pure (.call ?_ (by simp) (by simp)) _
    exact Recounted.same_append _ ht.alike.recounted
      |>.append (Recounted.join_map _ (List.rel_append (forall₂_toList h₁) (forall₂_toList h₂)))

theorem textChangeCase :
    Recounts ctx OutputsRecounted (Rules.textChangeCase ch b) (Rules.textChangeCase ch b) := by
  unfold Rules.textChangeCase
  refine (Recounts.choose_mem _ _ _).bind_same fun method hmethod =>
    (h.valueOr _ _ Text.solid_emptyQuote).bind fun t₀ t₁ ht => ?_
  cases method with
  | none =>
    exact (Recounts.provide _ _).bind_eq fun _ =>
      value_pure (.call (Recounted.same_append _ ht.alike.recounted) (by simp) (by simp)) _
  | some m =>
    have hm : Text.endsPlain m.toList = true := by
      simp only [List.map_cons, List.map_nil, List.mem_cons, List.not_mem_nil, Option.some.injEq,
        reduceCtorEq, or_false] at hmethod
      rcases hmethod with rfl | rfl <;> decide
    exact value_pure (.append_plain ht.alike hm) _

theorem textTrim : Recounts ctx OutputsRecounted (Rules.textTrim ch b) (Rules.textTrim ch b) := by
  unfold Rules.textTrim
  refine (Recounts.choose_mem _ _ _).bind_same fun method hmethod =>
    (h.valueOr _ _ Text.solid_emptyQuote).bind fun t₀ t₁ ht => ?_
  simp only [List.map_cons, List.map_nil, List.mem_cons, List.not_mem_nil, or_false] at hmethod
  rcases hmethod with hm | rfl
  · -- one of the listed methods, each ending with a bracket
    have hends : Text.endsPlain method.toList = true := by
      rcases hm with rfl | rfl | rfl <;> decide
    exact value_pure (.append_plain ht.alike hends) _
  · -- no mode at all: the text as it is
    rw [show (default : String) = "" from rfl, String.append_empty, String.append_empty]
    exact value_pure ht _

theorem textPrint :
    Recounts ctx OutputsRecounted (Rules.textPrint ch b) (Rules.textPrint ch b) :=
  (h.valueOr _ _ Text.solid_emptyQuote).bind fun _ _ hmsg => statement_pure
    (.closed (Recounted.same_append _ hmsg.alike.recounted) (by decide))

theorem textPrompt :
    Recounts ctx OutputsRecounted (Rules.textPrompt ch b) (Rules.textPrompt ch b) := by
  unfold Rules.textPrompt
  refine Recounts.bind (R := ValueCodes) ?_ fun m₀ m₁ hm => ?_
  · cases b.field? "TEXT" with
    | some t => exact Recounts.pure (.same (Text.solid_quote t))
    | none => exact h.valueOr _ _ Text.solid_emptyQuote
  · refine (Recounts.choose _ _ _).bind_eq fun asNumber => value_pure ?_ _
    have hcode : ValueCodes ("window.prompt(" ++ m₀ ++ ")") ("window.prompt(" ++ m₁ ++ ")") :=
      .call (Recounted.same_append _ hm.alike.recounted) (by simp) (by simp)
    cases asNumber
    · exact hcode
    · exact .call (Recounted.same_append _ hcode.alike.recounted) (by simp) (by simp)

theorem textCount :
    Recounts ctx OutputsRecounted (Rules.textCount ch b) (Rules.textCount ch b) :=
  (h.valueOr _ _ Text.solid_emptyQuote).bind fun _ _ ht =>
    (h.valueOr _ _ Text.solid_emptyQuote).bind fun _ _ hn =>
      (Recounts.provide _ _).bind_eq fun _ => value_pure (.call
        (Recounted.same_append _ ht.alike.recounted |>.append_same _ |>.append hn.alike.recounted)
        (by simp) (by simp)) _

theorem textReplace :
    Recounts ctx OutputsRecounted (Rules.textReplace ch b) (Rules.textReplace ch b) :=
  (h.valueOr _ _ Text.solid_emptyQuote).bind fun _ _ ht =>
    (h.valueOr _ _ Text.solid_emptyQuote).bind fun _ _ hs =>
      (h.valueOr _ _ Text.solid_emptyQuote).bind fun _ _ hd =>
        (Recounts.provide _ _).bind_eq fun _ => value_pure (.call
          (Recounted.same_append _ ht.alike.recounted |>.append_same _ |>.append hs.alike.recounted
            |>.append_same _ |>.append hd.alike.recounted) (by simp) (by simp)) _

theorem textReverse :
    Recounts ctx OutputsRecounted (Rules.textReverse ch b) (Rules.textReverse ch b) :=
  (h.valueOr _ _ Text.solid_emptyQuote).bind fun _ _ ht =>
    value_pure (.append_plain ht.alike (by decide)) _

omit h in
theorem colourPicker :
    Recounts ctx OutputsRecounted (Rules.colourPicker ch b) (Rules.colourPicker ch b) :=
  value_pure (.same (Text.solid_quote _)) _

omit h in
theorem colourRandom :
    Recounts ctx OutputsRecounted (Rules.colourRandom ch b) (Rules.colourRandom ch b) :=
  (Recounts.provide _ _).bind_eq fun _ =>
    value_pure (.same (Text.solid_of_endsPlain (Text.endsPlain_append _ (by decide)))) _

theorem colourRgb :
    Recounts ctx OutputsRecounted (Rules.colourRgb ch b) (Rules.colourRgb ch b) :=
  (h.valueOr _ _ (Text.solid_of_endsPlain (by decide))).bind fun _ _ hr =>
    (h.valueOr _ _ (Text.solid_of_endsPlain (by decide))).bind fun _ _ hg =>
      (h.valueOr _ _ (Text.solid_of_endsPlain (by decide))).bind fun _ _ hb =>
        (Recounts.provide _ _).bind_eq fun _ => value_pure (.call
          (Recounted.same_append _ hr.alike.recounted |>.append_same _ |>.append hg.alike.recounted
            |>.append_same _ |>.append hb.alike.recounted) (by simp) (by simp)) _

theorem colourBlend :
    Recounts ctx OutputsRecounted (Rules.colourBlend ch b) (Rules.colourBlend ch b) :=
  (h.valueOr _ _ (Text.solid_quoted "#000000".toList (by simp))).bind fun _ _ h₁ =>
    (h.valueOr _ _ (Text.solid_quoted "#000000".toList (by simp))).bind fun _ _ h₂ =>
      (h.valueOr _ _ (Text.solid_of_endsPlain (by decide))).bind fun _ _ hr =>
        (Recounts.provide _ _).bind_eq fun _ => value_pure (.call
          (Recounted.same_append _ h₁.alike.recounted |>.append_same _ |>.append h₂.alike.recounted
            |>.append_same _ |>.append hr.alike.recounted) (by simp) (by simp)) _

end RuleRecountable

/-- **Every rule runs alike in both conventions.**  Whatever the kind of a block, its rule makes
values of both runs, statements recounted, or nothing in place. -/
theorem BlockKind.rule_recounts {ctx : Context} {ch : Children} {b : Block} :
    ∀ (k : BlockKind), RuleRecountable ctx ch →
      Recounts ctx OutputsRecounted (k.rule ch b) (k.rule ch b)
  | .controlsIf, h => h.controlsIf _ (b := b)
  | .controlsIfElse, h => h.controlsIf _ (b := b)
  | .logicCompare, h => h.logicCompare (b := b)
  | .logicOperation, h => h.logicOperation (b := b)
  | .logicNegate, h => h.logicNegate (b := b)
  | .logicBoolean, _ => @RuleRecountable.logicBoolean ctx ch b
  | .logicNull, _ => @RuleRecountable.logicNull ctx ch b
  | .logicTernary, h => h.logicTernary (b := b)
  | .repeatExt, h => h.repeatTimes (b := b)
  | .repeatTimes, h => h.repeatTimes (b := b)
  | .whileUntil, h => h.whileUntil (b := b)
  | .forRange, h => h.forRange (b := b)
  | .forEach, h => h.forEach (b := b)
  | .flowStatement, _ => @RuleRecountable.flowStatement ctx ch b
  | .defineReturn, h => h.defineProcedure (b := b)
  | .defineNoReturn, h => h.defineProcedure (b := b)
  | .callReturn, h => h.callReturn (b := b)
  | .callNoReturn, h => h.callNoReturn (b := b)
  | .ifReturn, h => h.ifReturn (b := b)
  | .variablesGet, _ => @RuleRecountable.variablesGet ctx ch b
  | .variablesGetDynamic, _ => @RuleRecountable.variablesGet ctx ch b
  | .variablesSet, h => h.variablesSet (b := b)
  | .variablesSetDynamic, h => h.variablesSet (b := b)
  | .text, _ => @RuleRecountable.text ctx ch b
  | .textMultiline, _ => @RuleRecountable.textMultiline ctx ch b
  | .textJoin, h => h.textJoin (b := b)
  | .textAppend, h => h.textAppend (b := b)
  | .textLength, h => h.textLength (b := b)
  | .textIsEmpty, h => h.textIsEmpty (b := b)
  | .textIndexOf, h => h.textIndexOf (b := b)
  | .textCharAt, h => h.textCharAt (b := b)
  | .textGetSubstring, h => h.textGetSubstring (b := b)
  | .textChangeCase, h => h.textChangeCase (b := b)
  | .textTrim, h => h.textTrim (b := b)
  | .textPrint, h => h.textPrint (b := b)
  | .textPromptExt, h => h.textPrompt (b := b)
  | .textPrompt, h => h.textPrompt (b := b)
  | .textCount, h => h.textCount (b := b)
  | .textReplace, h => h.textReplace (b := b)
  | .textReverse, h => h.textReverse (b := b)
  | .colourPicker, _ => @RuleRecountable.colourPicker ctx ch b
  | .colourRandom, _ => @RuleRecountable.colourRandom ctx ch b
  | .colourRgb, h => h.colourRgb (b := b)
  | .colourBlend, h => h.colourBlend (b := b)

end BlockScribe
