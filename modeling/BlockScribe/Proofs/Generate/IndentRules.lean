import BlockScribe.Proofs.Generate.Indentation
import BlockScribe.Generate.Dispatch
/-!
# Each rule under another unit of indentation

A rule is run in a context that indents by two spaces and in the same context indenting by `u`,
with children that run alike (`ChildrenReindent`).  It makes the same value in both, or
statements whose second version is the first re-indented (`OutputsReindented`).

A value is built of inline pieces: names, literals, numbers, helpers and the values of children
(`Text.Inline`).  Statements are built of unindented lines and of bodies re-indented
(`Reindented.append`, `Reindented.braced`).  The unit of indentation itself is read where a rule
writes a line of its own one level in (`Reindented.indentLine`): the direction fix-up of a
counting loop, the element of a `for each` loop, and the `return` lines.  The arms of an `if`
follow one another on one line (`IfChain`).

Each lemma of `RuleReindentable` is about one rule; `BlockKind.rule_reindents` gathers them.
-/

namespace BlockScribe

namespace Text

theorem fits_empty : Fits "" := ⟨rfl, rfl⟩

theorem getLast?_append_brace (a : String) : (a ++ "\x7d").toList.getLast? = some '\x7d' := by
  simp [String.toList_append]

/-- Inline pieces joined by a separator that fits on a line. -/
theorem fits_intercalate {sep : String} (hsep : Fits sep) :
    ∀ {as : List String}, (∀ a ∈ as, Inline a) → Fits (sep.intercalate as)
  | [], _ => by
    rw [String.intercalate_nil]
    exact fits_empty
  | [a], h => by
    rw [String.intercalate_singleton]
    exact (h a (by simp)).fits
  | a :: a' :: as, h => by
    rw [String.intercalate_cons_cons]
    exact ((h a (by simp)).fits.append hsep).append
      (fits_intercalate hsep fun x hx => h x (List.mem_cons_of_mem a hx))

theorem fits_join : ∀ {as : List String}, (∀ a ∈ as, Fits a) → Fits (String.join as)
  | [], _ => fits_empty
  | a :: as, h => by
    rw [String.join_cons]
    exact (h a (by simp)).append (fits_join fun x hx => h x (List.mem_cons_of_mem a hx))

/-- Whole lines and then the start of a line. -/
theorem Unindented.append_inline {a b : String} (ha : Unindented a) (hb : Inline b) :
    Inline (a ++ b) := by
  refine ⟨ha.1.append ha.2 hb.1, ?_⟩
  have hc := ha.2
  unfold Closed at hc ⊢
  rw [String.toList_append, endsLine_append, hc]
  exact hb.2

end Text

/-- The texts of a block start no line with a space: every field value does. -/
theorem Block.TextFlush.field {b : Block} (h : b.TextFlush) {name v : String}
    (hv : b.field? name = some v) : Text.Flush v := by
  unfold Block.field? Slots.get? at hv
  obtain ⟨e, he, rfl⟩ := Option.map_eq_some_iff.1 hv
  exact h.fields _ (List.mem_map.2 ⟨e, List.mem_of_find?_eq_some he, rfl⟩)

theorem Block.TextFlush.textField {b : Block} (h : b.TextFlush) (name : String) :
    Text.Flush (textField b name) := by
  unfold BlockScribe.textField
  cases hv : b.field? name with
  | none => rfl
  | some v => exact h.field hv

/-! ### The code of an `if` -/

/-- The code of an `if` so far in both runs: the second is the first re-indented, and the first
ends its last line or ends with the brace of an arm. -/
def IfChain (u a b : String) : Prop :=
  b = reindent a u ∧ (Text.Closed a ∨ a.toList.getLast? = some '\x7d')

namespace IfChain

variable {u a b : String}

theorem of_unindented (h : Text.Unindented a) : IfChain u a a :=
  ⟨(reindent_of_unindented h).symm, .inl h.2⟩

/-- What follows on the last line, if it does not start with two spaces, is re-indented on its
own. -/
theorem reindent_append (h : IfChain u a b) {x : String} (hx : ∀ rest, x.toList ≠ ' ' :: ' ' :: rest) :
    reindent (a ++ x) u = b ++ reindent x u := by
  rw [h.1]
  rcases h.2 with hc | hl
  · exact reindent_append_of_closed hc x
  · exact reindent_append_of_getLast hl (by decide) (by decide) hx

theorem reindent_else (h : IfChain u a b) : reindent (a ++ " else ") u = b ++ " else " := by
  rw [h.reindent_append (by simp), reindent_of_line (by decide) (by simp)]

/-- An arm `if (c) {…}` after the code so far, re-indented with it. -/
theorem arm {x y cond s s' br br' : String} (hxy : y = reindent x u) (hcond : Text.Inline cond)
    (hs : Reindented u s s') (hbr : Reindented u br br') :
    IfChain u (x ++ "if (" ++ cond ++ ") \x7b\n" ++ s ++ br ++ "\x7d")
      (y ++ "if (" ++ cond ++ ") \x7b\n" ++ s' ++ br' ++ "\x7d") := by
  have hhead : Text.Unindented ("if (" ++ cond ++ ") \x7b\n") :=
    ((show Text.Inline "if (" by decide).append hcond.fits).append_closes (by decide)
  have hbody := ((Reindented.of_unindented hhead).append hs).append hbr
  have hassoc : ∀ z t t' : String, z ++ "if (" ++ cond ++ ") \x7b\n" ++ t ++ t' ++ "\x7d" =
      z ++ ("if (" ++ cond ++ ") \x7b\n" ++ t ++ t' ++ "\x7d") := by
    intros
    simp only [String.append_assoc]
  rw [hassoc, hassoc]
  refine ⟨?_, .inr (by rw [← String.append_assoc]; exact Text.getLast?_append_brace _)⟩
  rw [reindent_append_of_head x (by simp [String.toList_append]), ← hxy, ← hbody.append_brace]

/-- The last arm `else {…}`, re-indented with the code before it. -/
theorem elseArm {s s' br br' : String} (h : IfChain u a b) (hs : Reindented u s s')
    (hbr : Reindented u br br') :
    IfChain u (a ++ " else \x7b\n" ++ s ++ br ++ "\x7d") (b ++ " else \x7b\n" ++ s' ++ br' ++ "\x7d") := by
  have hbody := (hs.append hbr).append_brace
  have hopen : reindent " else \x7b\n" u = " else \x7b\n" := by
    rw [show (" else \x7b\n" : String) = " else \x7b" ++ "\n" by decide, reindent_append_of_head _ (by decide),
      reindent_of_line (by decide) (by simp), reindent_of_flush (by decide)]
  have hassoc : ∀ z t t' : String, z ++ " else \x7b\n" ++ t ++ t' ++ "\x7d" =
      z ++ (" else \x7b\n" ++ (t ++ t' ++ "\x7d")) := by
    intros
    simp only [String.append_assoc]
  rw [hassoc, hassoc]
  refine ⟨?_, .inr (by rw [← String.append_assoc, ← String.append_assoc]; exact Text.getLast?_append_brace _)⟩
  rw [h.reindent_append (by simp), reindent_append_of_closed (by decide), hopen, ← hbody]

theorem close (h : IfChain u a b) : Reindented u (a ++ "\n") (b ++ "\n") :=
  ⟨by rw [h.reindent_append (by simp), reindent_of_flush (by decide)], Text.closed_append_newline a⟩

end IfChain

/-! ### The rules -/

/-- What a rule needs to run alike under two units of indentation: a unit on one line, a context
whose snippets and blocks start no line with a space, children that run alike, and a block whose
texts start no line with a space. -/
structure RuleReindentable (u : String) (ctx : Context) (ch : Children) (b : Block) : Prop where
  unit : '\n' ∉ u.toList
  context : ctx.Reindentable
  children : ChildrenReindent u ch
  block : b.TextFlush

namespace RuleReindentable

variable {u : String} {ctx : Context} {ch : Children} {b : Block} (h : RuleReindentable u ctx ch b)
include h

theorem value (slot : String) (order : Order) :
    Reindents u ctx (Same fun o => ∀ v ∈ o, Text.Inline v) (ch.value slot order) (ch.value slot order) :=
  h.children.value ctx h.context slot order

theorem body (slot : String) : Reindents u ctx (Reindented u) (ch.body slot) (ch.body slot) :=
  h.children.body ctx h.context slot

theorem valueOr (slot : String) (order : Order) {d : String} (hd : Text.Inline d) :
    Reindents u ctx (Same Text.Inline) (ch.valueOr slot order d) (ch.valueOr slot order d) := by
  unfold Children.valueOr
  refine (h.value slot order).bind_same fun o ho => Reindents.pure ⟨rfl, ?_⟩
  cases o with
  | none => exact hd
  | some v => exact ho v rfl

theorem adjustedIndex (slot : String) (delta : Int) (negate : Bool) (order : Order) :
    Reindents u ctx (Same Text.Inline) (BlockScribe.adjustedIndex ch slot delta negate order)
      (BlockScribe.adjustedIndex ch slot delta negate order) := by
  unfold BlockScribe.adjustedIndex
  refine Reindents.read_bind ?_
  refine (h.valueOr _ _ ?_).bind_same fun pos hpos => Reindents.pure ⟨rfl, inline_shiftIndex hpos _ _ _⟩
  cases ctx.oneBased <;> decide

omit h in
/-- A bound kept as it is, or stored in a temporary by a line of its own. -/
theorem stored (keep : Bool) (base : String) {code : String} (hcode : Text.Inline code) :
    Reindents u ctx (Same fun p => Text.Inline p.1 ∧ Text.Unindented p.2) (Rules.stored keep base code)
      (Rules.stored keep base code) := by
  unfold Rules.stored
  cases keep
  · refine (Reindents.temporary base).bind_same fun t ht => Reindents.pure ⟨rfl, ht, ?_⟩
    exact ((((show Text.Inline "var " by decide).append ht.fits).append (by decide)).append
      hcode.fits).append_closes (by decide)
  · exact Reindents.pure ⟨rfl, hcode, Text.unindented_empty⟩

theorem loopTrap {a a' : String} (hbr : Reindented u a a') :
    Reindented u (ctx.config.addLoopTrap a b) ((ctx.withIndent u).config.addLoopTrap a' b) :=
  Config.reindented_addLoopTrap h.unit h.context.snippets h.block h.context.indent hbr

omit h in
theorem value_pure {c : String} {o : Order} (hc : Text.Inline c) :
    Reindents u ctx (OutputsReindented u) (pure (.value c o)) (pure (.value c o)) :=
  Reindents.pure ⟨rfl, rfl, hc⟩

omit h in
theorem statement_pure {c c' : String} (hc : Reindented u c c') :
    Reindents u ctx (OutputsReindented u) (pure (.statement c)) (pure (.statement c')) :=
  Reindents.pure hc

/-- `if` arms: each arm's head is one line, and its early-exit suffix and body are re-indented;
the arms follow one another on one line. -/
theorem controlsIf (kind : BlockKind) :
    Reindents u ctx (OutputsReindented u) (Rules.controlsIf kind ch b) (Rules.controlsIf kind ch b) := by
  unfold Rules.controlsIf
  refine Reindents.read_bind ?_
  have hsuffix := Config.reindented_earlyExitSuffix h.unit h.context.snippets h.block h.context.indent
  refine (Reindents.forIn (IfChain u) _ (IfChain.of_unindented (h.context.snippets.prefixFor h.block))
    fun n a a' ha => ?_).bind fun code code' hcode => ?_
  · -- one arm, after an `else` unless it is the first
    refine (h.valueOr _ _ (by decide)).bind_same fun cond hcond => ?_
    refine (h.body _).bind fun br br' hbr => ?_
    refine Reindents.ite _ (fun _ => Reindents.pure ?_) fun _ => Reindents.pure ?_
    · exact IfChain.arm ha.reindent_else.symm hcond hsuffix hbr
    · exact IfChain.arm ha.1 hcond hsuffix hbr
  · refine Reindents.ite _ (fun _ => (h.body _).bind fun br br' hbr => statement_pure ?_)
      fun _ => statement_pure hcode.close
    exact (hcode.elseArm hsuffix hbr).close

theorem logicCompare :
    Reindents u ctx (OutputsReindented u) (Rules.logicCompare ch b) (Rules.logicCompare ch b) := by
  unfold Rules.logicCompare
  refine (Reindents.choose _ _ _).bind_eq fun op => ?_
  cases op <;>
  exact (h.valueOr _ _ (by decide)).bind_same fun x hx => (h.valueOr _ _ (by decide)).bind_same
    fun y hy => value_pure ((((hx.append (by decide)).append (by decide)).append (by decide)).append
      hy.fits)

theorem logicOperation :
    Reindents u ctx (OutputsReindented u) (Rules.logicOperation ch b) (Rules.logicOperation ch b) := by
  unfold Rules.logicOperation
  refine (Reindents.choose _ _ _).bind_eq fun isAnd => ?_
  refine (h.value _ _).bind_same fun x hx => (h.value _ _).bind_same fun y hy => ?_
  -- an operand is a child's value, the neutral element, or `false`
  have hoperand : ∀ (o : Option String), (∀ v ∈ o, Text.Inline v) → ∀ d, Text.Inline d →
      Text.Inline (o.getD d) := by
    rintro (_ | v) ho d hd
    · exact hd
    · exact ho v rfl
  cases isAnd <;> rcases x with _ | x <;> rcases y with _ | y <;>
  exact value_pure ((((hoperand _ hx _ (by decide)).append (by decide)).append (by decide)).append
    (by decide) |>.append (hoperand _ hy _ (by decide)).fits)

theorem logicNegate :
    Reindents u ctx (OutputsReindented u) (Rules.logicNegate ch b) (Rules.logicNegate ch b) :=
  (h.valueOr _ _ (by decide)).bind_same fun x hx =>
    value_pure ((show Text.Inline "!" by decide).append hx.fits)

omit h in
theorem logicBoolean :
    Reindents u ctx (OutputsReindented u) (Rules.logicBoolean ch b) (Rules.logicBoolean ch b) :=
  (Reindents.choose _ _ _).bind_eq fun v => value_pure (by cases v <;> decide)

omit h in
theorem logicNull :
    Reindents u ctx (OutputsReindented u) (Rules.logicNull ch b) (Rules.logicNull ch b) :=
  value_pure (by decide)

theorem logicTernary :
    Reindents u ctx (OutputsReindented u) (Rules.logicTernary ch b) (Rules.logicTernary ch b) :=
  (h.valueOr _ _ (by decide)).bind_same fun c hc => (h.valueOr _ _ (by decide)).bind_same
    fun t ht => (h.valueOr _ _ (by decide)).bind_same fun e he =>
      value_pure ((((hc.append (by decide)).append ht.fits).append (by decide)).append he.fits)

/-- A loop that repeats its body: the bound is stored first unless it is a word or a number. -/
theorem repeatTimes :
    Reindents u ctx (OutputsReindented u) (Rules.repeatTimes ch b) (Rules.repeatTimes ch b) := by
  unfold Rules.repeatTimes
  refine Reindents.bind_same (P := Text.Inline) ?_ fun repeats hrep => ?_
  · cases b.field? "TIMES" with
    | none => exact h.valueOr _ _ (by decide)
    | some raw =>
      dsimp only
      cases parseNumber raw with
      | none => exact Reindents.throw _
      | some v => exact Reindents.pure ⟨rfl, inline_formatNumber v⟩
  · refine (h.body _).bind fun br br' hbr => Reindents.read_bind ?_
    refine (Reindents.temporary _).bind_same fun counter hcounter => ?_
    refine (stored _ _ hrep).bind_same fun p hp => ?_
    obtain ⟨bound, setup⟩ := p
    obtain ⟨hbound, hsetup⟩ := hp
    refine statement_pure (Reindented.braced ?_ (h.loopTrap hbr))
    exact ((((((((hsetup.append_inline (by decide)).append hcounter.fits).append (by decide)).append
      hcounter.fits).append (by decide)).append hbound.fits).append (by decide)).append
      hcounter.fits).append_closes (by decide)

theorem whileUntil :
    Reindents u ctx (OutputsReindented u) (Rules.whileUntil ch b) (Rules.whileUntil ch b) := by
  unfold Rules.whileUntil
  refine (Reindents.choose _ _ _).bind_eq fun untilMode => ?_
  refine (h.valueOr _ _ (by decide)).bind_same fun cond hcond => ?_
  refine (h.body _).bind fun br br' hbr => Reindents.read_bind ?_
  have hcond' : Text.Inline (if untilMode then "!" ++ cond else cond) := by
    cases untilMode
    · exact hcond
    · exact (show Text.Inline "!" by decide).append hcond.fits
  exact statement_pure (Reindented.braced
    (((show Text.Inline "while (" by decide).append hcond'.fits).append_closes (by decide))
    (h.loopTrap hbr))

/-- A counting loop: with fixed direction and step when its three bounds are numbers, and
otherwise with a fix-up of the step's sign, a line of its own one level in. -/
theorem forRange :
    Reindents u ctx (OutputsReindented u) (Rules.forRange ch b) (Rules.forRange ch b) := by
  unfold Rules.forRange
  refine Reindents.read_bind ?_
  refine (Reindents.variableName _).bind_same fun var hvar => ?_
  refine (h.valueOr _ _ (by decide)).bind_same fun start hstart => ?_
  refine (h.valueOr _ _ (by decide)).bind_same fun stop hstop => ?_
  refine (h.valueOr _ _ (by decide)).bind_same fun step hstep => ?_
  refine (h.body _).bind fun br br' hbr => ?_
  have htrap := h.loopTrap hbr
  -- the declaration of the step's magnitude, when the step is not fixed: a number or its text
  have hdeclSome : ∀ inc (z : Binary64), Text.Inline inc →
      Text.Unindented ("var " ++ inc ++ " = " ++ formatNumber z.abs ++ ";\n") := fun inc _ hinc =>
    ((((show Text.Inline "var " by decide).append hinc.fits).append (by decide)).append
      (inline_formatNumber _).fits).append_closes (by decide)
  have hdeclNone : ∀ inc, Text.Inline inc →
      Text.Unindented ("var " ++ inc ++ " = Math.abs(" ++ step ++ ");\n") := fun inc hinc =>
    ((((show Text.Inline "var " by decide).append hinc.fits).append (by decide)).append
      hstep.fits).append_closes (by decide)
  rcases Rules.numeral? start with _ | x <;> rcases Rules.numeral? stop with _ | y <;>
    rcases hz : Rules.numeral? step with _ | z
  case some.some.some =>
    have hcmp : Text.Fits (if x.le y then " <= " else " >= ") := by
      cases x.le y <;> decide
    have hadvance : Text.Fits (if z.abs == Binary64.ofNat 1 then (if x.le y then "++" else "--")
        else (if x.le y then " += " else " -= ") ++ formatNumber z.abs) := by
      split
      · cases x.le y <;> decide
      · exact (by cases x.le y <;> decide : Text.Fits (if x.le y then " += " else " -= ")).append
          (inline_formatNumber _).fits
    exact statement_pure (Reindented.braced (((((((((((show Text.Inline "for (" by decide).append
      hvar.fits).append (by decide)).append hstart.fits).append (by decide)).append hvar.fits).append
      hcmp).append hstop.fits).append (by decide)).append hvar.fits).append hadvance |>.append_closes
      (by decide)) htrap)
  all_goals
    refine (stored _ _ hstart).bind_same fun p hp => ?_
    obtain ⟨startVar, startSetup⟩ := p
    obtain ⟨hsv, hss⟩ := hp
    refine (stored _ _ hstop).bind_same fun p hp => ?_
    obtain ⟨stopVar, stopSetup⟩ := p
    obtain ⟨htv, hts⟩ := hp
    refine (Reindents.temporary _).bind_same fun inc hinc => statement_pure ?_
    -- a step that is a number is named `z` by the split above
    have hstepDecl := by
      first
      | exact hdeclSome inc z hinc
      | exact hdeclNone inc hinc
    -- the setup, the declaration of the step and the test of the direction, then its fix-up
    have hhead := ((hss.append hts).append hstepDecl).append ((((
      (show Text.Inline "if (" by decide).append hsv.fits).append (show Text.Fits " > " by decide)).append
      htv.fits).append_closes (show Text.Closes ") \x7b\n" by decide))
    have hfix := Reindented.indentLine (u := u) h.context.indent
      ((hinc.append (show Text.Fits " = -" by decide) |>.append hinc.fits).append_closes
        (show Text.Closes ";\n" by decide)) (by simp [hinc.ne_empty])
    have hloop : Text.Unindented ("\x7d\n" ++ "for (" ++ var ++ " = " ++ startVar ++ "; " ++ inc ++
        " >= 0 ? " ++ var ++ " <= " ++ stopVar ++ " : " ++ var ++ " >= " ++ stopVar ++ "; " ++
        var ++ " += " ++ inc ++ ") \x7b\n") :=
      (((((((((((((((((show Text.Unindented "\x7d\n" by decide).append_inline (by decide)).append
        hvar.fits).append (by decide)).append hsv.fits).append (by decide)).append hinc.fits).append
        (by decide)).append hvar.fits).append (by decide)).append htv.fits).append (by decide)).append
        hvar.fits).append (by decide)).append htv.fits).append (by decide)).append hvar.fits).append
        (by decide) |>.append hinc.fits |>.append_closes (by decide)
    have hall := ((Reindented.of_unindented hhead).append hfix).append
      (Reindented.braced hloop htrap)
    simpa only [String.append_assoc, Context.withIndent_config] using hall

/-- A loop over a list: the element is assigned by a line of its own one level in. -/
theorem forEach :
    Reindents u ctx (OutputsReindented u) (Rules.forEach ch b) (Rules.forEach ch b) := by
  unfold Rules.forEach
  refine Reindents.read_bind ?_
  refine (Reindents.variableName _).bind_same fun var hvar => ?_
  refine (h.valueOr _ _ (by decide)).bind_same fun list hlist => ?_
  refine (h.body _).bind fun br br' hbr => ?_
  refine (stored _ _ hlist).bind_same fun p hp => ?_
  obtain ⟨listVar, setup⟩ := p
  obtain ⟨hlv, hsetup⟩ := hp
  refine (Reindents.temporary _).bind_same fun indexVar hindex => statement_pure ?_
  have hhead : Text.Unindented (setup ++ "for (var " ++ indexVar ++ " in " ++ listVar ++ ") \x7b\n") :=
    ((((hsetup.append_inline (by decide)).append hindex.fits).append (by decide)).append
      hlv.fits).append_closes (by decide)
  have helement := Reindented.indentLine (u := u) h.context.indent
    (((((hvar.append (show Text.Fits " = " by decide)).append hlv.fits).append
      (show Text.Fits "[" by decide)).append hindex.fits).append_closes
      (show Text.Closes "];\n" by decide)) (by simp [hvar.ne_empty])
  have hall := Reindented.braced hhead (helement.append (h.loopTrap hbr))
  simpa only [String.append_assoc, Context.withIndent_config] using hall

/-- `break` or `continue`, after the block's own snippets and the prefix of the loop it leaves. -/
theorem flowStatement :
    Reindents u ctx (OutputsReindented u) (Rules.flowStatement ch b) (Rules.flowStatement ch b) := by
  unfold Rules.flowStatement
  refine (Reindents.choose _ _ _).bind_eq fun isBreak => Reindents.read_bind ?_
  refine Reindents.surroundingLoop.bind_same fun loop hloop => statement_pure (.of_unindented ?_)
  have hsnippets := h.context.snippets
  have hown := (hsnippets.prefixFor h.block).append (hsnippets.suffixFor h.block)
  have hjump : Text.Unindented (if isBreak then "break;\n" else "continue;\n") := by
    cases isBreak <;> decide
  cases loop with
  | none => exact (hown.append Text.unindented_empty).append hjump
  | some l => exact (hown.append (hsnippets.prefixFor (h.context.ancestors l (hloop l rfl)))).append hjump

/-- A procedure is hoisted: the code it registers in the second run is the first's re-indented,
its entry snippets, loop trap, body and `return` line each re-indented. -/
theorem defineProcedure :
    Reindents u ctx (OutputsReindented u) (Rules.defineProcedure ch b) (Rules.defineProcedure ch b) := by
  unfold Rules.defineProcedure
  refine (Reindents.procedureName _).bind_same fun name hname => Reindents.read_bind ?_
  have hsnippets := h.context.snippets
  refine (Reindents.inChildScope (R := fun p p' => Reindented u p.1 p'.1 ∧ p'.2 = p.2 ∧
      ∀ v ∈ p.2, Text.Inline v) fun sc => ?_).bind fun p p' hp => ?_
  · -- the body and the returned value, in the procedure's own scope
    have hsc := h.context.withScope sc
    exact (h.children.body _ hsc _).bind fun br br' hbr =>
      (h.children.value _ hsc _ _).bind_same fun r hr => Reindents.pure ⟨hbr, rfl, hr⟩
  obtain ⟨branch, returned⟩ := p
  obtain ⟨branch', returned'⟩ := p'
  obtain ⟨hbr, hret, hreturned⟩ := hp
  dsimp only at hbr hret hreturned
  subst hret
  refine (Reindents.mapM (fun key => Reindents.variableName key) _).bind_same fun args hargs => ?_
  refine (Reindents.defineProcedure name ?_).bind_eq fun _ => Reindents.pure trivial
  have hheader : Text.Unindented (ctx.workspace.commentLines ctx.reach b ++ "function " ++ name ++ "(" ++
      ", ".intercalate args ++ ") \x7b\n") :=
    ((((show Text.Unindented _ from Workspace.commentLines_flush ctx.workspace ctx.reach b).append_inline
      (by decide)).append
      hname.fits).append (by decide) |>.append (Text.fits_intercalate (by decide) hargs)).append_closes
      (by decide)
  have hentry : Reindented u
      (Text.prefixLines ((ctx.config.prefixFor b).getD "" ++ (ctx.config.suffixFor b).getD "") ctx.config.indent)
      (Text.prefixLines ((ctx.config.prefixFor b).getD "" ++ (ctx.config.suffixFor b).getD "") u) := by
    rw [h.context.indent]
    exact Reindented.indented h.unit ((hsnippets.prefixFor h.block).append (hsnippets.suffixFor h.block))
  have htrap := Config.reindented_indentedLoopTrap h.unit hsnippets h.block h.context.indent
  have hopen := (((Reindented.of_unindented hheader).append hentry).append htrap).append hbr
  cases returned' with
  | none =>
    have hall := (hopen.append Reindented.empty).append Reindented.empty
    simpa only [String.append_assoc, Context.withIndent_config, Context.withIndent_workspace,
      Context.withIndent_reach, Config.prefixFor_withIndent, Config.suffixFor_withIndent] using
      hall.append_brace
  | some v =>
    -- the entry snippets run again before a `return` that follows some statements
    have hbefore : Reindented u (if branch.isEmpty then "" else
        Text.prefixLines ((ctx.config.prefixFor b).getD "" ++ (ctx.config.suffixFor b).getD "") ctx.config.indent)
        (if branch'.isEmpty then "" else
        Text.prefixLines ((ctx.config.prefixFor b).getD "" ++ (ctx.config.suffixFor b).getD "") u) := by
      have hsame : branch'.isEmpty = branch.isEmpty := by
        rw [Bool.eq_iff_iff, String.isEmpty_iff, String.isEmpty_iff, hbr.1]
        exact reindent_eq_empty hbr.2
      rw [hsame]
      split
      · exact Reindented.empty
      · exact hentry
    have hreturn := Reindented.indentLine (u := u) h.context.indent
      (((show Text.Inline "return " by decide).append (hreturned v rfl).fits).append_closes
        (show Text.Closes ";\n" by decide)) (by simp)
    have hall := (hopen.append hbefore).append hreturn
    simpa only [String.append_assoc, Context.withIndent_config, Context.withIndent_workspace,
      Context.withIndent_reach, Config.prefixFor_withIndent, Config.suffixFor_withIndent] using
      hall.append_brace

theorem callReturn :
    Reindents u ctx (OutputsReindented u) (Rules.callReturn ch b) (Rules.callReturn ch b) := by
  unfold Rules.callReturn
  refine (Reindents.procedureName _).bind_same fun name hname => ?_
  refine (Reindents.mapM (fun _ => h.valueOr _ _ (by decide)) _).bind_same fun args hargs => ?_
  exact value_pure (((hname.append (by decide)).append (Text.fits_intercalate (by decide) hargs)).append
    (by decide))

theorem callNoReturn :
    Reindents u ctx (OutputsReindented u) (Rules.callNoReturn ch b) (Rules.callNoReturn ch b) := by
  unfold Rules.callNoReturn
  refine h.callReturn.bind fun o o' ho => ?_
  cases o with
  | value c order =>
    cases o' with
    | value c' order' =>
      obtain ⟨rfl, rfl, hc⟩ := ho
      exact statement_pure (.of_unindented (hc.append_closes (by decide)))
    | statement => exact (ho : False).elim
    | hoisted => exact (ho : False).elim
  | statement c =>
    cases o' with
    | statement => exact Reindents.pure ho
    | value => exact (ho : False).elim
    | hoisted => exact (ho : False).elim
  | hoisted =>
    cases o' with
    | hoisted => exact Reindents.pure ho
    | value => exact (ho : False).elim
    | statement => exact (ho : False).elim

/-- `if (c) return v;`: the early-exit suffix and the `return` line, each one level in. -/
theorem ifReturn :
    Reindents u ctx (OutputsReindented u) (Rules.ifReturn ch b) (Rules.ifReturn ch b) := by
  unfold Rules.ifReturn
  refine Reindents.read_bind ?_
  refine (h.valueOr _ _ (by decide)).bind_same fun cond hcond => ?_
  refine Reindents.bind (R := Reindented u) ?_ fun ret ret' hret => statement_pure ?_
  · refine Reindents.ite _ (fun _ => (h.valueOr _ _ (by decide)).bind_same fun v hv => Reindents.pure ?_)
      fun _ => Reindents.pure ?_
    · have hline := Reindented.indentLine (u := u) h.context.indent
        (((show Text.Inline "return " by decide).append hv.fits).append_closes
          (show Text.Closes ";\n" by decide)) (by simp)
      simpa only [String.append_assoc, Context.withIndent_config] using hline
    · exact Reindented.indentLine h.context.indent (by decide) (by decide)
  · exact (((Reindented.of_unindented (((show Text.Inline "if (" by decide).append hcond.fits).append_closes
      (by decide))).append (Config.reindented_earlyExitSuffix h.unit h.context.snippets h.block
      h.context.indent)).append hret).append (.of_unindented (by decide))

omit h in
theorem variablesGet :
    Reindents u ctx (OutputsReindented u) (Rules.variablesGet ch b) (Rules.variablesGet ch b) :=
  (Reindents.variableName _).bind_same fun _ hv => value_pure hv

theorem variablesSet :
    Reindents u ctx (OutputsReindented u) (Rules.variablesSet ch b) (Rules.variablesSet ch b) :=
  (h.valueOr _ _ (by decide)).bind_same fun _ hv => (Reindents.variableName _).bind_same
    fun _ hvar => statement_pure (.of_unindented (((hvar.append (by decide)).append hv.fits).append_closes
      (by decide)))

theorem text : Reindents u ctx (OutputsReindented u) (Rules.text ch b) (Rules.text ch b) :=
  value_pure (Text.inline_quote (h.block.textField _))

omit h in
theorem textMultiline :
    Reindents u ctx (OutputsReindented u) (Rules.textMultiline ch b) (Rules.textMultiline ch b) := by
  unfold Rules.textMultiline
  refine value_pure ?_
  have hq := Text.inline_multilineQuote (textField b "TEXT")
  split
  · exact ((show Text.Inline "(" by decide).append hq.fits).append (by decide)
  · exact hq

/-- Joined texts: one coerced, two added, or more joined as an array. -/
theorem textJoin : Reindents u ctx (OutputsReindented u) (Rules.textJoin ch b) (Rules.textJoin ch b) := by
  unfold Rules.textJoin
  generalize connectedArity b (b.extra.itemCount.getD 2) ["ADD"] = k
  rcases k with _ | _ | _ | k
  · exact value_pure (by decide)
  · exact (h.valueOr _ _ (by decide)).bind_same fun _ he => value_pure (inline_forceString he)
  · exact (h.valueOr _ _ (by decide)).bind_same fun _ hx => (h.valueOr _ _ (by decide)).bind_same
      fun _ hy => value_pure (((inline_forceString hx).append (by decide)).append (inline_forceString hy).fits)
  · exact (Reindents.mapM (fun _ => h.valueOr _ _ (by decide)) _).bind_same fun _ hes =>
      value_pure (((show Text.Inline "[" by decide).append (Text.fits_intercalate (by decide) hes)).append
        (by decide))

theorem textAppend :
    Reindents u ctx (OutputsReindented u) (Rules.textAppend ch b) (Rules.textAppend ch b) :=
  (Reindents.variableName _).bind_same fun _ hvar => (h.valueOr _ _ (by decide)).bind_same fun _ hv =>
    statement_pure (.of_unindented (((hvar.append (by decide)).append (inline_forceString hv).fits).append_closes
      (by decide)))

theorem textLength :
    Reindents u ctx (OutputsReindented u) (Rules.textLength ch b) (Rules.textLength ch b) :=
  (h.valueOr _ _ (by decide)).bind_same fun _ ht => value_pure (ht.append (by decide))

theorem textIsEmpty :
    Reindents u ctx (OutputsReindented u) (Rules.textIsEmpty ch b) (Rules.textIsEmpty ch b) :=
  (h.valueOr _ _ (by decide)).bind_same fun _ ht =>
    value_pure (((show Text.Inline "!" by decide).append ht.fits).append (by decide))

theorem textIndexOf :
    Reindents u ctx (OutputsReindented u) (Rules.textIndexOf ch b) (Rules.textIndexOf ch b) := by
  unfold Rules.textIndexOf
  refine (Reindents.choose _ _ _).bind_eq fun first => ?_
  refine (h.valueOr _ _ (by decide)).bind_same fun needle hneedle =>
    (h.valueOr _ _ (by decide)).bind_same fun t ht => Reindents.read_bind ?_
  have hcode : Text.Inline (t ++ "." ++ (if first then "indexOf" else "lastIndexOf") ++ "(" ++ needle ++ ")") :=
    ((((ht.append (by decide)).append (by cases first <;> decide)).append (by decide)).append
      hneedle.fits).append (by decide)
  exact Reindents.ite _ (fun _ => value_pure (hcode.append (by decide))) fun _ => value_pure hcode

theorem textCharAt :
    Reindents u ctx (OutputsReindented u) (Rules.textCharAt ch b) (Rules.textCharAt ch b) := by
  unfold Rules.textCharAt
  refine (Reindents.choose _ _ _).bind_eq fun w => (h.valueOr _ _ (by decide)).bind_same fun t ht => ?_
  refine Reindents.bind_same (P := Text.Inline) ?_ fun _ hcode => value_pure hcode
  cases w with
  | fromStart =>
    exact (h.adjustedIndex _ _ _ _).bind_same fun _ hi =>
      Reindents.pure ⟨rfl, ((ht.append (by decide)).append hi.fits).append (by decide)⟩
  | fromEnd =>
    exact (h.adjustedIndex _ _ _ _).bind_same fun _ hi =>
      Reindents.pure ⟨rfl, ((ht.append (by decide)).append hi.fits).append (by decide)⟩
  | first => exact Reindents.pure ⟨rfl, ht.append (by decide)⟩
  | last => exact Reindents.pure ⟨rfl, ht.append (by decide)⟩
  | random =>
    exact (Reindents.provide h.context.indent _ _).bind_same fun _ hhelper =>
      Reindents.pure ⟨rfl, ((hhelper.append (by decide)).append ht.fits).append (by decide)⟩

/-- A part of a text, inline or through a helper named after its two ends. -/
theorem textGetSubstring :
    Reindents u ctx (OutputsReindented u) (Rules.textGetSubstring ch b) (Rules.textGetSubstring ch b) := by
  unfold Rules.textGetSubstring
  refine (h.valueOr _ _ (by decide)).bind_same fun t ht => (Reindents.choose _ _ _).bind_eq fun start =>
    (Reindents.choose _ _ _).bind_eq fun stop => ?_
  refine Reindents.ite _ (fun _ => value_pure ht) fun _ => ?_
  refine Reindents.ite _ (fun _ => ?_) fun _ => ?_
  · refine Reindents.bind_same (P := Text.Inline) ?_ fun _ h₁ =>
      Reindents.bind_same (P := Text.Inline) ?_ fun _ h₂ => value_pure ?_
    · cases start with
      | fromStart => exact h.adjustedIndex _ _ _ _
      | fromEnd =>
        exact (h.adjustedIndex _ _ _ _).bind_same fun _ hi =>
          Reindents.pure ⟨rfl, (ht.append (by decide)).append hi.fits⟩
      | first => exact Reindents.pure ⟨rfl, by decide⟩
    · cases stop with
      | fromStart => exact h.adjustedIndex _ _ _ _
      | fromEnd =>
        exact (h.adjustedIndex _ _ _ _).bind_same fun _ hi =>
          Reindents.pure ⟨rfl, (ht.append (by decide)).append hi.fits⟩
      | last => exact Reindents.pure ⟨rfl, ht.append (by decide)⟩
    · exact ((((ht.append (by decide)).append h₁.fits).append (by decide)).append h₂.fits).append
        (by decide)
  · -- through a helper: the ends that are given are passed on as arguments
    have hend : ∀ (c : Bool) (slot : String), Reindents u ctx (Same fun o => ∀ v ∈ o, Text.Inline v)
        (if c = true then some <$> BlockScribe.adjustedIndex ch slot 0 false .unbound else Pure.pure none)
        (if c = true then some <$> BlockScribe.adjustedIndex ch slot 0 false .unbound else Pure.pure none) :=
      fun c slot => Reindents.ite _ (fun _ => (h.adjustedIndex _ _ _ _).map fun a _ ha =>
        ⟨by rw [ha.1], fun v hv => by cases hv; exact ha.2⟩) fun _ => Reindents.pure ⟨rfl, by simp⟩
    refine (hend _ "AT1").bind_same fun at1 h₁ => (hend _ "AT2").bind_same fun at2 h₂ =>
      (Reindents.provide h.context.indent _ _).bind_same fun _ hhelper => value_pure ?_
    have hargs : ∀ a ∈ (at1.toList ++ at2.toList).map (", " ++ ·), Text.Fits a := by
      intro a ha
      obtain ⟨v, hv, rfl⟩ := List.mem_map.1 ha
      have hinline : Text.Inline v := by
        rcases List.mem_append.1 hv with hv | hv
        · exact h₁ v (Option.mem_toList.1 hv)
        · exact h₂ v (Option.mem_toList.1 hv)
      exact (show Text.Fits ", " by decide).append hinline.fits
    exact (((hhelper.append (by decide)).append ht.fits).append (Text.fits_join hargs)).append (by decide)

theorem textChangeCase :
    Reindents u ctx (OutputsReindented u) (Rules.textChangeCase ch b) (Rules.textChangeCase ch b) := by
  unfold Rules.textChangeCase
  refine (Reindents.choose_mem _ _ _).bind_same fun method hmethod =>
    (h.valueOr _ _ (by decide)).bind_same fun t ht => ?_
  cases method with
  | none =>
    exact (Reindents.provide h.context.indent _ _).bind_same fun _ hhelper =>
      value_pure (((hhelper.append (by decide)).append ht.fits).append (by decide))
  | some m =>
    have hm : Text.Fits m := by
      simp only [List.map_cons, List.map_nil, List.mem_cons, List.not_mem_nil, Option.some.injEq,
        reduceCtorEq, or_false] at hmethod
      rcases hmethod with rfl | rfl <;> decide
    exact value_pure (ht.append hm)

theorem textTrim : Reindents u ctx (OutputsReindented u) (Rules.textTrim ch b) (Rules.textTrim ch b) := by
  unfold Rules.textTrim
  refine (Reindents.choose_mem _ _ _).bind_same fun method hmethod =>
    (h.valueOr _ _ (by decide)).bind_same fun t ht => value_pure (ht.append ?_)
  simp only [List.map_cons, List.map_nil, List.mem_cons, List.not_mem_nil, or_false] at hmethod
  rcases hmethod with (rfl | rfl | rfl) | rfl <;> decide

theorem textPrint :
    Reindents u ctx (OutputsReindented u) (Rules.textPrint ch b) (Rules.textPrint ch b) :=
  (h.valueOr _ _ (by decide)).bind_same fun _ hmsg => statement_pure (.of_unindented
    (((show Text.Inline "window.alert(" by decide).append hmsg.fits).append_closes (by decide)))

theorem textPrompt :
    Reindents u ctx (OutputsReindented u) (Rules.textPrompt ch b) (Rules.textPrompt ch b) := by
  unfold Rules.textPrompt
  refine Reindents.bind_same (P := Text.Inline) ?_ fun message hmessage => ?_
  · cases hf : b.field? "TEXT" with
    | some t => exact Reindents.pure ⟨rfl, Text.inline_quote (h.block.field hf)⟩
    | none => exact h.valueOr _ _ (by decide)
  · refine (Reindents.choose _ _ _).bind_eq fun asNumber => value_pure ?_
    have hcode := ((show Text.Inline "window.prompt(" by decide).append hmessage.fits).append
      (show Text.Fits ")" by decide)
    cases asNumber
    · exact hcode
    · exact ((show Text.Inline "Number(" by decide).append hcode.fits).append (by decide)

theorem textCount :
    Reindents u ctx (OutputsReindented u) (Rules.textCount ch b) (Rules.textCount ch b) :=
  (h.valueOr _ _ (by decide)).bind_same fun _ ht => (h.valueOr _ _ (by decide)).bind_same fun _ hn =>
    (Reindents.provide h.context.indent _ _).bind_same fun _ hhelper =>
      value_pure (((((hhelper.append (by decide)).append ht.fits).append (by decide)).append hn.fits).append
        (by decide))

theorem textReplace :
    Reindents u ctx (OutputsReindented u) (Rules.textReplace ch b) (Rules.textReplace ch b) :=
  (h.valueOr _ _ (by decide)).bind_same fun _ ht => (h.valueOr _ _ (by decide)).bind_same fun _ hs =>
    (h.valueOr _ _ (by decide)).bind_same fun _ hd =>
      (Reindents.provide h.context.indent _ _).bind_same fun _ hhelper =>
        value_pure (((((((hhelper.append (by decide)).append ht.fits).append (by decide)).append
          hs.fits).append (by decide)).append hd.fits).append (by decide))

theorem textReverse :
    Reindents u ctx (OutputsReindented u) (Rules.textReverse ch b) (Rules.textReverse ch b) :=
  (h.valueOr _ _ (by decide)).bind_same fun _ ht => value_pure (ht.append (by decide))

theorem colourPicker :
    Reindents u ctx (OutputsReindented u) (Rules.colourPicker ch b) (Rules.colourPicker ch b) := by
  unfold Rules.colourPicker
  refine value_pure (Text.inline_quote ?_)
  cases hf : b.field? "COLOUR" with
  | none => decide
  | some c => exact h.block.field hf

theorem colourRandom :
    Reindents u ctx (OutputsReindented u) (Rules.colourRandom ch b) (Rules.colourRandom ch b) :=
  (Reindents.provide h.context.indent _ _).bind_same fun _ hhelper =>
    value_pure (hhelper.append (by decide))

theorem colourRgb :
    Reindents u ctx (OutputsReindented u) (Rules.colourRgb ch b) (Rules.colourRgb ch b) :=
  (h.valueOr _ _ (by decide)).bind_same fun _ hr => (h.valueOr _ _ (by decide)).bind_same fun _ hg =>
    (h.valueOr _ _ (by decide)).bind_same fun _ hb =>
      (Reindents.provide h.context.indent _ _).bind_same fun _ hhelper =>
        value_pure (((((((hhelper.append (by decide)).append hr.fits).append (by decide)).append
          hg.fits).append (by decide)).append hb.fits).append (by decide))

theorem colourBlend :
    Reindents u ctx (OutputsReindented u) (Rules.colourBlend ch b) (Rules.colourBlend ch b) :=
  (h.valueOr _ _ (by decide)).bind_same fun _ h₁ => (h.valueOr _ _ (by decide)).bind_same fun _ h₂ =>
    (h.valueOr _ _ (by decide)).bind_same fun _ hr =>
      (Reindents.provide h.context.indent _ _).bind_same fun _ hhelper =>
        value_pure (((((((hhelper.append (by decide)).append h₁.fits).append (by decide)).append
          h₂.fits).append (by decide)).append hr.fits).append (by decide))

end RuleReindentable

/-- **Every rule runs alike under two units of indentation.**  Whatever the kind of a block, its
rule makes the same value in both runs, or statements whose second version is the first
re-indented, or nothing in place. -/
theorem BlockKind.rule_reindents {u : String} {ctx : Context} {ch : Children} {b : Block} :
    ∀ (k : BlockKind), RuleReindentable u ctx ch b →
      Reindents u ctx (OutputsReindented u) (k.rule ch b) (k.rule ch b)
  | .controlsIf, h => h.controlsIf _
  | .controlsIfElse, h => h.controlsIf _
  | .logicCompare, h => h.logicCompare
  | .logicOperation, h => h.logicOperation
  | .logicNegate, h => h.logicNegate
  | .logicBoolean, _ => @RuleReindentable.logicBoolean u ctx ch b
  | .logicNull, _ => @RuleReindentable.logicNull u ctx ch b
  | .logicTernary, h => h.logicTernary
  | .repeatExt, h => h.repeatTimes
  | .repeatTimes, h => h.repeatTimes
  | .whileUntil, h => h.whileUntil
  | .forRange, h => h.forRange
  | .forEach, h => h.forEach
  | .flowStatement, h => h.flowStatement
  | .defineReturn, h => h.defineProcedure
  | .defineNoReturn, h => h.defineProcedure
  | .callReturn, h => h.callReturn
  | .callNoReturn, h => h.callNoReturn
  | .ifReturn, h => h.ifReturn
  | .variablesGet, _ => @RuleReindentable.variablesGet u ctx ch b
  | .variablesGetDynamic, _ => @RuleReindentable.variablesGet u ctx ch b
  | .variablesSet, h => h.variablesSet
  | .variablesSetDynamic, h => h.variablesSet
  | .text, h => h.text
  | .textMultiline, _ => @RuleReindentable.textMultiline u ctx ch b
  | .textJoin, h => h.textJoin
  | .textAppend, h => h.textAppend
  | .textLength, h => h.textLength
  | .textIsEmpty, h => h.textIsEmpty
  | .textIndexOf, h => h.textIndexOf
  | .textCharAt, h => h.textCharAt
  | .textGetSubstring, h => h.textGetSubstring
  | .textChangeCase, h => h.textChangeCase
  | .textTrim, h => h.textTrim
  | .textPrint, h => h.textPrint
  | .textPromptExt, h => h.textPrompt
  | .textPrompt, h => h.textPrompt
  | .textCount, h => h.textCount
  | .textReplace, h => h.textReplace
  | .textReverse, h => h.textReverse
  | .colourPicker, h => h.colourPicker
  | .colourRandom, h => h.colourRandom
  | .colourRgb, h => h.colourRgb
  | .colourBlend, h => h.colourBlend

end BlockScribe
