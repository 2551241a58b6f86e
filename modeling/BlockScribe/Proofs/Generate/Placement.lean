import BlockScribe.Proofs.Generate.Lodging
import BlockScribe.Proofs.Generate.Indentation
/-!
# Where each rule places the code of its children

A rule gets the code of its children and builds its own from it.  Seen through `Workspace.Lodges`,
a rule hands back the texts in which it placed the code of the statements below it, and for the
statements it gives, those texts are held in its code (`Yielded`).  The code of a value child
is never such a text: what a value slot reaches is an expression, with no instrumentation of its
own, or a procedure definition, whose code is registered.

Most rules read value slots only, and take no step that places code: they hand back no texts
(`Rules.logicCompare_quiet` and the others).  A loop places the code of its body in its own,
between the loop's instrumentation (`Config.addLoopTrap`).  The rules of the kinds that place
their own snippets give statements that hold all of the block's instrumentation: an `if` chain
opens with the statement prefix and runs the exit suffix at the head of every arm, with an
`else` arm when a suffix is configured (`Rules.controlsIf_yielded`); `break` and `continue` run
their own snippets and then the prefix of the loop they leave (`Rules.flowStatement_yielded`).
An early `return` runs the exit suffix first (`Rules.ifReturn_yielded`).  The rule of a procedure
definition registers its code, which holds the texts of its body and its own snippets
(`Rules.defineProcedure_registers`).

Every rule but that of a definition yields this for its kind (`BlockKind.rule_lodges`), and the
rule of a definition registers (`BlockKind.rule_registers`).
-/

namespace BlockScribe

/-- What the rule of the block `b` of kind `k` hands back, with the blocks `around` it: no texts
for a kind of value; for statements, code that holds the texts handed back and the part of the
block's instrumentation that depends on its kind, and all of it when the kind places its own
snippets. -/
structure Yielded (c : Config) (around : List Block) (b : Block) (k : BlockKind) (out : Output)
    (T : List (List Char)) : Prop where
  value : k.isValue = true → T = []
  statement : ∀ code, out = .statement code → (∀ x ∈ T, Text.Held x code.toList) ∧
    Shaped c around b k code.toList ∧ (k.placesOwnSnippets = true → Instrumented c around b k code.toList)

namespace Yielded

variable {c : Config} {around : List Block} {b : Block} {k : BlockKind} {out : Output}
  {T : List (List Char)}

/-- A kind with no snippets of its own to place. -/
theorem shaped_of_plain (hown : k.placesOwnSnippets = false) (hexit : k ≠ .ifReturn)
    (t : List Char) : Shaped c around b k t := by
  have hne : ∀ k', k'.placesOwnSnippets = true → k ≠ k' := fun k' h' hk => by
    rw [hk, h'] at hown
    cases hown
  exact .of_plain (hne _ rfl) hexit (hne _ rfl) (hne _ rfl)

/-- A rule that hands back no texts, of a kind with no snippets of its own to place. -/
theorem of_quiet (hown : k.placesOwnSnippets = false) (hexit : k ≠ .ifReturn) (hT : T = []) :
    Yielded c around b k out T where
  value _ := hT
  statement _ _ := ⟨fun _ hx => absurd (hT ▸ hx) List.not_mem_nil, shaped_of_plain hown hexit _,
    fun h => absurd (hown ▸ h) Bool.false_ne_true⟩

/-- Statements that hold the texts handed back, of a kind with no snippets of its own. -/
theorem of_placed (hvalue : k.isValue = false) (hown : k.placesOwnSnippets = false)
    (hexit : k ≠ .ifReturn)
    (h : ∃ code, out = .statement code ∧ ∀ x ∈ T, Text.Held x code.toList) :
    Yielded c around b k out T where
  value hv := by rw [hvalue] at hv; cases hv
  statement code hout := by
    obtain ⟨code', rfl, hheld⟩ := h
    cases hout
    exact ⟨hheld, shaped_of_plain hown hexit _, fun h => absurd (hown ▸ h) Bool.false_ne_true⟩

end Yielded

/-- A list of texts joined by a separator, one more text at its end. -/
theorem String.intercalate_append_singleton (sep x : String) (a : String) (l : List String) :
    sep.intercalate (a :: l ++ [x]) = sep.intercalate (a :: l) ++ sep ++ x := by
  induction l generalizing a with
  | nil =>
    rw [List.singleton_append, String.intercalate_cons_cons, String.intercalate_singleton,
      String.intercalate_singleton]
  | cons a' l ih =>
    rw [List.cons_append, List.cons_append, String.intercalate_cons_cons, ← List.cons_append, ih,
      String.intercalate_cons_cons]
    simp only [String.append_assoc]

/-- The element after a prefix of the first numbers is the prefix's length. -/
theorem List.eq_length_of_append_cons_eq_range {done rest : List Nat} {x n : Nat}
    (h : done ++ x :: rest = List.range n) : x = done.length := by
  have hlen : done.length < n := by
    have := congrArg List.length h
    simp at this
    omega
  have h' := congrArg (fun l => l[done.length]?) h
  simp only [List.getElem?_append_right (Nat.le_refl _), Nat.sub_self, List.getElem?_cons_zero,
    List.getElem?_range hlen] at h'
  exact Option.some.inj h'

/-- An `if` chain with one more arm: the arms before it, then a separator unless there were
none, then the new arm. -/
theorem intercalate_ifArm_snoc (s : String) (arms : List (String × String)) (arm : String × String) :
    " else ".intercalate ((arms ++ [arm]).map (ifArm s)) =
      " else ".intercalate (arms.map (ifArm s)) ++ (if arms = [] then "" else " else ") ++
        ifArm s arm := by
  cases arms with
  | nil => simp
  | cons a l =>
    rw [List.map_append, List.map_cons, List.map_cons, List.map_nil,
      String.intercalate_append_singleton, if_neg (List.cons_ne_nil a l)]

/-- An arm of an `if` chain holds its branch. -/
theorem held_ifArm (s : String) (arm : String × String) :
    Text.Held arm.2.toList (ifArm s arm).toList :=
  Text.Held.string_part _ _ _

/-- Arms joined into a chain hold the arms before the last, and the last arm's branch. -/
theorem held_intercalate_ifArm_snoc (s : String) (arms : List (String × String))
    (arm : String × String) :
    Text.Held (" else ".intercalate (arms.map (ifArm s))).toList
        (" else ".intercalate ((arms ++ [arm]).map (ifArm s))).toList ∧
      Text.Held arm.2.toList (" else ".intercalate ((arms ++ [arm]).map (ifArm s))).toList := by
  rw [intercalate_ifArm_snoc]
  exact ⟨((Text.Held.refl _).string_right _).string_right _, (held_ifArm s arm).string_left _⟩

/-- An `if` chain holds its numbered arms. -/
theorem held_ifChain_arms (s : String) (arms : List (String × String)) (els : Option String) :
    Text.Held (" else ".intercalate (arms.map (ifArm s))).toList (ifChain s arms els).toList :=
  (Text.Held.refl _).string_right _

/-- The `else` arm of an `if` chain opens with the exit suffix, then its branch. -/
theorem held_ifChain_else (s : String) (arms : List (String × String)) (br : String) :
    Text.Held s.toList (ifChain s arms (some br)).toList ∧
      Text.Held br.toList (ifChain s arms (some br)).toList := by
  unfold ifChain elseArm
  rw [Option.map_some, Option.getD_some]
  exact ⟨((((Text.Held.refl _).string_left _).string_right _).string_right _).string_left _,
    (Text.Held.string_part _ _ _).string_left _⟩

namespace Yielded

variable {c : Config} {around : List Block} {b : Block} {kind : BlockKind} {T : List (List Char)}

/-- **An `if` chain after the statement prefix holds all of the block's instrumentation**: the
prefix before it, the exit suffix at the head of every arm, and the suffix itself, in the `else`
arm that a configured suffix asks for. -/
theorem of_ifChain (hkind : kind = .controlsIf ∨ kind = .controlsIfElse)
    {arms : List (String × String)} {els : Option String} (hlen : arms.length = b.ifArity)
    (hels : els.isSome = (kind == .controlsIfElse || b.extra.hasElse || (c.suffixFor b).isSome))
    (hT : ∀ x ∈ T, Text.Held x (ifChain (c.earlyExitSuffix b) arms els).toList) :
    Yielded c around b kind
      (.statement ((c.prefixFor b).getD "" ++ ifChain (c.earlyExitSuffix b) arms els ++ "\n")) T := by
  have hchain := Text.Held.string_part (ifChain (c.earlyExitSuffix b) arms els)
    ((c.prefixFor b).getD "") "\n"
  have hshaped : Shaped c around b kind
      ((c.prefixFor b).getD "" ++ ifChain (c.earlyExitSuffix b) arms els ++ "\n").toList :=
    ⟨fun h => (by rcases hkind with rfl | rfl <;> cases h),
      fun h => (by rcases hkind with rfl | rfl <;> cases h), fun _ => ⟨arms, els, hlen, hels, hchain⟩⟩
  refine ⟨fun h => (by rcases hkind with rfl | rfl <;> cases h), fun code hcode => ?_⟩
  cases hcode
  refine ⟨fun x hx => (hT x hx).trans hchain, hshaped, fun _ => ⟨hshaped, ?_, ?_⟩⟩
  · exact ((Text.Held.refl _).string_right _).string_right _
  · -- with a suffix configured, the `else` arm opens with it
    rcases hS : c.suffixFor b with _ | S
    · simpa using Text.Held.part (x := []) [] _
    · rw [hS, Option.isSome_some, Bool.or_true] at hels
      obtain ⟨br, rfl⟩ := Option.isSome_iff_exists.1 hels
      have hsuffix : Text.Held S.toList (c.earlyExitSuffix b).toList := by
        rw [Config.earlyExitSuffix_eq, hS]
        exact (Text.Held.refl _).prefixLines _
      exact (hsuffix.trans (held_ifChain_else _ arms br).1).trans hchain

end Yielded

namespace Workspace.Lodges

variable {w : Workspace} {c : Config} {R : List String} {σ : List Nat}

/-- A value stored in a temporary, or used as it is. -/
theorem stored (keep : Bool) (base code : String) :
    w.Lodges c R σ (Rules.stored keep base code) (fun _ T => T = []) :=
  ite _ (fun _ => pure rfl) fun _ => bind_quiet (temporary _) fun _ => pure rfl

variable {m : GenM Output} {around : List Block} {b : Block} {k : BlockKind}

theorem yielded_of_quiet (h : w.Lodges c R σ m (fun _ T => T = []))
    (hown : k.placesOwnSnippets = false) (hexit : k ≠ .ifReturn) :
    w.Lodges c R σ m (Yielded c around b k) :=
  h.mono fun _ _ hT => Yielded.of_quiet hown hexit hT

theorem yielded_of_placed
    (h : w.Lodges c R σ m
      (fun out T => ∃ code, out = .statement code ∧ ∀ x ∈ T, Text.Held x code.toList))
    (hvalue : k.isValue = false) (hown : k.placesOwnSnippets = false) (hexit : k ≠ .ifReturn) :
    w.Lodges c R σ m (Yielded c around b k) :=
  h.mono fun _ _ hT => Yielded.of_placed hvalue hown hexit hT

end Workspace.Lodges

namespace Workspace

variable (w : Workspace) (c : Config)

/-- The rule of the definition `b`, run with the blocks at `σ` around it from `s` to `t`,
registered its code: its steps before that ended in `t₁`, kept with texts held in the code and
the blocks around those they reached that `π` gives, and
the code, registered under the name of the block's key, holds the block's instrumentation with
the blocks `around` it. -/
def Registers (σ : List Nat) (around : List Block) (b : Block) (s t : Session) : Prop :=
  ∃ t₁ T π N code, w.Kept c π σ s t₁ T ∧ t.seen = t₁.seen ∧ t.names = t₁.names ∧
    t.registry = (t₁.registry.defineProcedure N code).1 ∧ (b.procedureKey, N) ∈ t.names.named ∧
    (∀ x ∈ T, Text.Held x code.toList) ∧
      ∀ k, k.isDefinition = true → Instrumented c around b k code.toList

end Workspace

namespace Workspace.Around

variable {w : Workspace} {c : Config} {R : List String} {σ : List Nat} {ctx : Context}
  {s t : Session}

/-- Registering a procedure changes the registry only, and keeps the session around the same
blocks. -/
theorem of_defineProcedure (h : w.Around c R ctx σ s) {name code : String} {u : Unit}
    (hrun : (GenM.defineProcedure name code).exec ctx s = (.ok u, t)) :
    w.Around c R ctx σ t ∧ t.seen = s.seen ∧ t.names = s.names ∧
      t.registry = (s.registry.defineProcedure name code).1 := by
  have hkeep := GenM.KeepsNames.defineProcedure name code s h.names h.scope
  rw [hrun] at hkeep
  rw [GenM.exec_defineProcedure] at hrun
  cases hrun
  exact ⟨h.later (fun _ hj => hj) h.nodup hkeep.1 h.inline hkeep.2, rfl, rfl, rfl⟩

end Workspace.Around

/-- The code of a procedure definition holds its body, and the entry snippets at its head. -/
theorem held_definition (head entry trap branch before ret : String) :
    Text.Held branch.toList (head ++ entry ++ trap ++ branch ++ before ++ ret ++ "\x7d").toList ∧
      Text.Held entry.toList (head ++ entry ++ trap ++ branch ++ before ++ ret ++ "\x7d").toList :=
  ⟨((Text.Held.string_part _ _ _).string_right _).string_right _,
    ((((Text.Held.string_part _ _ _).string_right _).string_right _).string_right _).string_right _⟩

/-- A procedure definition is marked by its entry: the statement prefix and suffix, indented as
a body, that its code opens with. -/
theorem Instrumented.of_entry {c : Config} {around : List Block} {b : Block} {k : BlockKind}
    {t : List Char} (hk : k.isDefinition = true)
    (h : Text.Held (Text.prefixLines ((c.prefixFor b).getD "" ++ (c.suffixFor b).getD "")
      c.indent).toList t) : Instrumented c around b k t := by
  have hne : ∀ k', k'.isDefinition = false → k ≠ k' := fun k' h' hk' => by
    rw [hk', h'] at hk
    cases hk
  exact { Shaped.of_plain (hne _ rfl) (hne _ rfl) (hne _ rfl) (hne _ rfl) with
    pre := (((Text.Held.refl _).string_right _).prefixLines _).trans h
    suf := (((Text.Held.refl _).string_left _).prefixLines _).trans h }

namespace Rules

open Workspace

variable {w : Workspace} {c : Config} {R : List String} {σ : List Nat} (ch : Children) (b : Block)

/-! ### Rules that hand back no texts -/

theorem colourPicker_quiet : w.Lodges c R σ (colourPicker ch b) (fun _ T => T = []) := .pure rfl

theorem textMultiline_quiet : w.Lodges c R σ (textMultiline ch b) (fun _ T => T = []) := .pure rfl

theorem text_quiet : w.Lodges c R σ (text ch b) (fun _ T => T = []) := .pure rfl

theorem logicNull_quiet : w.Lodges c R σ (logicNull ch b) (fun _ T => T = []) := .pure rfl

theorem logicBoolean_quiet : w.Lodges c R σ (logicBoolean ch b) (fun _ T => T = []) :=
  .bind_quiet (.choose _ _ _) fun _ => .pure rfl

theorem variablesGet_quiet : w.Lodges c R σ (variablesGet ch b) (fun _ T => T = []) :=
  .bind_quiet (.variableName _) fun _ => .pure rfl

theorem colourRandom_quiet : w.Lodges c R σ (colourRandom ch b) (fun _ T => T = []) :=
  .bind_quiet (.provide _ _) fun _ => .pure rfl

section Quiet

variable (hv : ∀ slot order, w.Lodges c R σ (ch.value slot order) (fun _ T => T = []))
include hv

theorem adjustedIndex_quiet (slot : String) (delta : Int) (negate : Bool) (order : Order) :
    w.Lodges c R σ (adjustedIndex ch slot delta negate order) (fun _ T => T = []) :=
  .bind_with .read fun _ _ => .bind_quiet (.valueOr (hv _ _)) fun _ => .pure rfl

theorem logicCompare_quiet : w.Lodges c R σ (logicCompare ch b) (fun _ T => T = []) := by
  refine .bind_quiet (.choose _ _ _) fun op => ?_
  cases op <;>
  · exact .bind_quiet (.valueOr (hv _ _)) fun _ =>
      .bind_quiet (.valueOr (hv _ _)) fun _ => .pure rfl

theorem logicOperation_quiet : w.Lodges c R σ (logicOperation ch b) (fun _ T => T = []) :=
  .bind_quiet (.choose _ _ _) fun _ => .bind_quiet (hv _ _) fun _ =>
    .bind_quiet (hv _ _) fun _ => .pure rfl

theorem logicNegate_quiet : w.Lodges c R σ (logicNegate ch b) (fun _ T => T = []) :=
  .bind_quiet (.valueOr (hv _ _)) fun _ => .pure rfl

theorem logicTernary_quiet : w.Lodges c R σ (logicTernary ch b) (fun _ T => T = []) :=
  .bind_quiet (.valueOr (hv _ _)) fun _ => .bind_quiet (.valueOr (hv _ _)) fun _ =>
    .bind_quiet (.valueOr (hv _ _)) fun _ => .pure rfl

theorem callReturn_quiet : w.Lodges c R σ (callReturn ch b) (fun _ T => T = []) :=
  .bind_quiet (.procedureName _) fun _ =>
    .bind_quiet (.mapM_quiet fun _ _ => .valueOr (hv _ _)) fun _ => .pure rfl

theorem callNoReturn_quiet : w.Lodges c R σ (callNoReturn ch b) (fun _ T => T = []) := by
  refine .bind_quiet (callReturn_quiet ch b hv) fun out => ?_
  cases out <;> exact .pure rfl

theorem variablesSet_quiet : w.Lodges c R σ (variablesSet ch b) (fun _ T => T = []) :=
  .bind_quiet (.valueOr (hv _ _)) fun _ => .bind_quiet (.variableName _) fun _ => .pure rfl

theorem textJoin_quiet : w.Lodges c R σ (textJoin ch b) (fun _ T => T = []) := by
  unfold textJoin
  split
  · exact .pure rfl
  · exact .bind_quiet (.valueOr (hv _ _)) fun _ => .pure rfl
  · exact .bind_quiet (.valueOr (hv _ _)) fun _ =>
      .bind_quiet (.valueOr (hv _ _)) fun _ => .pure rfl
  · exact .bind_quiet (.mapM_quiet fun _ _ => .valueOr (hv _ _)) fun _ => .pure rfl

theorem textAppend_quiet : w.Lodges c R σ (textAppend ch b) (fun _ T => T = []) :=
  .bind_quiet (.variableName _) fun _ => .bind_quiet (.valueOr (hv _ _)) fun _ => .pure rfl

theorem textLength_quiet : w.Lodges c R σ (textLength ch b) (fun _ T => T = []) :=
  .bind_quiet (.valueOr (hv _ _)) fun _ => .pure rfl

theorem textIsEmpty_quiet : w.Lodges c R σ (textIsEmpty ch b) (fun _ T => T = []) :=
  .bind_quiet (.valueOr (hv _ _)) fun _ => .pure rfl

theorem textIndexOf_quiet : w.Lodges c R σ (textIndexOf ch b) (fun _ T => T = []) :=
  .bind_quiet (.choose _ _ _) fun _ => .bind_quiet (.valueOr (hv _ _)) fun _ =>
    .bind_quiet (.valueOr (hv _ _)) fun _ =>
      .bind_with .read fun _ _ => .ite _ (fun _ => .pure rfl) fun _ => .pure rfl

theorem textCharAt_quiet : w.Lodges c R σ (textCharAt ch b) (fun _ T => T = []) := by
  refine .bind_quiet (.choose _ _ _) fun _ => .bind_quiet (.valueOr (hv _ _)) fun _ =>
    .bind_quiet ?_ fun _ => .pure rfl
  -- only a position counted from either end reads the index
  split
  · exact .pure rfl
  · exact .pure rfl
  iterate 2 exact .bind_quiet (adjustedIndex_quiet ch hv _ _ _ _) fun _ => .pure rfl
  · exact .bind_quiet (.provide _ _) fun _ => .pure rfl

theorem textGetSubstring_quiet : w.Lodges c R σ (textGetSubstring ch b) (fun _ T => T = []) := by
  refine .bind_quiet (.valueOr (hv _ _)) fun _ => .bind_quiet (.choose _ _ _) fun _ =>
    .bind_quiet (.choose _ _ _) fun _ => .ite _ (fun _ => .pure rfl) fun _ =>
      .ite _ (fun _ => ?_) fun _ => ?_
  · -- the part taken with a slice: each end that is not fixed reads its index
    refine .bind_quiet ?_ fun _ => .bind_quiet ?_ fun _ => .pure rfl
    · split
      · exact adjustedIndex_quiet ch hv _ _ _ _
      · exact .bind_quiet (adjustedIndex_quiet ch hv _ _ _ _) fun _ => .pure rfl
      · exact .pure rfl
    · split
      · exact adjustedIndex_quiet ch hv _ _ _ _
      · exact .bind_quiet (adjustedIndex_quiet ch hv _ _ _ _) fun _ => .pure rfl
      · exact .pure rfl
  · -- the part taken by a helper
    refine .bind_quiet (.ite _ (fun _ => ?_) fun _ => .pure rfl) fun _ =>
      .bind_quiet (.ite _ (fun _ => ?_) fun _ => .pure rfl) fun _ =>
        .bind_quiet (.provide _ _) fun _ => .pure rfl
    all_goals exact .bind_quiet (adjustedIndex_quiet ch hv _ _ _ _) fun _ => .pure rfl

theorem textChangeCase_quiet : w.Lodges c R σ (textChangeCase ch b) (fun _ T => T = []) := by
  refine .bind_quiet (.choose _ _ _) fun _ => .bind_quiet (.valueOr (hv _ _)) fun _ => ?_
  split
  · exact .pure rfl
  · exact .bind_quiet (.provide _ _) fun _ => .pure rfl

theorem textTrim_quiet : w.Lodges c R σ (textTrim ch b) (fun _ T => T = []) :=
  .bind_quiet (.choose _ _ _) fun _ => .bind_quiet (.valueOr (hv _ _)) fun _ => .pure rfl

theorem textPrint_quiet : w.Lodges c R σ (textPrint ch b) (fun _ T => T = []) :=
  .bind_quiet (.valueOr (hv _ _)) fun _ => .pure rfl

theorem textPrompt_quiet : w.Lodges c R σ (textPrompt ch b) (fun _ T => T = []) := by
  refine .bind_quiet ?_ fun _ => .bind_quiet (.choose _ _ _) fun _ => .pure rfl
  -- the message is the field when there is one, and otherwise the slot
  split
  · exact .pure rfl
  · exact .valueOr (hv _ _)

theorem textCount_quiet : w.Lodges c R σ (textCount ch b) (fun _ T => T = []) :=
  .bind_quiet (.valueOr (hv _ _)) fun _ => .bind_quiet (.valueOr (hv _ _)) fun _ =>
    .bind_quiet (.provide _ _) fun _ => .pure rfl

theorem textReplace_quiet : w.Lodges c R σ (textReplace ch b) (fun _ T => T = []) :=
  .bind_quiet (.valueOr (hv _ _)) fun _ => .bind_quiet (.valueOr (hv _ _)) fun _ =>
    .bind_quiet (.valueOr (hv _ _)) fun _ => .bind_quiet (.provide _ _) fun _ => .pure rfl

theorem textReverse_quiet : w.Lodges c R σ (textReverse ch b) (fun _ T => T = []) :=
  .bind_quiet (.valueOr (hv _ _)) fun _ => .pure rfl

theorem colourRgb_quiet : w.Lodges c R σ (colourRgb ch b) (fun _ T => T = []) :=
  .bind_quiet (.valueOr (hv _ _)) fun _ => .bind_quiet (.valueOr (hv _ _)) fun _ =>
    .bind_quiet (.valueOr (hv _ _)) fun _ => .bind_quiet (.provide _ _) fun _ => .pure rfl

theorem colourBlend_quiet : w.Lodges c R σ (colourBlend ch b) (fun _ T => T = []) :=
  .bind_quiet (.valueOr (hv _ _)) fun _ => .bind_quiet (.valueOr (hv _ _)) fun _ =>
    .bind_quiet (.valueOr (hv _ _)) fun _ => .bind_quiet (.provide _ _) fun _ => .pure rfl

end Quiet

/-! ### Rules that place snippets or statements -/

/-- A loop body between the loop's instrumentation. -/
theorem Config.held_addLoopTrap (c : Config) (branch : String) (b : Block) :
    Text.Held branch.toList (c.addLoopTrap branch b).toList := by
  rw [Config.addLoopTrap_eq]
  exact (((Text.Held.refl _).string_left _).string_left _).string_right _

/-- The word that ends a loop turn, as the FLOW field chooses it. -/
theorem exec_choose_flow {ctx : Context} {s t : Session} {isBreak : Bool}
    (h : (choose b "FLOW" [("BREAK", true), ("CONTINUE", false)]).exec ctx s = (.ok isBreak, t)) :
    (if isBreak then "break;" else "continue;") = b.flowWord := by
  rw [exec_choose] at h
  unfold Block.flowWord
  rcases hfield : b.field? "FLOW" with _ | v
  · rw [hfield] at h
    cases h
    simp
  · rw [hfield] at h
    by_cases hbreak : v = "BREAK"
    · subst hbreak
      cases h
      simp
    · by_cases hcontinue : v = "CONTINUE"
      · subst hcontinue
        cases h
        simp
      · simp [Ne.symm hbreak, Ne.symm hcontinue] at h

/-- The code of `break` or `continue` runs the block's snippets, then the prefix of the loop
around it. -/
theorem flow_instrumented (c : Config) (around : List Block) (b : Block) :
    Instrumented c around b .flowStatement ((c.prefixFor b).getD "" ++ (c.suffixFor b).getD "" ++
      c.loopPrefix around ++ b.flowWord ++ "\n").toList where
  flow _ := by
    have hcode : (c.prefixFor b).getD "" ++ (c.suffixFor b).getD "" ++ c.loopPrefix around ++
        b.flowWord ++ "\n" = (c.prefixFor b).getD "" ++
          ((c.suffixFor b).getD "" ++ c.loopPrefix around ++ b.flowWord) ++ "\n" := by
      simp only [String.append_assoc]
    rw [hcode]
    exact Text.Held.string_part _ _ _
  exit h := by cases h
  arms h := by rcases h with h | h <;> cases h
  pre := ((((Text.Held.refl _).string_right _).string_right _).string_right _).string_right _
  suf := ((((Text.Held.refl _).string_left _).string_right _).string_right _).string_right _

/-- **`break` and `continue` run their own snippets and the prefix of the loop they leave.** -/
theorem flowStatement_yielded {i : Nat} (hb : w.get? i = some b) :
    w.Lodges c R (i :: σ) (flowStatement ch b) (Yielded c (w.blocksAt σ) b .flowStatement) := by
  refine .bind_with ((Lodges.choose b _ _).and_returns fun _ _ _ _ _ h => exec_choose_flow b h)
    fun isBreak hword => .bind_with .read fun ctx hctx =>
      .bind_with .surroundingLoop fun loop hloop => .pure ⟨nofun, fun code hcode => ?_⟩
  cases hcode
  have hend : (if isBreak = true then "break;\n" else "continue;\n") = b.flowWord ++ "\n" := by
    rw [← hword]
    cases isBreak <;> simp
  -- the loop left is the innermost loop around the block
  subst hloop
  rw [blocksAt_cons hb, List.drop_one, List.tail_cons, hctx.2, hend, ← String.append_assoc]
  have hm := flow_instrumented c (w.blocksAt σ) b
  unfold Config.loopPrefix at hm
  revert hm
  cases (w.blocksAt σ).find? Block.isLoop with
  | none => exact fun hm => ⟨nofun, hm.toShaped, fun _ => hm⟩
  | some loop => exact fun hm => ⟨nofun, hm.toShaped, fun _ => hm⟩

section Exits

variable (hv : ∀ slot order, w.Lodges c R σ (ch.value slot order) (fun _ T => T = []))
include hv

/-- **An early return runs the block's suffix first.** -/
theorem ifReturn_yielded (around : List Block) :
    w.Lodges c R σ (ifReturn ch b) (Yielded c around b .ifReturn) := by
  refine .bind_with .read fun ctx hctx => .bind_quiet (.valueOr (hv _ _)) fun cond => ?_
  refine .bind_with (P := fun ret => ∃ rest, ret = c.indent ++ "return" ++ rest)
    (.ite _ (fun _ => .bind_quiet (.valueOr (hv _ _)) fun v => .pure ⟨rfl, " " ++ v ++ ";\n", ?_⟩)
      fun _ => .pure ⟨rfl, ";\n", ?_⟩) fun ret hret => .pure ⟨nofun, fun code hcode => ?_⟩
  · rw [hctx.2, show "return " = "return" ++ " " by simp]
    simp only [String.append_assoc]
  · rw [hctx.2, show "return;\n" = "return" ++ ";\n" by simp]
    simp only [String.append_assoc]
  · cases hcode
    obtain ⟨rest, rfl⟩ := hret
    rw [hctx.2]
    refine ⟨nofun, ⟨nofun, fun _ => ?_, fun h => by rcases h with h | h <;> cases h⟩, nofun⟩
    -- the return and the suffix before it stand together in the code
    have hcode : "if (" ++ cond ++ ") \x7b\n" ++ c.earlyExitSuffix b ++ (c.indent ++ "return" ++ rest) ++
        "\x7d\n" = ("if (" ++ cond ++ ") \x7b\n") ++ (c.earlyExitSuffix b ++ c.indent ++ "return") ++
          (rest ++ "\x7d\n") := by
      simp only [String.append_assoc]
    rw [hcode]
    exact Text.Held.string_part _ _ _

end Exits

section Bodies

variable (hv : ∀ slot order, w.Lodges c R σ (ch.value slot order) (fun _ T => T = []))
  (hbody : ∀ slot, w.Lodges c R σ (ch.body slot) (fun br T => ∀ x ∈ T, Text.Held x br.toList))
include hv hbody

theorem repeatTimes_placed : w.Lodges c R σ (repeatTimes ch b)
    (fun out T => ∃ code, out = .statement code ∧ ∀ x ∈ T, Text.Held x code.toList) := by
  refine .bind_quiet ?_ fun _ => .bind (hbody _) fun branch T₁ h₁ =>
    .bind_with .read fun ctx _ => .bind_quiet (.temporary _) fun _ =>
      .bind_quiet (.stored _ _ _) fun p => ?_
  · -- the count comes from the field when there is one, and otherwise from the slot
    split
    · split
      · exact .pure rfl
      · exact .throw _
    · exact .valueOr (hv _ _)
  · rcases p with ⟨bound, setup⟩
    refine .pure ⟨_, rfl, fun x hx => ?_⟩
    exact ((h₁ x (by simpa using hx)).trans (Config.held_addLoopTrap _ _ _)).trans
      (Text.Held.string_part _ _ _)

theorem whileUntil_placed : w.Lodges c R σ (whileUntil ch b)
    (fun out T => ∃ code, out = .statement code ∧ ∀ x ∈ T, Text.Held x code.toList) :=
  .bind_quiet (.choose _ _ _) fun _ => .bind_quiet (.valueOr (hv _ _)) fun _ =>
    .bind (hbody _) fun _ T₁ h₁ => .bind_with .read fun _ _ =>
      .pure ⟨_, rfl, fun x hx => ((h₁ x (by simpa using hx)).trans
        (Config.held_addLoopTrap _ _ _)).trans (Text.Held.string_part _ _ _)⟩

theorem forRange_placed : w.Lodges c R σ (forRange ch b)
    (fun out T => ∃ code, out = .statement code ∧ ∀ x ∈ T, Text.Held x code.toList) := by
  refine .bind_with .read fun ctx _ => .bind_quiet (.variableName _) fun _ =>
    .bind_quiet (.valueOr (hv _ _)) fun _ => .bind_quiet (.valueOr (hv _ _)) fun _ =>
      .bind_quiet (.valueOr (hv _ _)) fun _ => .bind (hbody _) fun branch T₁ h₁ => ?_
  have hbranch : ∀ x ∈ T₁ ++ [], Text.Held x (ctx.config.addLoopTrap branch b).toList :=
    fun x hx => (h₁ x (by simpa using hx)).trans (Config.held_addLoopTrap _ _ _)
  -- with three numbers the loop is written at once; otherwise through temporaries
  split
  · exact .pure ⟨_, rfl, fun x hx => (hbranch x hx).trans (Text.Held.string_part _ _ _)⟩
  · refine .bind_quiet (.stored _ _ _) fun p => ?_
    rcases p with ⟨startVar, startSetup⟩
    refine .bind_quiet (.stored _ _ _) fun q => ?_
    rcases q with ⟨stopVar, stopSetup⟩
    exact .bind_quiet (.temporary _) fun _ =>
      .pure ⟨_, rfl, fun x hx => (hbranch x hx).trans (Text.Held.string_part _ _ _)⟩

theorem forEach_placed : w.Lodges c R σ (forEach ch b)
    (fun out T => ∃ code, out = .statement code ∧ ∀ x ∈ T, Text.Held x code.toList) := by
  refine .bind_with .read fun ctx _ => .bind_quiet (.variableName _) fun _ =>
    .bind_quiet (.valueOr (hv _ _)) fun _ => .bind (hbody _) fun branch T₁ h₁ =>
      .bind_quiet (.stored _ _ _) fun p => ?_
  rcases p with ⟨listVar, setup⟩
  -- the element is read at the head of the body
  exact .bind_quiet (.temporary _) fun _ => .pure ⟨_, rfl, fun x hx =>
    (((h₁ x (by simpa using hx)).trans (Config.held_addLoopTrap _ _ _)).string_left _).trans
      (Text.Held.string_part _ _ _)⟩

/-- **An `if` chain holds the block's instrumentation and the code of its branches.** -/
theorem controlsIf_yielded (kind : BlockKind) (hkind : kind = .controlsIf ∨ kind = .controlsIfElse)
    (around : List Block) : w.Lodges c R σ (controlsIf kind ch b) (Yielded c around b kind) := by
  refine .bind_with .read fun ctx hctx => ?_
  obtain ⟨-, rfl⟩ := hctx
  -- the arms written so far: the code is the prefix and their chain, which holds their texts
  refine .bind (.forIn (fun done r T => ∃ arms : List (String × String),
      arms.length = done.length ∧
      r = (ctx.config.prefixFor b).getD "" ++
        " else ".intercalate (arms.map (ifArm (ctx.config.earlyExitSuffix b))) ∧
      ∀ x ∈ T, Text.Held x (" else ".intercalate (arms.map (ifArm (ctx.config.earlyExitSuffix b)))).toList)
    ⟨[], rfl, by simp, nofun⟩ fun done n rest hsplit r T hI => ?_) fun r T₁ h₁ => ?_
  · -- one more arm, after a separator unless it is the first
    obtain ⟨arms, hlen, rfl, hT⟩ := hI
    have hn : n = done.length := List.eq_length_of_append_cons_eq_range hsplit
    refine .bind_quiet (.valueOr (hv _ _)) fun cond =>
      .bind (hbody _) fun br T₂ h₂ => ?_
    have hsnoc := intercalate_ifArm_snoc (ctx.config.earlyExitSuffix b) arms (cond, br)
    obtain ⟨hchain, harm⟩ :=
      held_intercalate_ifArm_snoc (ctx.config.earlyExitSuffix b) arms (cond, br)
    have hheld : ∀ x ∈ T ++ (T₂ ++ []), Text.Held x (" else ".intercalate ((arms ++ [(cond, br)]).map
        (ifArm (ctx.config.earlyExitSuffix b)))).toList := by
      intro x hx
      rcases List.mem_append.1 hx with hx | hx
      · exact (hT x hx).trans hchain
      · exact (h₂ x (by simpa using hx)).trans harm
    refine .ite _ (fun hpos => .pure ⟨_, rfl, _, by simp [hlen], ?_, hheld⟩)
      fun hzero => .pure ⟨_, rfl, _, by simp [hlen], ?_, hheld⟩
    · have hne : arms ≠ [] := fun h => by
        rw [h, List.length_nil] at hlen
        omega
      rw [hsnoc, if_neg hne]
      simp only [ifArm, String.append_assoc]
    · have hnil : arms = [] := List.eq_nil_of_length_eq_zero (by omega)
      rw [hsnoc, if_pos hnil]
      subst hnil
      simp [ifArm, String.append_assoc]
  · -- the `else` arm, when the kind, the block or a configured suffix asks for one
    obtain ⟨arms, hlen, rfl, hT⟩ := h₁
    rw [List.length_range] at hlen
    refine .ite _ (fun hels => .bind (hbody _) fun br T₂ h₂ => .pure ?_) fun hnels => .pure ?_
    · have hcode : (ctx.config.prefixFor b).getD "" ++
          " else ".intercalate (arms.map (ifArm (ctx.config.earlyExitSuffix b))) ++ " else \x7b\n" ++
            ctx.config.earlyExitSuffix b ++ br ++ "\x7d" ++ "\n" = (ctx.config.prefixFor b).getD "" ++
          ifChain (ctx.config.earlyExitSuffix b) arms (some br) ++ "\n" := by
        simp only [ifChain, elseArm, Option.map_some, Option.getD_some, String.append_assoc]
      rw [hcode]
      refine .of_ifChain hkind hlen hels.symm fun x hx => ?_
      rcases List.mem_append.1 hx with hx | hx
      · exact (hT x hx).trans (held_ifChain_arms _ _ _)
      · exact (h₂ x (by simpa using hx)).trans (held_ifChain_else _ _ _).2
    · have hcode : (ctx.config.prefixFor b).getD "" ++
          " else ".intercalate (arms.map (ifArm (ctx.config.earlyExitSuffix b))) ++ "\n" =
          (ctx.config.prefixFor b).getD "" ++ ifChain (ctx.config.earlyExitSuffix b) arms none ++ "\n" := by
        simp [ifChain]
      rw [hcode]
      exact .of_ifChain hkind hlen (by simpa using hnels) fun x hx =>
        (hT x (by simpa using hx)).trans (held_ifChain_arms _ _ _)

/-- The body of a procedure definition and the value it returns, in a scope of their own. -/
theorem definitionBody_lodges : w.Lodges c R σ (GenM.inChildScope do
      let branch ← ch.body "STACK"
      let returned ← ch.value "RETURN" .unbound
      pure (branch, returned))
    (fun p T => ∀ x ∈ T, Text.Held x p.1.toList) :=
  .inChildScope (.bind (hbody _) fun _ _ h₁ => .bind_quiet (hv _ _) fun _ =>
    .pure fun x hx => h₁ x (by simpa using hx))

/-- **A procedure definition registers its code**, hoisted out of the code around it: the code
holds the texts of its body, and the block's prefix and suffix at its head.  It registers under
the name of the block's key, after the steps that reached the blocks inside it. -/
theorem defineProcedure_registers (around : List Block) :
    ∀ ctx s out t, w.Around c R ctx σ s → (defineProcedure ch b).exec ctx s = (.ok out, t) →
      w.Around c R ctx σ t ∧ out = .hoisted ∧ w.Registers c σ around b s t := by
  intro ctx s out t hs hrun
  obtain ⟨name, s₁, hname, hrun⟩ := GenM.exec_bind_eq_ok.1 hrun
  obtain ⟨hs₁, T₁, π₁, hkept₁, rfl⟩ := Lodges.procedureName _ ctx s name s₁ hs hname
  have hnamed : (b.procedureKey, name) ∈ s₁.names.named := by
    rw [GenM.exec_procedureName] at hname
    cases hname
    exact (NameTable.named_nameFor hs.names.table.shaped _ _).2
  obtain ⟨ctx', s₂, hread, hrun⟩ := GenM.exec_bind_eq_ok.1 hrun
  rw [GenM.exec_read] at hread
  cases hread
  obtain ⟨p, s₃, hscope, hrun⟩ := GenM.exec_bind_eq_ok.1 hrun
  obtain ⟨hs₃, T, π₃, hkept₃, hT⟩ := definitionBody_lodges ch hv hbody ctx s₁ p s₃ hs₁ hscope
  rcases p with ⟨branch, returned⟩
  obtain ⟨args, s₄, hargs, hrun⟩ := GenM.exec_bind_eq_ok.1 hrun
  obtain ⟨hs₄, T₄, π₄, hkept₄, rfl⟩ :=
    Lodges.mapM_quiet (fun _ _ => Lodges.variableName _) ctx s₃ args s₄ hs₃ hargs
  obtain ⟨u, s₅, hdef, hrun⟩ := GenM.exec_bind_eq_ok.1 hrun
  rw [GenM.exec_pure] at hrun
  cases hrun
  obtain ⟨hs₅, hseen, hnames, hreg⟩ := hs₄.of_defineProcedure hdef
  have hkept :=
    (hkept₁.trans hs₃.nodup hs.reached hs₃.keyed hkept₃).trans hs₄.nodup hs.reached hs₄.keyed hkept₄
  obtain rfl := hs.config
  refine ⟨hs₅, rfl, s₄, _, _, name, _, hkept, hseen, hnames, hreg,
    hnames ▸ hkept₄.named _ (hkept₃.named _ hnamed), fun x hx => ?_, fun k hk => ?_⟩
  · exact (hT x (by simpa using hx)).trans (held_definition _ _ _ _ _ _).1
  · exact Instrumented.of_entry hk (held_definition _ _ _ _ _ _).2

end Bodies

end Rules

namespace BlockKind

open Workspace Rules

variable {w : Workspace} {c : Config} {R : List String} {σ : List Nat} {ch : Children} {b : Block}
  {i : Nat}

/-- **Every rule but that of a definition yields what its kind asks for**, run for the block at
`i` with the blocks at `σ` around it, when its children lodge theirs: its value slots hand back
no texts, and its bodies hold the texts they hand back. -/
theorem rule_lodges (hb : w.get? i = some b)
    (hv : ∀ slot order, w.Lodges c R (i :: σ) (ch.value slot order) (fun _ T => T = []))
    (hbody : ∀ slot, w.Lodges c R (i :: σ) (ch.body slot)
      (fun br T => ∀ x ∈ T, Text.Held x br.toList))
    (k : BlockKind) (hk : k.isDefinition = false) :
    w.Lodges c R (i :: σ) (k.rule ch b) (Yielded c (w.blocksAt σ) b k) := by
  cases k
  -- the kinds that place their own snippets, and an early return
  case controlsIf => exact controlsIf_yielded ch b hv hbody _ (.inl rfl) _
  case controlsIfElse => exact controlsIf_yielded ch b hv hbody _ (.inr rfl) _
  case flowStatement => exact flowStatement_yielded ch b hb
  case ifReturn => exact ifReturn_yielded ch b hv _
  case defineReturn | defineNoReturn => cases hk
  -- loops place their bodies in their code
  case repeatExt | repeatTimes =>
    exact (repeatTimes_placed ch b hv hbody).yielded_of_placed rfl rfl nofun
  case whileUntil => exact (whileUntil_placed ch b hv hbody).yielded_of_placed rfl rfl nofun
  case forRange => exact (forRange_placed ch b hv hbody).yielded_of_placed rfl rfl nofun
  case forEach => exact (forEach_placed ch b hv hbody).yielded_of_placed rfl rfl nofun
  -- every other rule hands back no texts
  all_goals refine Lodges.yielded_of_quiet ?_ rfl nofun
  case logicCompare => exact logicCompare_quiet ch b hv
  case logicOperation => exact logicOperation_quiet ch b hv
  case logicNegate => exact logicNegate_quiet ch b hv
  case logicBoolean => exact logicBoolean_quiet ch b
  case logicNull => exact logicNull_quiet ch b
  case logicTernary => exact logicTernary_quiet ch b hv
  case callReturn => exact callReturn_quiet ch b hv
  case callNoReturn => exact callNoReturn_quiet ch b hv
  case variablesGet | variablesGetDynamic => exact variablesGet_quiet ch b
  case variablesSet | variablesSetDynamic => exact variablesSet_quiet ch b hv
  case text => exact text_quiet ch b
  case textMultiline => exact textMultiline_quiet ch b
  case textJoin => exact textJoin_quiet ch b hv
  case textAppend => exact textAppend_quiet ch b hv
  case textLength => exact textLength_quiet ch b hv
  case textIsEmpty => exact textIsEmpty_quiet ch b hv
  case textIndexOf => exact textIndexOf_quiet ch b hv
  case textCharAt => exact textCharAt_quiet ch b hv
  case textGetSubstring => exact textGetSubstring_quiet ch b hv
  case textChangeCase => exact textChangeCase_quiet ch b hv
  case textTrim => exact textTrim_quiet ch b hv
  case textPrint => exact textPrint_quiet ch b hv
  case textPromptExt | textPrompt => exact textPrompt_quiet ch b hv
  case textCount => exact textCount_quiet ch b hv
  case textReplace => exact textReplace_quiet ch b hv
  case textReverse => exact textReverse_quiet ch b hv
  case colourPicker => exact colourPicker_quiet ch b
  case colourRandom => exact colourRandom_quiet ch b
  case colourRgb => exact colourRgb_quiet ch b hv
  case colourBlend => exact colourBlend_quiet ch b hv

/-- **The rule of a definition registers the block's code.** -/
theorem rule_registers
    (hv : ∀ slot order, w.Lodges c R σ (ch.value slot order) (fun _ T => T = []))
    (hbody : ∀ slot, w.Lodges c R σ (ch.body slot) (fun br T => ∀ x ∈ T, Text.Held x br.toList))
    (k : BlockKind) (hk : k.isDefinition = true) (around : List Block) :
    ∀ ctx s out t, w.Around c R ctx σ s → (k.rule ch b).exec ctx s = (.ok out, t) →
      w.Around c R ctx σ t ∧ out = .hoisted ∧ w.Registers c σ around b s t := by
  obtain rfl | rfl := (isDefinition_iff k).1 hk <;>
  exact defineProcedure_registers ch b hv hbody around

end BlockKind

end BlockScribe
