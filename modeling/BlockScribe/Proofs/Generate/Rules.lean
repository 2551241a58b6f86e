import BlockScribe.Proofs.Generate.Lockstep
import BlockScribe.Generate.Dispatch
import BlockScribe.Proofs.Naming.Fresh
import Mathlib.Data.List.Nodup
/-!
# Every rule reads each slot at most once

For every kind of block, the rule is in lockstep with itself for any two ways of getting the
children's code (`BlockKind.rule_lockstep`): besides asking for its children it only takes
primitive steps, and it asks for each of its slots at most once.  The lemma of each rule names
the slots it may read.  The `if` chain reads `IF n` and `DO n` for every arm and then perhaps
`ELSE`; a call reads `ARG i` for every parameter; a join reads `ADD i` for every item; every
other rule reads a fixed set of named slots, on every path at most once, the two ends of a part
of a text included (`Rules.textGetSubstring_lockstep`), whichever of its two ways of writing
the part it takes.

Numbered slots differ because decimal numerals do (`nat_toString_injective`).
-/

namespace BlockScribe

/-- The slots of arm `n` of an `if` chain: its branch and its condition. -/
def ifSlots (n : Nat) : List Slot := [.body ("DO" ++ toString n), .value ("IF" ++ toString n)]

/-- The value slot `<pre><n>` of a numbered input. -/
def numberedSlot (pre : String) (n : Nat) : List Slot := [.value (pre ++ toString n)]

theorem nodup_flatMap_ifSlots (xs : List Nat) (h : xs.Nodup) : (xs.flatMap ifSlots).Nodup := by
  refine List.nodup_flatMap.2 ⟨fun n _ => by simp [ifSlots], h.imp fun {n m} hnm => ?_⟩
  have hne : toString n ≠ toString m := fun h' => hnm (nat_toString_injective h')
  simp only [Function.onFun, ifSlots]
  simpa [eq_comm] using hne

theorem nodup_flatMap_numberedSlot (pre : String) (xs : List Nat) (h : xs.Nodup) :
    (xs.flatMap (numberedSlot pre)).Nodup := by
  refine List.nodup_flatMap.2 ⟨fun n _ => by simp [numberedSlot], h.imp fun {n m} hnm => ?_⟩
  have hne : toString n ≠ toString m := fun h' => hnm (nat_toString_injective h')
  simp only [Function.onFun, numberedSlot]
  simpa [eq_comm] using hne

namespace Lockstep

variable {ch₁ ch₂ : Children} {α : Type} {A : List Slot}

/-- Primitive steps over the elements of a list read no slot. -/
theorem mapM_prim {γ : Type} (xs : List γ) {f : γ → GenM α} (hf : ∀ x, Prim (f x)) :
    Lockstep ch₁ ch₂ A (xs.mapM f) (xs.mapM f) A := by
  induction xs with
  | nil => exact .pure _ (List.Subset.refl _)
  | cons x xs ih =>
    rw [List.mapM_cons]
    exact .bind (.prim (hf x)) fun _ => .bind ih fun _ => .pure _ (List.Subset.refl _)

theorem adjustedIndex (slot : String) (delta : Int) (negate : Bool) (order : Order)
    (hA : Slot.value slot ∉ A) :
    Lockstep ch₁ ch₂ A (BlockScribe.adjustedIndex ch₁ slot delta negate order)
      (BlockScribe.adjustedIndex ch₂ slot delta negate order) (.value slot :: A) :=
  .bind (.prim .read) fun _ => .bind (.valueOr slot _ _ hA) fun _ => .pure _ (List.Subset.refl _)

theorem stored (keep : Bool) (base code : String) :
    Lockstep ch₁ ch₂ A (Rules.stored keep base code) (Rules.stored keep base code) A :=
  .ite _ (fun _ => .pure _ (List.Subset.refl _))
    fun _ => .bind (.prim (.temporary _)) fun _ => .pure _ (List.Subset.refl _)

end Lockstep

namespace Rules

variable (ch₁ ch₂ : Children) (b : Block)

theorem controlsIf_lockstep (kind : BlockKind) :
    Lockstep ch₁ ch₂ [] (controlsIf kind ch₁ b) (controlsIf kind ch₂ b)
      (.body "ELSE" :: (List.range (max (connectedArity b (min (b.extra.elseIfCount + 1) countMax)
        ["IF", "DO"]) 1)).flatMap ifSlots) := by
  unfold controlsIf
  refine .bind (.prim .read) fun ctx => ?_
  refine .bind (.forIn _ _ ifSlots (fun n _ r A' hA' => ?_)
    (nodup_flatMap_ifSlots _ List.nodup_range) (fun _ _ h => by simp at h)) fun code => ?_
  · -- one arm: its condition, then its branch
    refine .bind (.valueOr _ _ _ (hA' _ (by simp [ifSlots]))) fun _ => ?_
    refine .bind (.body _ ?_) fun _ => ?_
    · simpa using hA' _ (by simp [ifSlots])
    · exact .ite _ (fun _ => .pure _ (List.Subset.refl _)) fun _ => .pure _ (List.Subset.refl _)
  · -- the `else` arm reads a slot that no numbered arm has
    have hElse : ∀ xs : List Nat, Slot.body "ELSE" ∉ xs.flatMap ifSlots ++ [] := by
      intro xs h
      simp only [List.append_nil, List.mem_flatMap, ifSlots, List.mem_cons, Slot.body.injEq,
        reduceCtorEq, List.not_mem_nil, or_false] at h
      obtain ⟨n, -, h⟩ := h
      simpa using congrArg (fun s : String => s.toList.head?) h
    exact .ite _ (fun _ => .bind (.body "ELSE" (hElse _)) fun _ => .pure _ (by simp))
      fun _ => .pure _ (by simp)

theorem logicCompare_lockstep :
    Lockstep ch₁ ch₂ [] (logicCompare ch₁ b) (logicCompare ch₂ b) [.value "B", .value "A"] := by
  refine .bind (.prim (.choose _ _ _)) fun op => ?_
  cases op <;>
  · refine .bind (.valueOr "A" _ _ (by simp)) fun _ => ?_
    exact .bind (.valueOr "B" _ _ (by simp)) fun _ => .pure _ (List.Subset.refl _)

theorem logicOperation_lockstep :
    Lockstep ch₁ ch₂ [] (logicOperation ch₁ b) (logicOperation ch₂ b) [.value "B", .value "A"] := by
  refine .bind (.prim (.choose _ _ _)) fun isAnd => ?_
  refine .bind (.value "A" _ (by simp)) fun _ => ?_
  exact .bind (.value "B" _ (by simp)) fun _ => .pure _ (List.Subset.refl _)

theorem logicNegate_lockstep :
    Lockstep ch₁ ch₂ [] (logicNegate ch₁ b) (logicNegate ch₂ b) [.value "BOOL"] :=
  .bind (.valueOr "BOOL" _ _ (by simp)) fun _ => .pure _ (List.Subset.refl _)

theorem logicBoolean_lockstep :
    Lockstep ch₁ ch₂ [] (logicBoolean ch₁ b) (logicBoolean ch₂ b) [] :=
  .bind (.prim (.choose _ _ _)) fun _ => .pure _ (List.Subset.refl _)

theorem logicNull_lockstep : Lockstep ch₁ ch₂ [] (logicNull ch₁ b) (logicNull ch₂ b) [] :=
  .pure _ (List.Subset.refl _)

theorem logicTernary_lockstep :
    Lockstep ch₁ ch₂ [] (logicTernary ch₁ b) (logicTernary ch₂ b)
      [.value "ELSE", .value "THEN", .value "IF"] := by
  refine .bind (.valueOr "IF" _ _ (by simp)) fun _ => ?_
  refine .bind (.valueOr "THEN" _ _ (by simp)) fun _ => ?_
  exact .bind (.valueOr "ELSE" _ _ (by simp)) fun _ => .pure _ (List.Subset.refl _)

theorem repeatTimes_lockstep :
    Lockstep ch₁ ch₂ [] (repeatTimes ch₁ b) (repeatTimes ch₂ b) [.body "DO", .value "TIMES"] := by
  refine .bind (B := [.value "TIMES"]) ?_ fun _ => ?_
  · -- the count comes from the field when there is one, and otherwise from the slot
    split
    · split
      · exact .pure _ (List.nil_subset _)
      · exact .mono (.prim (.invalidField _ _ _ _)) (List.nil_subset _)
    · exact .valueOr "TIMES" _ _ (by simp)
  · refine .bind (.body "DO" (by simp)) fun _ => ?_
    refine .bind (.prim .read) fun _ => ?_
    refine .bind (.prim (.temporary _)) fun _ => ?_
    exact .bind (.stored _ _ _) fun ⟨_, _⟩ => .pure _ (List.Subset.refl _)

theorem whileUntil_lockstep :
    Lockstep ch₁ ch₂ [] (whileUntil ch₁ b) (whileUntil ch₂ b) [.body "DO", .value "BOOL"] := by
  refine .bind (.prim (.choose _ _ _)) fun _ => ?_
  refine .bind (.valueOr "BOOL" _ _ (by simp)) fun _ => ?_
  refine .bind (.body "DO" (by simp)) fun _ => ?_
  exact .bind (.prim .read) fun _ => .pure _ (List.Subset.refl _)

theorem forRange_lockstep :
    Lockstep ch₁ ch₂ [] (forRange ch₁ b) (forRange ch₂ b)
      [.body "DO", .value "BY", .value "TO", .value "FROM"] := by
  refine .bind (.prim .read) fun _ => ?_
  refine .bind (.prim (.variableName _)) fun _ => ?_
  refine .bind (.valueOr "FROM" _ _ (by simp)) fun _ => ?_
  refine .bind (.valueOr "TO" _ _ (by simp)) fun _ => ?_
  refine .bind (.valueOr "BY" _ _ (by simp)) fun _ => ?_
  refine .bind (.body "DO" (by simp)) fun _ => ?_
  -- with three numbers the loop is written at once; otherwise through temporaries
  split
  · exact .pure _ (List.Subset.refl _)
  · refine .bind (.stored _ _ _) fun ⟨_, _⟩ => ?_
    refine .bind (.stored _ _ _) fun ⟨_, _⟩ => ?_
    exact .bind (.prim (.temporary _)) fun _ => .pure _ (List.Subset.refl _)

theorem forEach_lockstep :
    Lockstep ch₁ ch₂ [] (forEach ch₁ b) (forEach ch₂ b) [.body "DO", .value "LIST"] := by
  refine .bind (.prim .read) fun _ => ?_
  refine .bind (.prim (.variableName _)) fun _ => ?_
  refine .bind (.valueOr "LIST" _ _ (by simp)) fun _ => ?_
  refine .bind (.body "DO" (by simp)) fun _ => ?_
  refine .bind (.stored _ _ _) fun ⟨_, _⟩ => ?_
  exact .bind (.prim (.temporary _)) fun _ => .pure _ (List.Subset.refl _)

theorem flowStatement_lockstep :
    Lockstep ch₁ ch₂ [] (flowStatement ch₁ b) (flowStatement ch₂ b) [] := by
  refine .bind (.prim (.choose _ _ _)) fun _ => ?_
  refine .bind (.prim .read) fun _ => ?_
  exact .bind (.prim .surroundingLoop) fun _ => .pure _ (List.Subset.refl _)

theorem defineProcedure_lockstep :
    Lockstep ch₁ ch₂ [] (defineProcedure ch₁ b) (defineProcedure ch₂ b)
      [.value "RETURN", .body "STACK"] := by
  refine .bind (.prim (.procedureName _)) fun _ => ?_
  refine .bind (.prim .read) fun _ => ?_
  -- the body is generated in a scope of its own
  refine .bind (.scope (.bind (.body "STACK" (by simp)) fun _ =>
    .bind (.value "RETURN" _ (by simp)) fun _ => .pure _ (List.Subset.refl _))) fun ⟨_, returned⟩ => ?_
  cases returned <;>
  · refine .bind (.mapM_prim _ fun _ => .variableName _) fun _ => ?_
    exact .bind (.prim (.defineProcedure _ _)) fun _ => .pure _ (List.Subset.refl _)

theorem callReturn_lockstep :
    Lockstep ch₁ ch₂ [] (callReturn ch₁ b) (callReturn ch₂ b)
      ((List.range b.extra.params.length).flatMap (numberedSlot "ARG")) := by
  refine .bind (.prim (.procedureName _)) fun _ => ?_
  refine .bind (.mapM _ (numberedSlot "ARG")
    (fun _ _ _ hA' => .valueOr _ _ _ (hA' _ (by simp [numberedSlot])))
    (nodup_flatMap_numberedSlot _ _ List.nodup_range) (fun _ _ => List.not_mem_nil)) fun _ => ?_
  exact .pure _ (by simp)

theorem callNoReturn_lockstep :
    Lockstep ch₁ ch₂ [] (callNoReturn ch₁ b) (callNoReturn ch₂ b)
      ((List.range b.extra.params.length).flatMap (numberedSlot "ARG")) := by
  refine .bind (callReturn_lockstep ch₁ ch₂ b) fun out => ?_
  cases out <;> exact .pure _ (List.Subset.refl _)

theorem ifReturn_lockstep :
    Lockstep ch₁ ch₂ [] (ifReturn ch₁ b) (ifReturn ch₂ b) [.value "VALUE", .value "CONDITION"] := by
  refine .bind (.prim .read) fun _ => ?_
  refine .bind (.valueOr "CONDITION" _ _ (by simp)) fun _ => ?_
  refine .bind (.ite _
    (fun _ => .bind (.valueOr "VALUE" _ _ (by simp)) fun _ => .pure _ (List.Subset.refl _))
    (fun _ => .pure _ (List.subset_cons_self _ _))) fun _ => ?_
  exact .pure _ (List.Subset.refl _)

theorem variablesGet_lockstep :
    Lockstep ch₁ ch₂ [] (variablesGet ch₁ b) (variablesGet ch₂ b) [] :=
  .bind (.prim (.variableName _)) fun _ => .pure _ (List.Subset.refl _)

theorem variablesSet_lockstep :
    Lockstep ch₁ ch₂ [] (variablesSet ch₁ b) (variablesSet ch₂ b) [.value "VALUE"] :=
  .bind (.valueOr "VALUE" _ _ (by simp)) fun _ =>
    .bind (.prim (.variableName _)) fun _ => .pure _ (List.Subset.refl _)

theorem text_lockstep : Lockstep ch₁ ch₂ [] (text ch₁ b) (text ch₂ b) [] :=
  .pure _ (List.Subset.refl _)

theorem textMultiline_lockstep :
    Lockstep ch₁ ch₂ [] (textMultiline ch₁ b) (textMultiline ch₂ b) [] :=
  .pure _ (List.Subset.refl _)

theorem textJoin_lockstep :
    Lockstep ch₁ ch₂ [] (textJoin ch₁ b) (textJoin ch₂ b)
      ((List.range (connectedArity b (b.extra.itemCount.getD 2) ["ADD"])).flatMap
        (numberedSlot "ADD")) := by
  -- one and two items are joined with a plus, more in an array
  unfold textJoin
  split
  · exact .pure _ (List.nil_subset _)
  next h =>
    exact .bind (.valueOr "ADD0" _ _ (by simp)) fun _ => .pure _ (by rw [h]; decide)
  next h =>
    refine .bind (.valueOr "ADD0" _ _ (by simp)) fun _ => ?_
    exact .bind (.valueOr "ADD1" _ _ (by simp)) fun _ => .pure _ (by rw [h]; decide)
  · refine .bind (.mapM _ (numberedSlot "ADD")
      (fun _ _ _ hA' => .valueOr _ _ _ (hA' _ (by simp [numberedSlot])))
      (nodup_flatMap_numberedSlot _ _ List.nodup_range) (fun _ _ => List.not_mem_nil)) fun _ => ?_
    exact .pure _ (by simp)

theorem textAppend_lockstep :
    Lockstep ch₁ ch₂ [] (textAppend ch₁ b) (textAppend ch₂ b) [.value "TEXT"] :=
  .bind (.prim (.variableName _)) fun _ =>
    .bind (.valueOr "TEXT" _ _ (by simp)) fun _ => .pure _ (List.Subset.refl _)

theorem textLength_lockstep :
    Lockstep ch₁ ch₂ [] (textLength ch₁ b) (textLength ch₂ b) [.value "VALUE"] :=
  .bind (.valueOr "VALUE" _ _ (by simp)) fun _ => .pure _ (List.Subset.refl _)

theorem textIsEmpty_lockstep :
    Lockstep ch₁ ch₂ [] (textIsEmpty ch₁ b) (textIsEmpty ch₂ b) [.value "VALUE"] :=
  .bind (.valueOr "VALUE" _ _ (by simp)) fun _ => .pure _ (List.Subset.refl _)

theorem textIndexOf_lockstep :
    Lockstep ch₁ ch₂ [] (textIndexOf ch₁ b) (textIndexOf ch₂ b) [.value "VALUE", .value "FIND"] := by
  refine .bind (.prim (.choose _ _ _)) fun _ => ?_
  refine .bind (.valueOr "FIND" _ _ (by simp)) fun _ => ?_
  refine .bind (.valueOr "VALUE" _ _ (by simp)) fun _ => ?_
  exact .bind (.prim .read) fun _ =>
    .ite _ (fun _ => .pure _ (List.Subset.refl _)) fun _ => .pure _ (List.Subset.refl _)

theorem textCharAt_lockstep :
    Lockstep ch₁ ch₂ [] (textCharAt ch₁ b) (textCharAt ch₂ b) [.value "AT", .value "VALUE"] := by
  refine .bind (.prim (.choose _ _ _)) fun place => ?_
  refine .bind (.valueOr "VALUE" _ _ (by simp)) fun _ => ?_
  refine .bind (B := [.value "AT", .value "VALUE"]) ?_ fun _ => .pure _ (List.Subset.refl _)
  -- only a position counted from either end reads the index
  split
  · exact .pure _ (List.subset_cons_self _ _)
  · exact .pure _ (List.subset_cons_self _ _)
  iterate 2 exact .bind (.adjustedIndex _ _ _ _ (by simp)) fun _ => .pure _ (List.Subset.refl _)
  · exact .bind (.mono (.prim (.provide _ _)) (List.subset_cons_self _ _)) fun _ =>
      .pure _ (List.Subset.refl _)

theorem textGetSubstring_lockstep :
    Lockstep ch₁ ch₂ [] (textGetSubstring ch₁ b) (textGetSubstring ch₂ b)
      [.value "AT2", .value "AT1", .value "STRING"] := by
  refine .bind (.valueOr "STRING" _ _ (by simp)) fun _ => ?_
  refine .bind (.prim (.choose _ _ _)) fun start => ?_
  refine .bind (.prim (.choose _ _ _)) fun stop => ?_
  refine .ite _ (fun _ => .pure _ (by simp)) fun _ => .ite _ (fun _ => ?_) fun _ => ?_
  · -- the part taken with a slice: each end that is not fixed reads its index
    refine .bind (B := [.value "AT1", .value "STRING"]) ?_ fun _ => ?_
    · split
      · exact .adjustedIndex _ _ _ _ (by simp)
      · exact .bind (.adjustedIndex _ _ _ _ (by simp)) fun _ => .pure _ (List.Subset.refl _)
      · exact .pure _ (List.subset_cons_self _ _)
    refine .bind (B := [.value "AT2", .value "AT1", .value "STRING"]) ?_ fun _ =>
      .pure _ (List.Subset.refl _)
    split
    · exact .adjustedIndex _ _ _ _ (by simp)
    · exact .bind (.adjustedIndex _ _ _ _ (by simp)) fun _ => .pure _ (List.Subset.refl _)
    · exact .pure _ (List.subset_cons_self _ _)
  · -- the part taken by a helper, with the indices that are not fixed as arguments
    refine .bind (B := [.value "AT1", .value "STRING"]) (.ite _
      (fun _ => .map _ (.adjustedIndex _ _ _ _ (by simp)))
      (fun _ => .pure _ (List.subset_cons_self _ _))) fun _ => ?_
    refine .bind (B := [.value "AT2", .value "AT1", .value "STRING"]) (.ite _
      (fun _ => .map _ (.adjustedIndex _ _ _ _ (by simp)))
      (fun _ => .pure _ (List.subset_cons_self _ _))) fun _ => ?_
    exact .bind (.prim (.provide _ _)) fun _ => .pure _ (List.Subset.refl _)

theorem textChangeCase_lockstep :
    Lockstep ch₁ ch₂ [] (textChangeCase ch₁ b) (textChangeCase ch₂ b) [.value "TEXT"] := by
  refine .bind (.prim (.choose _ _ _)) fun method => ?_
  refine .bind (.valueOr "TEXT" _ _ (by simp)) fun _ => ?_
  split
  · exact .pure _ (List.Subset.refl _)
  · exact .bind (.prim (.provide _ _)) fun _ => .pure _ (List.Subset.refl _)

theorem textTrim_lockstep :
    Lockstep ch₁ ch₂ [] (textTrim ch₁ b) (textTrim ch₂ b) [.value "TEXT"] :=
  .bind (.prim (.choose _ _ _)) fun _ =>
    .bind (.valueOr "TEXT" _ _ (by simp)) fun _ => .pure _ (List.Subset.refl _)

theorem textPrint_lockstep :
    Lockstep ch₁ ch₂ [] (textPrint ch₁ b) (textPrint ch₂ b) [.value "TEXT"] :=
  .bind (.valueOr "TEXT" _ _ (by simp)) fun _ => .pure _ (List.Subset.refl _)

theorem textPrompt_lockstep :
    Lockstep ch₁ ch₂ [] (textPrompt ch₁ b) (textPrompt ch₂ b) [.value "TEXT"] := by
  refine .bind (B := [.value "TEXT"]) ?_ fun _ =>
    .bind (.prim (.choose _ _ _)) fun _ => .pure _ (List.Subset.refl _)
  -- the message is the field when there is one, and otherwise the slot
  split
  · exact .pure _ (List.nil_subset _)
  · exact .valueOr "TEXT" _ _ (by simp)

theorem textCount_lockstep :
    Lockstep ch₁ ch₂ [] (textCount ch₁ b) (textCount ch₂ b) [.value "SUB", .value "TEXT"] := by
  refine .bind (.valueOr "TEXT" _ _ (by simp)) fun _ => ?_
  refine .bind (.valueOr "SUB" _ _ (by simp)) fun _ => ?_
  exact .bind (.prim (.provide _ _)) fun _ => .pure _ (List.Subset.refl _)

theorem textReplace_lockstep :
    Lockstep ch₁ ch₂ [] (textReplace ch₁ b) (textReplace ch₂ b)
      [.value "TO", .value "FROM", .value "TEXT"] := by
  refine .bind (.valueOr "TEXT" _ _ (by simp)) fun _ => ?_
  refine .bind (.valueOr "FROM" _ _ (by simp)) fun _ => ?_
  refine .bind (.valueOr "TO" _ _ (by simp)) fun _ => ?_
  exact .bind (.prim (.provide _ _)) fun _ => .pure _ (List.Subset.refl _)

theorem textReverse_lockstep :
    Lockstep ch₁ ch₂ [] (textReverse ch₁ b) (textReverse ch₂ b) [.value "TEXT"] :=
  .bind (.valueOr "TEXT" _ _ (by simp)) fun _ => .pure _ (List.Subset.refl _)

theorem colourPicker_lockstep :
    Lockstep ch₁ ch₂ [] (colourPicker ch₁ b) (colourPicker ch₂ b) [] :=
  .pure _ (List.Subset.refl _)

theorem colourRandom_lockstep :
    Lockstep ch₁ ch₂ [] (colourRandom ch₁ b) (colourRandom ch₂ b) [] :=
  .bind (.prim (.provide _ _)) fun _ => .pure _ (List.Subset.refl _)

theorem colourRgb_lockstep :
    Lockstep ch₁ ch₂ [] (colourRgb ch₁ b) (colourRgb ch₂ b)
      [.value "BLUE", .value "GREEN", .value "RED"] := by
  refine .bind (.valueOr "RED" _ _ (by simp)) fun _ => ?_
  refine .bind (.valueOr "GREEN" _ _ (by simp)) fun _ => ?_
  refine .bind (.valueOr "BLUE" _ _ (by simp)) fun _ => ?_
  exact .bind (.prim (.provide _ _)) fun _ => .pure _ (List.Subset.refl _)

theorem colourBlend_lockstep :
    Lockstep ch₁ ch₂ [] (colourBlend ch₁ b) (colourBlend ch₂ b)
      [.value "RATIO", .value "COLOUR2", .value "COLOUR1"] := by
  refine .bind (.valueOr "COLOUR1" _ _ (by simp)) fun _ => ?_
  refine .bind (.valueOr "COLOUR2" _ _ (by simp)) fun _ => ?_
  refine .bind (.valueOr "RATIO" _ _ (by simp)) fun _ => ?_
  exact .bind (.prim (.provide _ _)) fun _ => .pure _ (List.Subset.refl _)

end Rules

/-- **Every rule is in lockstep with itself.**  Whatever the kind of a block, its rule run with
two ways of getting the children's code takes the same steps, reading each slot at most once. -/
theorem BlockKind.rule_lockstep : ∀ (k : BlockKind) (ch₁ ch₂ : Children) (b : Block),
    ∃ B, Lockstep ch₁ ch₂ [] (k.rule ch₁ b) (k.rule ch₂ b) B
  | .controlsIf, ch₁, ch₂, b => ⟨_, Rules.controlsIf_lockstep ch₁ ch₂ b _⟩
  | .controlsIfElse, ch₁, ch₂, b => ⟨_, Rules.controlsIf_lockstep ch₁ ch₂ b _⟩
  | .logicCompare, ch₁, ch₂, b => ⟨_, Rules.logicCompare_lockstep ch₁ ch₂ b⟩
  | .logicOperation, ch₁, ch₂, b => ⟨_, Rules.logicOperation_lockstep ch₁ ch₂ b⟩
  | .logicNegate, ch₁, ch₂, b => ⟨_, Rules.logicNegate_lockstep ch₁ ch₂ b⟩
  | .logicBoolean, ch₁, ch₂, b => ⟨_, Rules.logicBoolean_lockstep ch₁ ch₂ b⟩
  | .logicNull, ch₁, ch₂, b => ⟨_, Rules.logicNull_lockstep ch₁ ch₂ b⟩
  | .logicTernary, ch₁, ch₂, b => ⟨_, Rules.logicTernary_lockstep ch₁ ch₂ b⟩
  | .repeatExt, ch₁, ch₂, b => ⟨_, Rules.repeatTimes_lockstep ch₁ ch₂ b⟩
  | .repeatTimes, ch₁, ch₂, b => ⟨_, Rules.repeatTimes_lockstep ch₁ ch₂ b⟩
  | .whileUntil, ch₁, ch₂, b => ⟨_, Rules.whileUntil_lockstep ch₁ ch₂ b⟩
  | .forRange, ch₁, ch₂, b => ⟨_, Rules.forRange_lockstep ch₁ ch₂ b⟩
  | .forEach, ch₁, ch₂, b => ⟨_, Rules.forEach_lockstep ch₁ ch₂ b⟩
  | .flowStatement, ch₁, ch₂, b => ⟨_, Rules.flowStatement_lockstep ch₁ ch₂ b⟩
  | .defineReturn, ch₁, ch₂, b => ⟨_, Rules.defineProcedure_lockstep ch₁ ch₂ b⟩
  | .defineNoReturn, ch₁, ch₂, b => ⟨_, Rules.defineProcedure_lockstep ch₁ ch₂ b⟩
  | .callReturn, ch₁, ch₂, b => ⟨_, Rules.callReturn_lockstep ch₁ ch₂ b⟩
  | .callNoReturn, ch₁, ch₂, b => ⟨_, Rules.callNoReturn_lockstep ch₁ ch₂ b⟩
  | .ifReturn, ch₁, ch₂, b => ⟨_, Rules.ifReturn_lockstep ch₁ ch₂ b⟩
  | .variablesGet, ch₁, ch₂, b => ⟨_, Rules.variablesGet_lockstep ch₁ ch₂ b⟩
  | .variablesGetDynamic, ch₁, ch₂, b => ⟨_, Rules.variablesGet_lockstep ch₁ ch₂ b⟩
  | .variablesSet, ch₁, ch₂, b => ⟨_, Rules.variablesSet_lockstep ch₁ ch₂ b⟩
  | .variablesSetDynamic, ch₁, ch₂, b => ⟨_, Rules.variablesSet_lockstep ch₁ ch₂ b⟩
  | .text, ch₁, ch₂, b => ⟨_, Rules.text_lockstep ch₁ ch₂ b⟩
  | .textMultiline, ch₁, ch₂, b => ⟨_, Rules.textMultiline_lockstep ch₁ ch₂ b⟩
  | .textJoin, ch₁, ch₂, b => ⟨_, Rules.textJoin_lockstep ch₁ ch₂ b⟩
  | .textAppend, ch₁, ch₂, b => ⟨_, Rules.textAppend_lockstep ch₁ ch₂ b⟩
  | .textLength, ch₁, ch₂, b => ⟨_, Rules.textLength_lockstep ch₁ ch₂ b⟩
  | .textIsEmpty, ch₁, ch₂, b => ⟨_, Rules.textIsEmpty_lockstep ch₁ ch₂ b⟩
  | .textIndexOf, ch₁, ch₂, b => ⟨_, Rules.textIndexOf_lockstep ch₁ ch₂ b⟩
  | .textCharAt, ch₁, ch₂, b => ⟨_, Rules.textCharAt_lockstep ch₁ ch₂ b⟩
  | .textGetSubstring, ch₁, ch₂, b => ⟨_, Rules.textGetSubstring_lockstep ch₁ ch₂ b⟩
  | .textChangeCase, ch₁, ch₂, b => ⟨_, Rules.textChangeCase_lockstep ch₁ ch₂ b⟩
  | .textTrim, ch₁, ch₂, b => ⟨_, Rules.textTrim_lockstep ch₁ ch₂ b⟩
  | .textPrint, ch₁, ch₂, b => ⟨_, Rules.textPrint_lockstep ch₁ ch₂ b⟩
  | .textPromptExt, ch₁, ch₂, b => ⟨_, Rules.textPrompt_lockstep ch₁ ch₂ b⟩
  | .textPrompt, ch₁, ch₂, b => ⟨_, Rules.textPrompt_lockstep ch₁ ch₂ b⟩
  | .textCount, ch₁, ch₂, b => ⟨_, Rules.textCount_lockstep ch₁ ch₂ b⟩
  | .textReplace, ch₁, ch₂, b => ⟨_, Rules.textReplace_lockstep ch₁ ch₂ b⟩
  | .textReverse, ch₁, ch₂, b => ⟨_, Rules.textReverse_lockstep ch₁ ch₂ b⟩
  | .colourPicker, ch₁, ch₂, b => ⟨_, Rules.colourPicker_lockstep ch₁ ch₂ b⟩
  | .colourRandom, ch₁, ch₂, b => ⟨_, Rules.colourRandom_lockstep ch₁ ch₂ b⟩
  | .colourRgb, ch₁, ch₂, b => ⟨_, Rules.colourRgb_lockstep ch₁ ch₂ b⟩
  | .colourBlend, ch₁, ch₂, b => ⟨_, Rules.colourBlend_lockstep ch₁ ch₂ b⟩

end BlockScribe
