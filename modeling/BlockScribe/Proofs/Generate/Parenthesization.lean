import BlockScribe.Proofs.Generate.TextPrints
/-!
# Generated values are read as one operand

A value slot that holds a tree of the value blocks `Denotes` describes gives code that the script
reads as one operand of that tree, wherever the rule asks for it: the rule of every such kind
prints its block's tree (`BlockKind.rule_printed`), and the traversal hands each rule children
whose slots do the same, by induction on its fuel (`Generation.valueCode_operand`).  A rule's
code is bracketed for the order asked for (`Prints.bracket`), so the slot's code is an `Operand`
of that order.

Such code is read by the script exactly when no text of the tree holds a carriage return
(`Operand.reads`): `quote` leaves one as it is, and the script allows none inside a string
literal.  Read, its tokens derive, at the level that stands as one operand where the order is
asked for, an expression that is the tree up to the grouping of chains of `&&` and of `||`.
The main statement is `valueCode_reads_as_one_operand`; `carriage_return_text_is_no_operand`
shows the failure on a text of two characters around a carriage return.
-/

namespace BlockScribe

open Script GenM

namespace GenM.Gives

variable {w : Workspace} {ob : Bool}

theorem block (i : Nat) : Gives w ob (fun b => w.get? i = some b) (GenM.block i) :=
  of_keeps (.block i) fun ctx s _ hw _ _ hb =>
    hw ▸ (exec_block_eq_ok (t := ((GenM.block i).exec ctx s).2)).1 (Prod.ext hb rfl) |>.1

theorem visit (i : Nat) (b : Block) : Gives w ob (fun _ => True) (GenM.visit i b) :=
  of_keeps (.visit i b) fun _ _ _ _ _ _ _ => trivial

theorem kindOf (b : Block) :
    Gives w ob (fun k => BlockKind.ofName? b.kind = some k) (GenM.kindOf b) :=
  of_keeps (.kindOf b) fun ctx s _ _ _ _ hk =>
    ((exec_kindOf_eq_ok (t := ((GenM.kindOf b).exec ctx s).2)).1 (Prod.ext hk rfl)).1

theorem emit (e : Event) : Gives w ob (fun _ => True) (GenM.emit e) :=
  of_keeps (.emit e) fun _ _ _ _ _ _ _ => trivial

end GenM.Gives

/-! ### The kinds with trees -/

/-- **The rule of every kind with a tree prints its block's tree**, given children whose slots
give operands. -/
theorem BlockKind.rule_printed {ch : Children} {w : Workspace} {ob : Bool} {b : Block}
    (k : BlockKind) (hk : k.hasTree = true) (hch : ch.Operands w ob b) :
    Gives w ob (Printed w ob k b) (k.rule ch b) := by
  cases k
  case logicCompare => exact logicCompare_printed hch
  case logicOperation => exact logicOperation_printed hch
  case logicNegate => exact logicNegate_printed hch
  case logicBoolean => exact @logicBoolean_printed ch w ob b
  case logicNull => exact @logicNull_printed ch w ob b
  case logicTernary => exact logicTernary_printed hch
  case variablesGet => exact @variablesGet_printed ch w ob b _ (.inl rfl)
  case variablesGetDynamic => exact @variablesGet_printed ch w ob b _ (.inr rfl)
  case callReturn => exact callReturn_printed hch
  case text => exact @text_printed ch w ob b
  case textMultiline => exact @textMultiline_printed ch w ob b
  case textJoin => exact textJoin_printed hch
  case textLength => exact textLength_printed hch
  case textIsEmpty => exact textIsEmpty_printed hch
  case textIndexOf => exact textIndexOf_printed hch
  case textCharAt => exact textCharAt_printed hch
  case textGetSubstring => exact textGetSubstring_printed hch
  case textChangeCase => exact textChangeCase_printed hch
  case textTrim => exact textTrim_printed hch
  case textPrompt => exact textPrompt_printed (.inl rfl) hch
  case textPromptExt => exact textPrompt_printed (.inr rfl) hch
  case textCount => exact textCount_printed hch
  case textReplace => exact textReplace_printed hch
  case textReverse => exact textReverse_printed hch
  case colourPicker => exact @colourPicker_printed ch w ob b
  case colourRandom => exact @colourRandom_printed ch w ob b
  case colourRgb => exact colourRgb_printed hch
  case colourBlend => exact colourBlend_printed hch
  all_goals simp [BlockKind.hasTree] at hk

/-! ### The traversal -/

namespace Generation

variable {w : Workspace} {ob : Bool}

/-- A block given to its rule comes back as its kind says, in every session whose names are
references. -/
theorem dispatch_gives_fits (f : Nat) (b : Block) :
    Gives w ob (fun p => BlockKind.ofName? b.kind = some p.1 ∧ p.2.Fits p.1) (dispatch f b) :=
  Gives.of_keeps (keeps_dispatch f b) fun _ _ _ _ _ hs hp =>
    dispatch_fits (Prod.ext hp rfl) hs.keysInline

/-- **A value slot holding a tree gives an operand that prints it**, and a block of a kind with a
tree, all of whose slots hold trees, comes back from its rule printing its tree: together, by
induction on the fuel, since each of the two asks the other with one unit less. -/
theorem valueCode_operand (f : Nat) :
    (∀ parent slot o, Built w parent slot →
      Gives w ob (SlotCode w ob parent slot o) (valueCode f parent slot o)) ∧
    (∀ b k, BlockKind.ofName? b.kind = some k → k.hasTree = true → (∀ slot, Built w b slot) →
      Gives w ob (fun p => p.1 = k ∧ Printed w ob k b p.2) (dispatch f b)) := by
  induction f with
  | zero => exact ⟨fun _ _ _ _ => .throw _, fun _ _ _ _ _ => .throw _⟩
  | succ f ih =>
    refine ⟨fun parent slot o hbuilt => ?_, fun b k hk hkind hslots => ?_⟩
    · unfold valueCode
      -- the slot: empty, or a block that is reached, then skipped or given to its rule
      have hreach : ∀ {i c} {rest : Block → GenM (Option String)}, parent.value? slot = some i →
          w.get? i = some c → (c.disabled = false → Gives w ob (SlotCode w ob parent slot o) (rest c)) →
          Gives w ob (SlotCode w ob parent slot o) (do
            let b ← GenM.block i
            GenM.visit i b
            if b.disabled then return none
            rest b) := by
        intro i c rest hslot hget hrest
        refine .bind (Gives.block i) fun b hb => ?_
        obtain rfl : b = c := Option.some.inj (hb.symm.trans hget)
        refine .bind (Gives.visit i b) fun _ _ => ?_
        cases hdis : b.disabled
        · exact hrest hdis
        · exact .pure (SlotTree.disabled hslot hget hdis)
      cases hbuilt with
      | empty h =>
        rw [h]
        exact .pure (SlotTree.empty h)
      | disabled h hget hdis =>
        rw [h]
        exact hreach h hget fun hen => absurd (hen.symm.trans hdis) (by decide)
      | definition h hget hk hdef =>
        rw [h]
        refine hreach h hget fun _ => .bind (dispatch_gives_fits f _) fun p hp => ?_
        obtain ⟨kind, out⟩ := p
        obtain ⟨hkind, hfits⟩ := hp
        obtain rfl : kind = _ := Option.some.inj (hkind.symm.trans hk)
        -- a definition is hoisted and leaves nothing in its slot
        obtain rfl : out = .hoisted := hfits.classify.2.2.1.2 hdef
        exact .pure (SlotTree.definition h hget hk hdef)
      | value h hget hen hk hkind hslots =>
        rw [h]
        refine hreach h hget fun _ => .bind (ih.2 _ _ hk hkind hslots) fun p hp => ?_
        obtain ⟨kind, out⟩ := p
        obtain ⟨rfl, code, inner, fc, rfl, hprints, hdenotes⟩ := hp
        obtain ⟨g, hg, hgs, hgnum⟩ := hprints.bracket o
        have hne : code.isEmpty = false := by simpa using hprints.ne_empty
        simp only [hne, Bool.false_eq_true, if_false]
        exact .pure ⟨g, hg, hgnum, SlotTree.value h hget hen hk (hgs ▸ hdenotes)⟩
    · unfold dispatch
      refine .bind (Gives.kindOf b) fun kind hkind' => ?_
      obtain rfl : kind = k := Option.some.inj (hkind'.symm.trans hk)
      refine .bind (Gives.emit _) fun _ _ => .bind ?_ fun out hout => .pure ⟨rfl, hout⟩
      exact .withReader (fun _ => ⟨rfl, rfl⟩)
        (kind.rule_printed hkind fun slot o => ih.1 b slot o (hslots slot))

end Generation

/-! ### Reading an operand -/

/-- **An operand is read exactly when none of its texts holds a carriage return**, and then its
tokens derive, at the level that stands as one operand where its order is asked for, the tree
it prints up to the grouping of chains of `&&` and `||`. -/
theorem Operand.reads {o : Order} {code : String} {f : Form} (h : Operand o code f) :
    ((Lx.lex code.toList).isSome ↔ f.sem.NoCarriageReturn) ∧
      ∀ ts, Lx.lex code.toList = some ts →
        ∃ e, Derives o.operandLevel ts e ∧ e.normalize = f.sem.normalize := by
  rw [h.text_eq]
  refine ⟨h.wf.lex_isSome_iff, fun ts hts => ?_⟩
  have hclean : f.sem.NoCarriageReturn := h.wf.lex_isSome_iff.1 (by simp [hts])
  rw [(h.wf.strict hclean).lex, Option.some.injEq] at hts
  subst hts
  obtain ⟨e, he, hn⟩ := h.wf.derivable_continues.1
  exact ⟨e, .lift he h.level_le, hn⟩

/-- **Generated value code is one operand of the tree its blocks stand for.**  Let a value slot
hold an enabled block of a kind with a tree (the connectives and comparisons, variables, calls of
procedures, texts and colours), all of whose slots hold such trees, and let `valueCode` give the
slot's code for an order `o` in a session whose names are references.  Then it gives code, the
block stands for a tree `t`, and the script reads the code exactly when no text of `t` holds a
carriage return; read, its tokens derive, as one operand where `o` is asked for, an expression
that is `t` up to the grouping of chains of `&&` and of `||`. -/
theorem valueCode_reads_as_one_operand {f : Nat} {parent c : Block} {slot : String} {i : Nat}
    {k : BlockKind} {o : Order} {ctx : Context} {s : Session} {r : Option String}
    (hslot : parent.value? slot = some i) (hget : ctx.workspace.get? i = some c)
    (hen : c.disabled = false) (hk : BlockKind.ofName? c.kind = some k) (htree : k.hasTree = true)
    (hslots : ∀ slot', Built ctx.workspace c slot') (hs : s.NamesAreReferences)
    (hok : ((Generation.valueCode f parent slot o).exec ctx s).1 = .ok r) :
    ∃ code t, r = some code ∧ Denotes ctx.workspace ctx.oneBased k c t ∧
      ((Lx.lex code.toList).isSome ↔ t.NoCarriageReturn) ∧
      ∀ ts, Lx.lex code.toList = some ts →
        ∃ e, Derives o.operandLevel ts e ∧ e.normalize = t.normalize := by
  have hcode := ((Generation.valueCode_operand f).1 parent slot o
    (.value hslot hget hen hk htree hslots)) ctx s rfl rfl hs |>.2 r hok
  -- the slot holds a tree, so the code is there
  cases r with
  | none =>
    cases hcode with
    | empty h => simp [hslot] at h
    | disabled h hget' hdis =>
      rw [hslot, Option.some.injEq] at h
      subst h
      rw [hget, Option.some.injEq] at hget'
      subst hget'
      simp [hen] at hdis
    | definition h hget' hk' hdef =>
      rw [hslot, Option.some.injEq] at h
      subst h
      rw [hget, Option.some.injEq] at hget'
      subst hget'
      rw [hk, Option.some.injEq] at hk'
      subst hk'
      exact absurd htree (by cases k <;> simp_all [BlockKind.hasTree, BlockKind.isDefinition])
  | some code =>
    obtain ⟨g, hg, -, hgt⟩ := hcode
    cases hgt with
    | value h hget' _ hk' hd =>
      rw [hslot, Option.some.injEq] at h
      subst h
      rw [hget, Option.some.injEq] at hget'
      subst hget'
      rw [hk, Option.some.injEq] at hk'
      subst hk'
      exact ⟨code, g.sem, rfl, hd, hg.reads⟩

/-- A negated comparison printed inside a call reads as one argument: in the workspace
{"blocks": [{"type": "text_print", "inputs": {"TEXT": {"type": "logic_negate", "inputs": {"BOOL":
{"type": "logic_compare", "inputs": {"A": {"type": "variables_get", "fields": {"VAR": "x"}},
"B": {"type": "text", "fields": {"TEXT": "1"}}}}}}}}]}
the print's text slot gives `!(x == '1')`, the comparison bracketed under the negation. -/
theorem negated_comparison_reads_as_one_argument :
    let w : Workspace := ⟨#[{ id := "b0", kind := "text_print", values := ⟨[("TEXT", 1)]⟩ },
      { id := "b1", kind := "logic_negate", values := ⟨[("BOOL", 2)]⟩ },
      { id := "b2", kind := "logic_compare", values := ⟨[("A", 3), ("B", 4)]⟩ },
      { id := "b3", kind := "variables_get", fields := ⟨[("VAR", "x")]⟩ },
      { id := "b4", kind := "text", fields := ⟨[("TEXT", "1")]⟩ }], [0], [], false⟩
    let ctx := Generation.context w {}
    let s := Generation.start w {}
    ((Generation.valueCode 8 w.blocks[0]! "TEXT" .unbound).exec ctx s).1 = .ok (some "!(x == '1')") ∧
    ∃ code t, some "!(x == '1')" = some code ∧
      Denotes ctx.workspace ctx.oneBased .logicNegate w.blocks[1]! t ∧
      ((Lx.lex code.toList).isSome ↔ t.NoCarriageReturn) ∧
      ∀ ts, Lx.lex code.toList = some ts →
        ∃ e, Derives Order.unbound.operandLevel ts e ∧ e.normalize = t.normalize := by
  intro w ctx s
  have hok : ((Generation.valueCode 8 w.blocks[0]! "TEXT" .unbound).exec ctx s).1 =
      .ok (some "!(x == '1')") := by decide +kernel
  -- the slots of the negation and of the comparison hold trees; all others are empty
  have hleaf : ∀ (i : Nat) (k : BlockKind), w.get? i = some w.blocks[i]! →
      w.blocks[i]!.disabled = false → BlockKind.ofName? w.blocks[i]!.kind = some k →
      k.hasTree = true → w.blocks[i]!.values = .empty → ∀ slot, Built w w.blocks[i]! slot :=
    fun i k hget hen hk hkind hvals slot =>
      .empty (by simp [Block.value?, hvals, Slots.get?, Slots.empty])
  have hcompare : ∀ slot, Built w w.blocks[2]! slot := by
    intro slot
    by_cases hA : slot = "A"
    · subst hA
      exact .value (i := 3) rfl rfl rfl rfl rfl (hleaf 3 .variablesGet rfl rfl rfl rfl rfl)
    by_cases hB : slot = "B"
    · subst hB
      exact .value (i := 4) rfl rfl rfl rfl rfl (hleaf 4 .text rfl rfl rfl rfl rfl)
    exact .empty (by simp [Block.value?, Slots.get?, w, Ne.symm hA, Ne.symm hB])
  have hnegate : ∀ slot, Built w w.blocks[1]! slot := by
    intro slot
    by_cases hb : slot = "BOOL"
    · subst hb
      exact .value (i := 2) rfl rfl rfl rfl rfl hcompare
    exact .empty (by simp [Block.value?, Slots.get?, w, Ne.symm hb])
  exact ⟨hok, valueCode_reads_as_one_operand (i := 1) rfl rfl rfl rfl rfl hnegate
    (Generation.start_namesAreReferences w {}) hok⟩

/-- **A text holding a carriage return is no operand**: in the workspace
{"blocks": [{"type": "text_print", "inputs": {"TEXT": {"type": "text", "fields": {"TEXT": "a\rb"}}}}]}
the print's text slot gives the literal `'a`, carriage return, `b'`, which the script does not
read, since a string literal holds no raw line terminator; the whole program is
`window.alert('a`, carriage return, `b');`. -/
theorem carriage_return_text_is_no_operand :
    let w : Workspace := ⟨#[{ id := "b0", kind := "text_print", values := ⟨[("TEXT", 1)]⟩ },
      { id := "b1", kind := "text", fields := ⟨[("TEXT", "a\rb")]⟩ }], [0], [], false⟩
    Workspace.ofJson ("\x7b\"blocks\": [\x7b\"type\": \"text_print\", \"inputs\": \x7b\"TEXT\": " ++
        "\x7b\"type\": \"text\", \"fields\": \x7b\"TEXT\": \"a\\rb\"\x7d\x7d\x7d\x7d]\x7d") = .ok w ∧
      (generate w {}).result = .ok "window.alert('a\rb');\n" ∧
      ((Generation.valueCode 2 w.blocks[0]! "TEXT" .unbound).exec (Generation.context w {})
        (Generation.start w {})).1 = .ok (some "'a\rb'") ∧
      "'a\rb'".toList = ['\'', 'a', '\r', 'b', '\''] ∧ Lx.lex ['\'', 'a', '\r', 'b', '\''] = none := by
  intro w
  exact ⟨Except.eq_ok_of_toOption (by decide +kernel), by decide +kernel, by decide +kernel,
    by simp, by decide⟩

end BlockScribe
