import BlockScribe.Proofs.Generate.IndexRules
import BlockScribe.Proofs.Generate.IndexConvention
import BlockScribe.Proofs.Text.LinePrefix
/-!
# Generating a workspace in both conventions

A workspace generated counting text positions from zero and counting them from one gives the
same error, or two programs laid out from recounted code (`index_convention_is_transparent`):
the same text but for the positions that rules write (`Recounted`).  Where a slot gives a
position, the two programs write index arithmetic over the slot's code shifted by one less
counting from one; read as integers over readings of the slot codes in which the one-based
code stands for one more, the two expressions stand for the same position
(`IndexReading.shifted_recounted`).  A position found by `textIndexOf` has one added.

The generation is followed by fuel, one lemma for each of its mutually recursive functions, as
for the unit of indentation: a slot's value is recounted at any two orders and is a value of
both runs at one order (`SlotCodes`), statements are recounted and empty together, and the
registries of both runs are recounted entry by entry.
-/

namespace BlockScribe

/-- Options related by one relation are related by a looser one. -/
theorem optionRel_imp {α β : Type} {R S : α → β → Prop} (h : ∀ a b, R a b → S a b)
    {o₀ : Option α} {o₁ : Option β} (ho : Option.Rel R o₀ o₁) : Option.Rel S o₀ o₁ := by
  cases ho with
  | some hab => exact .some (h _ _ hab)
  | none => exact .none

/-- The code of a value slot in both runs, asked for at two orders: recounted, and values of both
runs when the two orders are the same. -/
def SlotCodes (outer₀ outer₁ : Order) (a₀ a₁ : String) : Prop :=
  Recounted a₀ a₁ ∧ (outer₁ = outer₀ → ValueCodes a₀ a₁)

theorem Text.isEmpty_prefixLines (a pre : String) :
    (Text.prefixLines a pre).isEmpty = a.isEmpty := by
  rw [Bool.eq_iff_iff, String.isEmpty_iff, String.isEmpty_iff, Text.prefixLines,
    ← String.toList_inj, ← String.toList_inj, String.toList_ofList, String.toList_empty,
    Text.prefixList_eq_nil_iff]

namespace StatementsRecounted

variable {a₀ a₁ : String}

/-- A body indented one level in each run. -/
theorem prefixLines (h : StatementsRecounted a₀ a₁) (pre : String) :
    StatementsRecounted (Text.prefixLines a₀ pre) (Text.prefixLines a₁ pre) :=
  ⟨.lines h.recounted pre, by rw [Text.isEmpty_prefixLines, Text.isEmpty_prefixLines, h.isEmpty]⟩

/-- A statement between its prefix and suffix. -/
theorem wrapStatement (h : StatementsRecounted a₀ a₁) (c : Config) (kind : BlockKind) (b : Block) :
    StatementsRecounted (c.wrapStatement kind b a₀) (c.wrapStatement kind b a₁) := by
  refine ⟨h.recounted.wrapStatement c kind b, ?_⟩
  unfold Config.wrapStatement
  split
  · exact h.isEmpty
  · simp only [Text.isEmpty_append, h.isEmpty]

end StatementsRecounted

namespace Generation

mutual

/-- The code of a value slot, asked for at two orders, is recounted, and a value of both runs at
one order. -/
theorem valueCode_recounts : ∀ (f : Nat) (parent : Block) (slot : String) (outer₀ outer₁ : Order)
    (ctx : Context), ctx.oneBased = false →
    Recounts ctx (Option.Rel (SlotCodes outer₀ outer₁)) (valueCode f parent slot outer₀)
      (valueCode f parent slot outer₁)
  | 0, _, _, _, _, _, _ => Recounts.throw _
  | f + 1, parent, slot, outer₀, outer₁, ctx, hctx => by
    unfold valueCode
    cases parent.value? slot with
    | none => exact Recounts.pure .none
    | some i =>
      refine (Recounts.block i).bind_eq fun b => (Recounts.visit i b).bind_eq fun _ => ?_
      refine Recounts.ite _ (fun _ => Recounts.pure .none) fun _ => ?_
      refine (dispatch_recounts f b ctx hctx).bind fun p₀ p₁ hp => ?_
      obtain ⟨kind₀, out₀⟩ := p₀
      obtain ⟨kind₁, out₁⟩ := p₁
      obtain ⟨-, hout⟩ := hp
      cases out₀ with
      | value code₀ inner₀ =>
        cases out₁ with
        | value code₁ inner₁ =>
          obtain ⟨hcode, hinner⟩ := hout
          dsimp only
          rw [hcode.isEmpty_eq]
          refine Recounts.pure ?_
          -- the bracket for two orders is recounted; for one order it keeps a value of both runs
          have hslot : SlotCodes outer₀ outer₁ (bracket code₀ inner₀ outer₀)
              (bracket code₁ inner₁ outer₁) := by
            refine ⟨.bracket hcode.alike.recounted _ _ _ _, fun houter => ?_⟩
            rw [houter]
            exact hcode.bracket hinner outer₀
          cases code₀.isEmpty
          · exact .some hslot
          · exact .none
        | statement => exact (hout : False).elim
        | hoisted => exact (hout : False).elim
      | statement code₀ =>
        cases out₁ with
        | statement => exact Recounts.throw _
        | value => exact (hout : False).elim
        | hoisted => exact (hout : False).elim
      | hoisted =>
        cases out₁ with
        | hoisted => exact Recounts.pure .none
        | value => exact (hout : False).elim
        | statement => exact (hout : False).elim

/-- The code of a statement slot, indented one level, is recounted. -/
theorem bodyCode_recounts : ∀ (f : Nat) (parent : Block) (slot : String) (ctx : Context),
    ctx.oneBased = false →
    Recounts ctx StatementsRecounted (bodyCode f parent slot) (bodyCode f parent slot)
  | 0, _, _, _, _ => Recounts.throw _
  | f + 1, parent, slot, ctx, hctx => by
    unfold bodyCode
    cases parent.statement? slot with
    | none => exact Recounts.pure (.same _)
    | some j =>
      refine (chainCode_recounts f j ctx hctx).bind fun c₀ c₁ hc => Recounts.read_bind ?_
      exact Recounts.pure (hc.prefixLines _)

/-- The code of a chain of statements is recounted. -/
theorem chainCode_recounts : ∀ (f i : Nat) (ctx : Context), ctx.oneBased = false →
    Recounts ctx StatementsRecounted (chainCode f i) (chainCode f i)
  | 0, _, _, _ => Recounts.throw _
  | f + 1, i, ctx, hctx => by
    unfold chainCode
    refine (Recounts.block i).bind_eq fun b => (Recounts.visit i b).bind_eq fun _ => ?_
    refine (Recounts.ite _ (fun _ => Recounts.pure (.same ""))
      fun _ => statementCode_recounts f b ctx hctx).bind fun _ _ hhere => ?_
    cases b.next with
    | none => exact Recounts.pure hhere
    | some j =>
      exact (chainCode_recounts f j ctx hctx).bind fun _ _ hrest => Recounts.pure (hhere.append hrest)

/-- The code of a statement block, with its comment lines and instrumentation, is recounted. -/
theorem statementCode_recounts : ∀ (f : Nat) (b : Block) (ctx : Context), ctx.oneBased = false →
    Recounts ctx StatementsRecounted (statementCode f b) (statementCode f b)
  | 0, _, _, _ => Recounts.throw _
  | f + 1, b, ctx, hctx => by
    unfold statementCode
    refine (dispatch_recounts f b ctx hctx).bind fun p₀ p₁ hp => ?_
    obtain ⟨kind₀, out₀⟩ := p₀
    obtain ⟨kind₁, out₁⟩ := p₁
    obtain ⟨hkind, hout⟩ := hp
    dsimp only at hkind
    subst hkind
    cases out₀ with
    | statement code₀ =>
      cases out₁ with
      | statement code₁ =>
        exact Recounts.read_bind (Recounts.pure ((StatementsRecounted.same _).append
          (hout.wrapStatement ctx.config _ b)))
      | value => exact (hout : False).elim
      | hoisted => exact (hout : False).elim
    | hoisted =>
      cases out₁ with
      | hoisted => exact Recounts.pure (.same _)
      | value => exact (hout : False).elim
      | statement => exact (hout : False).elim
    | value code₀ inner₀ =>
      cases out₁ with
      | value => exact Recounts.throw _
      | statement => exact (hout : False).elim
      | hoisted => exact (hout : False).elim

/-- A block given to its rule, with the children of this fuel, runs alike in both
conventions. -/
theorem dispatch_recounts : ∀ (f : Nat) (b : Block) (ctx : Context), ctx.oneBased = false →
    Recounts ctx (fun p₀ p₁ => p₁.1 = p₀.1 ∧ OutputsRecounted p₀.2 p₁.2) (dispatch f b)
      (dispatch f b)
  | 0, _, _, _ => Recounts.throw _
  | f + 1, b, ctx, hctx => by
    unfold dispatch
    refine (Recounts.kindOf b).bind_eq fun kind => (Recounts.emit _).bind_eq fun _ => ?_
    have hchildren : ChildrenRecount ⟨valueCode f b, bodyCode f b⟩ :=
      ⟨fun ctx' h' slot order => (valueCode_recounts f b slot order order ctx' h').imp
          fun _ _ ho => optionRel_imp (fun _ _ hslot => hslot.2 rfl) ho,
        fun ctx' h' slot order₀ order₁ => (valueCode_recounts f b slot order₀ order₁ ctx' h').imp
          fun _ _ ho => optionRel_imp (fun _ _ hslot => hslot.1) ho,
        fun ctx' h' slot => bodyCode_recounts f b slot ctx' h'⟩
    -- the rule runs with `b` among the ancestors, a context that still counts from zero
    refine (Recounts.withReader (f := fun c => { c with ancestors := b :: c.ancestors })
      (fun _ => rfl) (kind.rule_recounts ⟨hctx, hchildren⟩)).bind fun o₀ o₁ ho =>
        Recounts.pure ⟨rfl, ho⟩

end

/-- The code of a root is recounted: a chain of statements, or a value written as a
statement. -/
theorem rootCode_recounts (f i : Nat) (ctx : Context) (hctx : ctx.oneBased = false) :
    Recounts ctx StatementsRecounted (rootCode f i) (rootCode f i) := by
  unfold rootCode
  refine (Recounts.block i).bind_eq fun b => ?_
  refine (Recounts.ite _ (fun _ => Recounts.pure rfl)
    fun _ => (Recounts.kindOf b).map fun _ _ h => h ▸ rfl).bind_eq fun isValue => ?_
  refine Recounts.ite _ (fun _ => chainCode_recounts f i ctx hctx) fun _ => ?_
  refine (Recounts.visit i b).bind_eq fun _ => (dispatch_recounts f b ctx hctx).bind
    fun p₀ p₁ hp => ?_
  obtain ⟨kind₀, out₀⟩ := p₀
  obtain ⟨kind₁, out₁⟩ := p₁
  obtain ⟨hkind, hout⟩ := hp
  dsimp only at hkind
  subst hkind
  cases out₀ with
  | value code₀ inner₀ =>
    cases out₁ with
    | value code₁ inner₁ =>
      refine Recounts.read_bind (Recounts.pure ?_)
      have hline : StatementsRecounted (ctx.workspace.commentLines ctx.reach b ++ code₀)
          (ctx.countingFromOne.workspace.commentLines ctx.countingFromOne.reach b ++ code₁) :=
        (StatementsRecounted.same _).append ⟨hout.1.alike.recounted, hout.1.isEmpty_eq⟩
      -- both runs leave the line out, or both end it and wrap it
      by_cases hempty : (ctx.workspace.commentLines ctx.reach b ++ code₀).isEmpty = true
      · rw [if_pos hempty, if_pos (hline.isEmpty.trans hempty)]
        exact .same _
      · rw [if_neg hempty, if_neg (hline.isEmpty ▸ hempty)]
        exact (StatementsRecounted.closed hline.recounted (by decide)).wrapStatement _ _ _
    | statement => exact (hout : False).elim
    | hoisted => exact (hout : False).elim
  | statement =>
    cases out₁ with
    | statement => exact Recounts.pure (.same _)
    | value => exact (hout : False).elim
    | hoisted => exact (hout : False).elim
  | hoisted =>
    cases out₁ with
    | hoisted => exact Recounts.pure (.same _)
    | value => exact (hout : False).elim
    | statement => exact (hout : False).elim

/-- The code of all roots is recounted: the same roots are left out as empty in both runs. -/
theorem body_recounts (f : Nat) (roots : List Nat) (ctx : Context) (hctx : ctx.oneBased = false) :
    Recounts ctx Recounted (body f roots) (body f roots) := by
  unfold body
  refine (Recounts.mapM_forall₂ (fun i => rootCode_recounts f i ctx hctx) roots).bind
    fun _ _ hcodes => Recounts.pure (Recounted.intercalate _
      ((List.rel_filter ?_ hcodes).imp fun _ _ hab => hab.recounted))
  intro a₀ a₁ hab
  simp only [hab.isEmpty]

/-- The program: the definitions of both runs and the code of their roots, recounted, laid out
alike. -/
theorem program_recounts (f : Nat) (w : Workspace) (ctx : Context) (hctx : ctx.oneBased = false) :
    Recounts ctx (fun a b => ∃ d₀ d₁, Recounted d₀ d₁ ∧ a = Layout.tidy d₀ ∧ b = Layout.tidy d₁)
      (program f w) (program f w) := by
  unfold program
  refine (body_recounts f w.roots ctx hctx).bind fun code₀ code₁ hcode => ?_
  intro s t hst
  simp only [GenM.exec_bind, GenM.exec_get, GenM.exec_emit, GenM.exec_pure]
  exact ⟨⟨_, _, Recounted.intercalate _ hst.registry.codes |>.append_same _ |>.append hcode, rfl, rfl⟩,
    hst.names, hst.seen, hst.registry, namesAreReferences.congr (s := s) rfl rfl hst.refs⟩

/-- Counting from one is the context counting from zero, recounted. -/
theorem context_countingFromOne (w : Workspace) (c : Config) :
    context w { c with oneBasedIndex := some true } =
      (context w { c with oneBasedIndex := some false }).countingFromOne :=
  rfl

/-- Both generations start from the same names and registry; only the event that records the
convention differs. -/
theorem start_recounted (w : Workspace) (c : Config) :
    SessionsRecounted (start w { c with oneBasedIndex := some false })
      (start w { c with oneBasedIndex := some true }) :=
  ⟨rfl, rfl, Registry.Recounted.refl _, start_namesAreReferences w _⟩

end Generation

/-- **Counting positions from one is transparent.**  Generating a workspace counting text
positions from zero and counting them from one gives the same error, or two programs laid out
from recounted code: the same text but where a position is written.  There the zero-based run
writes a slot's code shifted by `delta` (zero or one, an empty slot standing for `0`) and the
one-based run the slot's code shifted by one less (an empty slot standing for `1`); read as
index arithmetic, the two stand for the same integer whenever the one-based code stands for one
more, both being safe integers.  A position that `textIndexOf` finds is written with `+ 1` added
counting from one. -/
theorem index_convention_is_transparent (w : Workspace) (c : Config) :
    ((∃ e, (generate w { c with oneBasedIndex := some false }).result = .error e ∧
        (generate w { c with oneBasedIndex := some true }).result = .error e) ∨
      ∃ d₀ d₁, Recounted d₀ d₁ ∧
        (generate w { c with oneBasedIndex := some false }).result = .ok (Layout.tidy d₀) ∧
        (generate w { c with oneBasedIndex := some true }).result = .ok (Layout.tidy d₁)) ∧
    ∀ (p₀ p₁ : String) (delta : Int) (negate : Bool) (order : Order), (delta = 0 ∨ delta = 1) →
      (IndexExpr.shifted p₀ delta negate order).write = shiftIndex p₀ delta negate order ∧
      (IndexExpr.shifted p₁ (delta - 1) negate order).write =
        shiftIndex p₁ (delta - 1) negate order ∧
      ∀ r₀ r₁ : IndexReading, r₀.Safe p₀ → r₁.Safe p₁ → r₁.position p₁ = r₀.position p₀ + 1 →
        (IndexExpr.shifted p₀ delta negate order).value r₀ =
          (IndexExpr.shifted p₁ (delta - 1) negate order).value r₁ := by
  refine ⟨?_, fun p₀ p₁ delta negate order hdelta => ⟨IndexExpr.write_shifted _ _ _ _,
    IndexExpr.write_shifted _ _ _ _, fun r₀ r₁ hsafe₀ hsafe₁ hone =>
      IndexReading.shifted_recounted hsafe₀ hsafe₁ hone hdelta negate order⟩⟩
  have hrun := Generation.program_recounts (Generation.fuel w) w
    (Generation.context w { c with oneBasedIndex := some false }) rfl _ _ (Generation.start_recounted w c)
  rw [← Generation.context_countingFromOne] at hrun
  unfold generate Generation.run
  revert hrun
  rcases (Generation.program (Generation.fuel w) w).exec
      (Generation.context w { c with oneBasedIndex := some false })
      (Generation.start w { c with oneBasedIndex := some false }) with ⟨_ | a, s⟩ <;>
    rcases (Generation.program (Generation.fuel w) w).exec
      (Generation.context w { c with oneBasedIndex := some true })
      (Generation.start w { c with oneBasedIndex := some true }) with ⟨_ | b, t⟩
  · rintro rfl
    exact .inl ⟨_, rfl, rfl⟩
  · exact False.elim
  · exact False.elim
  · rintro ⟨⟨d₀, d₁, hd, rfl, rfl⟩, -⟩
    exact .inr ⟨d₀, d₁, hd, rfl, rfl⟩

/-- The letter of `'abc'` at the position where `'b'` is found: counting from one, the position
found has one added and the letter's position one taken off, and the two programs are laid out
from recounted code. -/
theorem letter_at_found_position :
    let w : Workspace := ⟨#[{ id := "p", kind := "text_print", values := ⟨[("TEXT", 1)]⟩ },
      { id := "c", kind := "text_charAt", fields := ⟨[("WHERE", "FROM_START")]⟩,
        values := ⟨[("VALUE", 2), ("AT", 3)]⟩ },
      { id := "t", kind := "text", fields := ⟨[("TEXT", "abc")]⟩ },
      { id := "i", kind := "text_indexOf", fields := ⟨[("END", "FIRST")]⟩,
        values := ⟨[("VALUE", 4), ("FIND", 5)]⟩ },
      { id := "u", kind := "text", fields := ⟨[("TEXT", "abc")]⟩ },
      { id := "n", kind := "text", fields := ⟨[("TEXT", "b")]⟩ }], [0], [], false⟩
    (generate w { oneBasedIndex := some false }).result =
        .ok "window.alert('abc'.charAt('abc'.indexOf('b')));\n" ∧
      (generate w { oneBasedIndex := some true }).result =
        .ok "window.alert('abc'.charAt((('abc'.indexOf('b') + 1) - 1)));\n" ∧
      ∃ d₀ d₁, Recounted d₀ d₁ ∧
        Layout.tidy d₀ = "window.alert('abc'.charAt('abc'.indexOf('b')));\n" ∧
        Layout.tidy d₁ = "window.alert('abc'.charAt((('abc'.indexOf('b') + 1) - 1)));\n" := by
  intro w
  have h₀ : (generate w { oneBasedIndex := some false }).result =
      .ok "window.alert('abc'.charAt('abc'.indexOf('b')));\n" := by decide +kernel
  have h₁ : (generate w { oneBasedIndex := some true }).result =
      .ok "window.alert('abc'.charAt((('abc'.indexOf('b') + 1) - 1)));\n" := by decide +kernel
  refine ⟨h₀, h₁, ?_⟩
  rcases (index_convention_is_transparent w {}).1 with ⟨e, he, -⟩ | ⟨d₀, d₁, hd, hr₀, hr₁⟩
  · cases he.symm.trans h₀
  · exact ⟨d₀, d₁, hd, Except.ok.inj (hr₀.symm.trans h₀), Except.ok.inj (hr₁.symm.trans h₁)⟩

end BlockScribe
