import BlockScribe.Proofs.Generate.IndentRules
import BlockScribe.Proofs.Workspace.ReadBack
import Mathlib.Data.List.Basic
/-!
# The unit of indentation

The option `indent` changes only the indentation of the generated program: generating with a
unit `u` of spaces and tabs gives the program generated with two spaces, re-indented to `u`
(`indent_changes_only_indentation`).  This holds when the texts that the program copies start
no line with a space (`Block.TextFlush`, `Config.SnippetsFlush`) and each instrumentation snippet
that is set ends its last line: a snippet such as `s;` is glued to the line after it, whose
indentation is then no longer at the start of a line (`unclosed_suffix_breaks_indentation`).

The generation is followed by fuel, one lemma for each of its mutually recursive functions:
values are the same in both runs, statements are re-indented (`Generation.statementCode_reindents`),
and a hoisted procedure is registered re-indented.  The roots are joined by line breaks
(`Reindented.intercalate_newline`), and the layout of the program and `Layout.tidy` both commute
with re-indenting (`reindent_layout`, `tidy_reindent`).
-/

namespace BlockScribe

namespace Reindents

variable {u : String} {ctx : Context} {α β γ : Type}

/-- Steps related pointwise, mapped over a list. -/
theorem mapM_forall₂ {R : α → β → Prop} {f₁ : γ → GenM α} {f₂ : γ → GenM β}
    (hf : ∀ x, Reindents u ctx R (f₁ x) (f₂ x)) :
    ∀ xs : List γ, Reindents u ctx (List.Forall₂ R) (xs.mapM f₁) (xs.mapM f₂)
  | [] => pure .nil
  | x :: xs => by
    rw [List.mapM_cons, List.mapM_cons]
    exact (hf x).bind fun _ _ hab => (mapM_forall₂ hf xs).bind fun _ _ habs => pure (.cons hab habs)

end Reindents

namespace Reindented

variable {u : String}

/-- A body re-indented, indented one level in each run. -/
theorem prefixLines (hu : '\n' ∉ u.toList) {a b : String} (h : Reindented u a b) :
    Reindented u (Text.prefixLines a "  ") (Text.prefixLines b u) :=
  ⟨by rw [reindent_prefixLines hu h.2, ← h.1], Text.closed_prefixLines h.2 _⟩

theorem isEmpty_eq {a b : String} (h : Reindented u a b) : b.isEmpty = a.isEmpty := by
  rw [Bool.eq_iff_iff, String.isEmpty_iff, String.isEmpty_iff, h.1]
  exact reindent_eq_empty h.2

/-- The nonempty codes of the roots, in both runs. -/
theorem forall₂_filter {as bs : List String} (h : List.Forall₂ (Reindented u) as bs) :
    List.Forall₂ (Reindented u) (as.filter (!·.isEmpty)) (bs.filter (!·.isEmpty)) := by
  induction h with
  | nil => exact .nil
  | cons hab _ ih =>
    rw [List.filter_cons, List.filter_cons, hab.isEmpty_eq]
    split
    · exact .cons hab ih
    · exact ih

/-- Codes re-indented, one per line. -/
theorem intercalate_newline {as bs : List String} (h : List.Forall₂ (Reindented u) as bs) :
    Reindented u ("\n".intercalate as) ("\n".intercalate bs) := by
  induction h with
  | nil => exact empty
  | cons hab hrest ih =>
    cases hrest with
    | nil => simpa only [String.intercalate_singleton] using hab
    | cons =>
      rw [String.intercalate_cons_cons, String.intercalate_cons_cons]
      exact (hab.append (of_unindented (by decide))).append ih

end Reindented

/-! ### Layout -/

section Layout

variable {u : String}

/-- The definitions separated by blank lines and followed by two more, re-indented, are the
definitions re-indented. -/
theorem reindent_definitions :
    ∀ ds : List String, reindent ("\n\n".intercalate ds ++ "\n\n\n") u =
      "\n\n".intercalate (ds.map (reindent · u)) ++ "\n\n\n"
  | [] => reindent_of_flush (by decide)
  | [d] => by
    simp only [List.map_cons, List.map_nil, String.intercalate_singleton]
    exact reindent_append_flush d (by decide)
  | d :: d' :: ds => by
    have hd : Text.Closed (d ++ "\n\n") := Text.Closed.append_of_ne (by decide) (by decide) d
    have ih := reindent_definitions (d' :: ds)
    simp only [List.map_cons] at ih ⊢
    rw [String.intercalate_cons_cons, String.intercalate_cons_cons,
      @String.append_assoc (d ++ "\n\n") _ "\n\n\n", reindent_append_of_closed hd,
      reindent_append_flush d (by decide), ih, @String.append_assoc (reindent d u ++ "\n\n") _ "\n\n\n"]

theorem closed_definitions (ds : List String) : Text.Closed ("\n\n".intercalate ds ++ "\n\n\n") :=
  Text.Closed.append_of_ne (by decide) (by decide) _

/-- **Laying out the program commutes with re-indenting it.** -/
theorem reindent_layout (ds : List String) (body : String) :
    reindent ("\n\n".intercalate ds ++ "\n\n\n" ++ body) u =
      "\n\n".intercalate (ds.map (reindent · u)) ++ "\n\n\n" ++ reindent body u := by
  rw [reindent_append_of_closed (closed_definitions ds), reindent_definitions]

end Layout

/-! ### The session a generation starts from -/

namespace Registry

variable {u : String}

theorem reindented_empty : Registry.empty.reindented u = Registry.empty := by
  simp [reindented, empty]

/-- Declaring inline names registers one line that no unit re-indents. -/
theorem declareVariables_reindented (r : Registry) {names : List String}
    (h : ∀ n ∈ names, Text.Inline n) :
    (r.declareVariables names).reindented u = (r.reindented u).declareVariables names := by
  unfold declareVariables
  split
  · rfl
  · rw [insert_reindented, reindent_of_flush (((show Text.Inline "var " by decide).append
      (Text.fits_intercalate (by decide) h)).append (show Text.Fits ";" by decide)).1]

theorem HelpersInline.declareVariables {r : Registry} (hr : r.HelpersInline) (names : List String) :
    (r.declareVariables names).HelpersInline := by
  intro desired d hd
  unfold Registry.declareVariables at hd
  split at hd
  · exact hr _ _ hd
  · rw [find?_insert_of_ne (by simp)] at hd
    exact hr _ _ hd

theorem helpersInline_empty : Registry.empty.HelpersInline := by
  intro desired d hd
  simp [find?, empty] at hd

end Registry

namespace Generation

variable {u : String}

/-- The session a generation starts from is the same under every unit: the variables are named
before anything is indented, and their declaration is one unindented line. -/
theorem start_reindented (w : Workspace) (c : Config) : SessionsReindented u (start w c) (start w c) := by
  -- the fold over the used variables keeps the names it gives and the table inline
  have hfold := List.foldlRecOn (motive := fun p : List String × NameTable =>
      (∀ a ∈ p.1, Text.Inline a) ∧ p.2.KeysInline) w.usedVariables
    (fun (p : List String × NameTable) v =>
      (p.1 ++ [(p.2.nameFor v .variable NameTable.global).1], (p.2.nameFor v .variable NameTable.global).2))
    (b := ([], NameTable.create c.reservedWords)) ⟨by simp, NameTable.keysInline_create _⟩
    fun p hp v _ => by
      have hname := hp.2.nameFor v .variable NameTable.global
      exact ⟨List.forall_mem_append.2 ⟨hp.1, List.forall_mem_singleton.2 hname.1⟩, hname.2⟩
  refine ⟨rfl, rfl, ?_, hfold.2, ?_⟩
  · show Registry.empty.declareVariables _ = (Registry.empty.declareVariables _).reindented u
    rw [Registry.declareVariables_reindented _ hfold.1, Registry.reindented_empty]
  · exact Registry.helpersInline_empty.declareVariables _

mutual

/-- The code of a value slot is the same in both runs, and inline. -/
theorem valueCode_reindents (hu : '\n' ∉ u.toList) : ∀ (f : Nat) (parent : Block) (slot : String) (outer : Order)
    (ctx : Context), ctx.Reindentable →
    Reindents u ctx (Same fun o => ∀ v ∈ o, Text.Inline v) (valueCode f parent slot outer)
      (valueCode f parent slot outer)
  | 0, _, _, _, _, _ => Reindents.throw _
  | f + 1, parent, slot, outer, ctx, hctx => by
    unfold valueCode
    cases parent.value? slot with
    | none => exact Reindents.pure ⟨rfl, by simp⟩
    | some i =>
      refine (Reindents.block hctx i).bind_same fun b hb => (Reindents.visit i b).bind_eq fun _ => ?_
      refine Reindents.ite _ (fun _ => Reindents.pure ⟨rfl, by simp⟩) fun _ => ?_
      refine (dispatch_reindents hu f b ctx hctx hb).bind fun p p' hp => ?_
      obtain ⟨kind, out⟩ := p
      obtain ⟨kind', out'⟩ := p'
      obtain ⟨-, hout⟩ := hp
      cases out with
      | value code inner =>
        cases out' with
        | value code' inner' =>
          obtain ⟨rfl, rfl, hcode⟩ := hout
          refine Reindents.pure ⟨rfl, ?_⟩
          split
          · simp
          · simpa using inline_bracket hcode _ outer
        | statement => exact (hout : False).elim
        | hoisted => exact (hout : False).elim
      | statement code =>
        cases out' with
        | statement => exact Reindents.throw _
        | value => exact (hout : False).elim
        | hoisted => exact (hout : False).elim
      | hoisted =>
        cases out' with
        | hoisted => exact Reindents.pure ⟨rfl, by simp⟩
        | value => exact (hout : False).elim
        | statement => exact (hout : False).elim

/-- The code of a statement slot, indented one level, is re-indented. -/
theorem bodyCode_reindents (hu : '\n' ∉ u.toList) : ∀ (f : Nat) (parent : Block) (slot : String) (ctx : Context),
    ctx.Reindentable → Reindents u ctx (Reindented u) (bodyCode f parent slot) (bodyCode f parent slot)
  | 0, _, _, _, _ => Reindents.throw _
  | f + 1, parent, slot, ctx, hctx => by
    unfold bodyCode
    cases parent.statement? slot with
    | none => exact Reindents.pure Reindented.empty
    | some j =>
      refine (chainCode_reindents hu f j ctx hctx).bind fun c c' hc => Reindents.read_bind ?_
      refine Reindents.pure ?_
      rw [hctx.indent]
      exact hc.prefixLines hu

/-- The code of a chain of statements is re-indented. -/
theorem chainCode_reindents (hu : '\n' ∉ u.toList) : ∀ (f : Nat) (i : Nat) (ctx : Context), ctx.Reindentable →
    Reindents u ctx (Reindented u) (chainCode f i) (chainCode f i)
  | 0, _, _, _ => Reindents.throw _
  | f + 1, i, ctx, hctx => by
    unfold chainCode
    refine (Reindents.block hctx i).bind_same fun b hb => (Reindents.visit i b).bind_eq fun _ => ?_
    refine (Reindents.ite _ (fun _ => Reindents.pure Reindented.empty)
      fun _ => statementCode_reindents hu f b ctx hctx hb).bind fun here here' hhere => ?_
    cases b.next with
    | none => exact Reindents.pure hhere
    | some j =>
      exact (chainCode_reindents hu f j ctx hctx).bind fun _ _ hrest => Reindents.pure (hhere.append hrest)

/-- The code of a statement block, with its comment lines and instrumentation, is re-indented. -/
theorem statementCode_reindents (hu : '\n' ∉ u.toList) : ∀ (f : Nat) (b : Block) (ctx : Context), ctx.Reindentable →
    b.TextFlush → Reindents u ctx (Reindented u) (statementCode f b) (statementCode f b)
  | 0, _, _, _, _ => Reindents.throw _
  | f + 1, b, ctx, hctx, hb => by
    unfold statementCode
    refine (dispatch_reindents hu f b ctx hctx hb).bind fun p p' hp => ?_
    obtain ⟨kind, out⟩ := p
    obtain ⟨kind', out'⟩ := p'
    obtain ⟨rfl, hout⟩ := hp
    cases out with
    | statement code =>
      cases out' with
      | statement code' =>
        refine Reindents.read_bind (Reindents.pure ?_)
        exact (Reindented.of_unindented (Workspace.commentLines_flush ctx.workspace ctx.reach b)).append
          (Config.reindented_wrapStatement hctx.snippets hb _ hout)
      | value => exact (hout : False).elim
      | hoisted => exact (hout : False).elim
    | hoisted =>
      cases out' with
      | hoisted => exact Reindents.pure Reindented.empty
      | value => exact (hout : False).elim
      | statement => exact (hout : False).elim
    | value code inner =>
      cases out' with
      | value => exact Reindents.throw _
      | statement => exact (hout : False).elim
      | hoisted => exact (hout : False).elim

/-- A block given to its rule, with the children of this fuel, runs alike. -/
theorem dispatch_reindents (hu : '\n' ∉ u.toList) : ∀ (f : Nat) (b : Block) (ctx : Context), ctx.Reindentable →
    b.TextFlush → Reindents u ctx (fun p p' => p'.1 = p.1 ∧ OutputsReindented u p.2 p'.2)
      (dispatch f b) (dispatch f b)
  | 0, _, _, _, _ => Reindents.throw _
  | f + 1, b, ctx, hctx, hb => by
    unfold dispatch
    refine (Reindents.kindOf b).bind_eq fun kind => (Reindents.emit _).bind_eq fun _ => ?_
    have hchildren : ChildrenReindent u ⟨valueCode f b, bodyCode f b⟩ :=
      ⟨fun ctx' hctx' slot order => valueCode_reindents hu f b slot order ctx' hctx',
        fun ctx' hctx' slot => bodyCode_reindents hu f b slot ctx' hctx'⟩
    -- the rule runs with `b` among the ancestors
    refine (Reindents.withReader (fun _ => rfl)
      (kind.rule_reindents ⟨hu, hctx.withAncestor hb, hchildren, hb⟩)).bind fun o o' ho =>
        Reindents.pure ⟨rfl, ho⟩

end

/-- The code of a root is re-indented: a chain of statements, or a value written as a
statement. -/
theorem rootCode_reindents (hu : '\n' ∉ u.toList) (f i : Nat) (ctx : Context) (hctx : ctx.Reindentable) :
    Reindents u ctx (Reindented u) (rootCode f i) (rootCode f i) := by
  unfold rootCode
  refine (Reindents.block hctx i).bind_same fun b hb => ?_
  refine (Reindents.ite _ (fun _ => Reindents.pure rfl)
    fun _ => (Reindents.kindOf b).map fun _ _ h => h ▸ rfl).bind_eq fun isValue => ?_
  refine Reindents.ite _ (fun _ => chainCode_reindents hu f i ctx hctx) fun _ => ?_
  refine (Reindents.visit i b).bind_eq fun _ => (dispatch_reindents hu f b ctx hctx hb).bind
    fun p p' hp => ?_
  obtain ⟨kind, out⟩ := p
  obtain ⟨kind', out'⟩ := p'
  obtain ⟨rfl, hout⟩ := hp
  cases out with
  | value code inner =>
    cases out' with
    | value code' inner' =>
      obtain ⟨rfl, rfl, hcode⟩ := hout
      refine Reindents.read_bind (Reindents.pure ?_)
      have hline := ((show Text.Unindented _ from Workspace.commentLines_flush ctx.workspace ctx.reach b).append_inline
        hcode).append_closes (show Text.Closes ";\n" by decide)
      -- both runs write the same line, so both leave it out or both wrap it
      by_cases hempty : (ctx.workspace.commentLines ctx.reach b ++ code').isEmpty = true
      · have hempty' : ((ctx.withIndent u).workspace.commentLines (ctx.withIndent u).reach b ++
            code').isEmpty = true := hempty
        rw [if_pos hempty, if_pos hempty']
        exact Reindented.empty
      · have hempty' : ¬((ctx.withIndent u).workspace.commentLines (ctx.withIndent u).reach b ++
            code').isEmpty = true := hempty
        rw [if_neg hempty, if_neg hempty']
        exact Config.reindented_wrapStatement hctx.snippets hb _ (.of_unindented hline)
    | statement => exact (hout : False).elim
    | hoisted => exact (hout : False).elim
  | statement =>
    cases out' with
    | statement => exact Reindents.pure Reindented.empty
    | value => exact (hout : False).elim
    | hoisted => exact (hout : False).elim
  | hoisted =>
    cases out' with
    | hoisted => exact Reindents.pure Reindented.empty
    | value => exact (hout : False).elim
    | statement => exact (hout : False).elim

/-- The code of all roots is re-indented. -/
theorem body_reindents (hu : '\n' ∉ u.toList) (f : Nat) (roots : List Nat) (ctx : Context) (hctx : ctx.Reindentable) :
    Reindents u ctx (Reindented u) (body f roots) (body f roots) := by
  unfold body
  exact (Reindents.mapM_forall₂ (fun i => rootCode_reindents hu f i ctx hctx) roots).bind
    fun _ _ h => Reindents.pure (Reindented.intercalate_newline (Reindented.forall₂_filter h))

/-- The program after the roots: the definitions of both runs are those of the first
re-indented. -/
theorem program_reindents (hu : ∀ x ∈ u.toList, x = ' ' ∨ x = '\t') (f : Nat) (w : Workspace)
    (ctx : Context) (hctx : ctx.Reindentable) :
    Reindents u ctx (fun a b => b = reindent a u) (program f w) (program f w) := by
  have hnl : '\n' ∉ u.toList := fun h => by simpa using hu _ h
  unfold program
  refine (body_reindents hnl f w.roots ctx hctx).bind fun code code' hcode => ?_
  intro s t hst
  simp only [GenM.exec_bind, GenM.exec_get, GenM.exec_emit, GenM.exec_pure]
  refine ⟨?_, hst.names, hst.seen, hst.registry, hst.keys_inline, hst.helpers_inline⟩
  rw [hst.registry, Registry.codes_reindented, hcode.1, Layout.assemble, Layout.assemble,
    ← reindent_layout, tidy_reindent hu]

end Generation

/-- **The indent option changes only indentation.**  With a unit `u` of spaces and tabs, where
no field value and no block id starts a line with a space, and every instrumentation snippet that
is set starts no line with a space and ends its last line, the program generated with `u` is the
one generated with two spaces, every leading two-space unit of each line replaced by `u`; or
both generations fail with the same error. -/
theorem indent_changes_only_indentation (w : Workspace) (c : Config) {u : String}
    (hu : ∀ x ∈ u.toList, x = ' ' ∨ x = '\t') (hsnippets : c.SnippetsFlush)
    (hblocks : ∀ i b, w.get? i = some b → b.TextFlush) :
    (generate w { c with indent := u }).result =
      (generate w { c with indent := "  " }).result.map (reindent · u) := by
  have hctx : (Generation.context w { c with indent := "  " }).Reindentable :=
    ⟨rfl, ⟨hsnippets.1, hsnippets.2, hsnippets.3⟩, hblocks, by simp [Generation.context]⟩
  have hrun : OutcomesReindented u (fun a b => b = reindent a u) (Generation.run w { c with indent := "  " })
      (Generation.run w { c with indent := u }) :=
    Generation.program_reindents hu _ w _ hctx _ _ (Generation.start_reindented w _)
  unfold generate
  revert hrun
  rcases Generation.run w { c with indent := "  " } with ⟨_ | a, s⟩ <;>
    rcases Generation.run w { c with indent := u } with ⟨_ | b, t⟩
  · rintro rfl
    rfl
  · exact False.elim
  · exact False.elim
  · rintro ⟨rfl, -⟩
    rfl

/-- A loop around a print, whose suffix ends its line: generated with a tab, it is the program
generated with two spaces, re-indented. -/
theorem closed_suffix_reindents :
    let w : Workspace := ⟨#[{ id := "w", kind := "controls_whileUntil", statements := ⟨[("DO", 1)]⟩ },
      { id := "p", kind := "text_print" }], [0], [], false⟩
    let c : Config := { statementSuffix := some "s;\n" }
    (∀ x ∈ "\t".toList, x = ' ' ∨ x = '\t') ∧ c.SnippetsFlush ∧
      (∀ i b, w.get? i = some b → b.TextFlush) ∧
      (generate w { c with indent := "\t" }).result =
        (generate w { c with indent := "  " }).result.map (reindent · "\t") := by
  intro w c
  have hu : ∀ x ∈ "\t".toList, x = ' ' ∨ x = '\t' := by
    intro x hx
    simp only [String.reduceToList, List.mem_cons, List.not_mem_nil, or_false] at hx
    exact Or.inr hx
  have hc : c.SnippetsFlush := by
    constructor <;> intro s hs <;> simp only [c, Option.mem_def, reduceCtorEq, Option.some.injEq] at hs
    subst hs
    decide
  have hw : ∀ i b, w.get? i = some b → b.TextFlush := by
    intro i b hb
    simp only [w, Workspace.get?] at hb
    rcases i with _ | _ | i <;> simp at hb <;> subst hb <;>
      exact ⟨by decide, fun v hv => by simp [Slots.contents, Slots.empty] at hv⟩
  exact ⟨hu, hc, hw, indent_changes_only_indentation w c hu hc hw⟩

/-- A suffix that does not end its line is glued to the line after it.  In the workspace
`{"blocks": [{"type": "controls_whileUntil", "id": "w", "statements": {"DO": {"type":
"text_print", "id": "p"}}}]}` with the suffix `s;`, the print in the loop body follows `s;` on
its line; generated with a tab, the print keeps the tab of its indentation there, which
re-indenting the program generated with two spaces does not reach. -/
theorem unclosed_suffix_breaks_indentation :
    let w : Workspace := ⟨#[{ id := "w", kind := "controls_whileUntil", statements := ⟨[("DO", 1)]⟩ },
      { id := "p", kind := "text_print" }], [0], [], false⟩
    Workspace.ofJson "\x7b\"blocks\": [\x7b\"type\": \"controls_whileUntil\", \"id\": \"w\", \"statements\": \x7b\"DO\": \x7b\"type\": \"text_print\", \"id\": \"p\"\x7d\x7d\x7d]\x7d" = .ok w ∧
      (generate w { statementSuffix := some "s;", indent := "\t" }).result =
        .ok "while (false) \x7b\n\ts;\twindow.alert('');\n\ts;\x7d\ns;" ∧
      (generate w { statementSuffix := some "s;" }).result.map (reindent · "\t") =
        .ok "while (false) \x7b\n\ts;  window.alert('');\n\ts;\x7d\ns;" := by
  intro w
  exact ⟨Except.eq_ok_of_toOption (by decide +kernel), by decide +kernel⟩

end BlockScribe
