import BlockScribe.Proofs.Generate.Confined
import BlockScribe.Proofs.Generate.Rules
import BlockScribe.Proofs.Workspace.ReadBack
/-!
# A forest is generated without link errors

When every link of a workspace points into its arena and the links form a forest, a generation
under any options stops neither at a block reached twice nor at a link to no block
(`Generation.run_not_ofLink`).  Each function of the traversal follows a link to a block under
which nothing is reached yet, and reaches only blocks under it (`Generation.confined_chainCode`
and its companions, with any fuel): the head of a chain and its successors, the block of a value
slot, the inputs of a block given to its rule, and the roots one after the other.  Freshness is
kept from one link to the next because the blocks under two children of a block, or under two
roots, lie apart (`Workspace.Forest.apart`).

Every workspace read from JSON text is such a forest (`Workspace.ofJson_forest`), so none of them
is generated with a link error (`forest_generates_without_link_errors`).
-/

namespace BlockScribe

open GenM Workspace

namespace Generation

variable {w : Workspace}

mutual

theorem confined_valueCode (hc : w.Closed) (hf : w.Forest) : ∀ (f : Nat) (b : Block) (slot : String)
    (outer : Order) (p : Nat) (ctx : Context) (s : Session), ctx.workspace = w → w.get? p = some b →
    (∀ c, b.target (.value slot) = some c → w.Fresh c s.seen) →
    Confined (w.Below (b.target (.value slot))) s ((valueCode f b slot outer).exec ctx s)
  | 0, _, _, _, _, _, _, _, _, _ => Confined.throw nofun
  | f + 1, b, slot, outer, p, ctx, s, hw, hb, hfresh => by
    unfold valueCode
    split
    · exact Confined.pure _
    · rename_i i hi
      -- the slot links to a block of the arena under which nothing is reached
      have hlink : w.Link p i := link_of_get hb (Block.value?_mem_children hi)
      obtain ⟨b', hb'⟩ := hc.exists_get hlink.entry
      have hfi : w.Fresh i s.seen := hfresh i hi
      refine Confined.block_bind (hw ▸ hb') (Confined.visit_bind hfi.not_mem ⟨i, hi, .refl⟩ ?_)
      split
      · exact Confined.pure _
      · have hdispatch := confined_dispatch hc hf f b' i ctx { s with seen := i :: s.seen } hw hb'
          fun c hcin => hfi.child hf (link_of_get hb' (Block.mem_children_of_mem_inputs hcin))
        refine Confined.bind (hdispatch.mono ?_) fun ⟨_, out⟩ _ => ?_
        · rintro k ⟨c, hcin, hck⟩
          exact ⟨i, hi, .head (link_of_get hb' (Block.mem_children_of_mem_inputs hcin)) hck⟩
        · cases out with
          | value => exact Confined.pure _
          | statement => exact Confined.throw nofun
          | hoisted => exact Confined.pure _

theorem confined_bodyCode (hc : w.Closed) (hf : w.Forest) : ∀ (f : Nat) (b : Block) (slot : String)
    (p : Nat) (ctx : Context) (s : Session), ctx.workspace = w → w.get? p = some b →
    (∀ c, b.target (.body slot) = some c → w.Fresh c s.seen) →
    Confined (w.Below (b.target (.body slot))) s ((bodyCode f b slot).exec ctx s)
  | 0, _, _, _, _, _, _, _, _ => Confined.throw nofun
  | f + 1, b, slot, p, ctx, s, hw, hb, hfresh => by
    unfold bodyCode
    split
    · exact Confined.pure _
    · rename_i j hj
      have hlink : w.Link p j := link_of_get hb (Block.statement?_mem_children hj)
      have hchain := confined_chainCode hc hf f j ctx s hw hlink.entry (hfresh j hj)
      exact Confined.bind (hchain.mono fun k hk => ⟨j, hj, hk⟩) fun _ _ =>
        Confined.bind Confined.read fun _ _ => Confined.pure _

theorem confined_chainCode (hc : w.Closed) (hf : w.Forest) : ∀ (f i : Nat) (ctx : Context)
    (s : Session), ctx.workspace = w → w.Entry i → w.Fresh i s.seen →
    Confined (w.Reaches i) s ((chainCode f i).exec ctx s)
  | 0, _, _, _, _, _, _ => Confined.throw nofun
  | f + 1, i, ctx, s, hw, hi, hfresh => by
    unfold chainCode
    obtain ⟨b, hb⟩ := hc.exists_get hi
    refine Confined.block_bind (hw ▸ hb) (Confined.visit_bind hfresh.not_mem .refl ?_)
    -- the statement reaches only blocks under the inputs of `b`
    refine Confined.bind_reached (fun k => ∃ c ∈ b.inputs, w.Reaches c k) ?_
      (fun k ⟨c, hcin, hck⟩ => .head (link_of_get hb (Block.mem_children_of_mem_inputs hcin)) hck)
      fun _ t new hseen hnew => ?_
    · split
      · exact Confined.pure _
      · exact confined_statementCode hc hf f b i ctx { s with seen := i :: s.seen } hw hb
          fun c hcin =>
          hfresh.child hf (link_of_get hb (Block.mem_children_of_mem_inputs hcin))
    · split
      · rename_i j hj
        have hlink : w.Link i j := link_of_get hb (Block.next_mem_children hj)
        -- the successor lies apart from the inputs, so nothing under it is reached yet
        have hfj : w.Fresh j t.seen := by
          rw [hseen]
          refine (hfresh.child hf hlink).append fun k hk hjk => ?_
          obtain ⟨c, hcin, hck⟩ := hnew k hk
          have hne : c ≠ j := fun he =>
            Block.next_not_mem_inputs (hf.children_nodup hb) hj (he ▸ hcin)
          have hcj := Block.mem_children_of_mem_inputs hcin
          have hjc := Block.next_mem_children hj
          exact hf.apart (hf.not_reaches_sibling hb hcj hjc hne)
            (hf.not_reaches_sibling hb hjc hcj hne.symm) hck hjk
        have hchain := confined_chainCode hc hf f j ctx t hw hlink.entry hfj
        exact Confined.bind (hchain.mono fun k hk => .head hlink hk) fun _ _ => Confined.pure _
      · exact Confined.pure _

theorem confined_statementCode (hc : w.Closed) (hf : w.Forest) : ∀ (f : Nat) (b : Block) (p : Nat)
    (ctx : Context) (s : Session), ctx.workspace = w → w.get? p = some b →
    (∀ c ∈ b.inputs, w.Fresh c s.seen) →
    Confined (fun k => ∃ c ∈ b.inputs, w.Reaches c k) s ((statementCode f b).exec ctx s)
  | 0, _, _, _, _, _, _, _ => Confined.throw nofun
  | f + 1, b, p, ctx, s, hw, hb, hfresh => by
    unfold statementCode
    refine Confined.bind (confined_dispatch hc hf f b p ctx s hw hb hfresh) fun ⟨_, out⟩ _ => ?_
    cases out with
    | value => exact Confined.throw nofun
    | statement => exact Confined.bind Confined.read fun _ _ => Confined.pure _
    | hoisted => exact Confined.pure _

theorem confined_dispatch (hc : w.Closed) (hf : w.Forest) : ∀ (f : Nat) (b : Block) (p : Nat)
    (ctx : Context) (s : Session), ctx.workspace = w → w.get? p = some b →
    (∀ c ∈ b.inputs, w.Fresh c s.seen) →
    Confined (fun k => ∃ c ∈ b.inputs, w.Reaches c k) s ((dispatch f b).exec ctx s)
  | 0, _, _, _, _, _, _, _ => Confined.throw nofun
  | f + 1, b, p, ctx, s, hw, hb, hfresh => by
    unfold dispatch
    -- the kind is looked up and the dispatch recorded, reaching nothing
    refine Confined.bind_same (Confined.kindOf b) fun kind t ht => ?_
    refine Confined.bind_same (Confined.emit _) fun _ t' ht' => ?_
    refine Confined.bind ?_ fun _ _ => Confined.pure _
    -- the rule runs with `b` among the ancestors, its inputs still fresh
    rw [exec_withReader]
    obtain ⟨_, hlock⟩ := kind.rule_lockstep ⟨valueCode f b, bodyCode f b⟩
      ⟨valueCode f b, bodyCode f b⟩ b
    refine Lockstep.confined hf hb
      (fun slot order ctx' s' hw' => confined_valueCode hc hf f b slot order p ctx' s' hw' hb)
      (fun slot ctx' s' hw' => confined_bodyCode hc hf f b slot p ctx' s' hw' hb) hlock hw
      fun c hcin => ?_
    rw [ht', ht]
    exact hfresh c hcin

end

theorem confined_rootCode (hc : w.Closed) (hf : w.Forest) (f i : Nat) (ctx : Context) (s : Session)
    (hw : ctx.workspace = w) (hi : i ∈ w.roots) (hfresh : w.Fresh i s.seen) :
    Confined (w.Reaches i) s ((rootCode f i).exec ctx s) := by
  unfold rootCode
  obtain ⟨b, hb⟩ := hc.exists_get (.inl hi)
  refine Confined.block_bind (hw ▸ hb) ?_
  -- telling a value root from a chain reaches nothing
  refine Confined.bind_same ?_ fun _ t hts => ?_
  · split
    · exact Confined.pure _
    · exact Confined.map _ (Confined.kindOf b)
  · rw [← hts] at hfresh
    split
    · exact confined_chainCode hc hf f i ctx t hw (.inl hi) hfresh
    · refine Confined.visit_bind hfresh.not_mem .refl ?_
      have hdispatch := confined_dispatch hc hf f b i ctx { t with seen := i :: t.seen } hw hb
          fun c hcin =>
        hfresh.child hf (link_of_get hb (Block.mem_children_of_mem_inputs hcin))
      refine Confined.bind (hdispatch.mono fun k ⟨c, hcin, hck⟩ =>
        .head (link_of_get hb (Block.mem_children_of_mem_inputs hcin)) hck) fun ⟨_, out⟩ _ => ?_
      cases out with
      | value => exact Confined.bind Confined.read fun _ _ => Confined.pure _
      | statement => exact Confined.pure _
      | hoisted => exact Confined.pure _

/-- The roots, one after the other: each is fresh when its turn comes, since the roots lie
apart. -/
theorem confined_roots (hc : w.Closed) (hf : w.Forest) (f : Nat) (ctx : Context)
    (hw : ctx.workspace = w) :
    ∀ (rs : List Nat) (s : Session), rs.Nodup → (∀ r ∈ rs, r ∈ w.roots ∧ w.Fresh r s.seen) →
      Confined (fun k => ∃ r ∈ rs, w.Reaches r k) s ((rs.mapM (rootCode f)).exec ctx s)
  | [], _, _, _ => Confined.pure _
  | r :: rs, s, hnd, hrs => by
    rw [List.mapM_cons]
    obtain ⟨hr, hfr⟩ := hrs r List.mem_cons_self
    refine Confined.bind_reached (w.Reaches r) (confined_rootCode hc hf f r ctx s hw hr hfr)
      (fun k hk => ⟨r, List.mem_cons_self, hk⟩) fun _ t new hseen hnew => ?_
    have hrest : ∀ r' ∈ rs, r' ∈ w.roots ∧ w.Fresh r' t.seen := fun r' hr' => by
      obtain ⟨hr'root, hfr'⟩ := hrs r' (List.mem_cons_of_mem _ hr')
      have hne : r ≠ r' := fun he => (List.nodup_cons.1 hnd).1 (he ▸ hr')
      refine ⟨hr'root, ?_⟩
      rw [hseen]
      exact hfr'.append fun k hk hr'k => hf.apart (hf.not_reaches_root hr'root hne)
        (hf.not_reaches_root hr hne.symm) (hnew k hk) hr'k
    have hroots := confined_roots hc hf f ctx hw rs t (List.nodup_cons.1 hnd).2 hrest
    exact Confined.bind (hroots.mono fun k ⟨r', hr', hk⟩ => ⟨r', List.mem_cons_of_mem _ hr', hk⟩)
      fun _ _ => Confined.pure _

theorem confined_program (hc : w.Closed) (hf : w.Forest) (f : Nat) (ctx : Context) (s : Session)
    (hw : ctx.workspace = w) (hfresh : ∀ r ∈ w.roots, w.Fresh r s.seen) :
    Confined (fun k => ∃ r ∈ w.roots, w.Reaches r k) s ((program f w).exec ctx s) := by
  unfold program body
  have hroots := confined_roots hc hf f ctx hw w.roots s hf.roots_nodup fun r hr =>
    ⟨hr, hfresh r hr⟩
  refine Confined.bind (Confined.bind hroots fun _ _ => Confined.pure _) fun _ _ => ?_
  exact Confined.bind Confined.get fun _ _ => Confined.bind (Confined.emit _) fun _ _ =>
    Confined.pure _

/-- **A forest is generated without link errors.**  A generation of a workspace whose links point
into its arena and form a forest stops at no block reached twice and at no missing block. -/
theorem run_not_ofLink (hc : w.Closed) (hf : w.Forest) (c : Config) {e : GenerateError}
    (h : (run w c).1 = .error e) : ¬ e.OfLink := by
  have hconf : Confined (fun k => ∃ r ∈ w.roots, w.Reaches r k) (start w c) (run w c) :=
    confined_program hc hf (fuel w) (context w c) (start w c) rfl fun _ _ _ _ hk =>
      absurd hk List.not_mem_nil
  rcases hrun : run w c with ⟨_ | _, t⟩
  · rw [hrun] at hconf h
    cases h
    exact hconf
  · rw [hrun] at h
    cases h

/-- A generation of a forest that points into its arena names no block reached twice and no
missing block. -/
theorem generate_ne_link_error (hc : w.Closed) (hf : w.Forest) (c : Config) (x : String)
    (i : Nat) :
    (generate w c).result ≠ .error (.malformedLinkage x) ∧
      (generate w c).result ≠ .error (.missingNode i) :=
  ⟨fun h => run_not_ofLink hc hf c h trivial, fun h => run_not_ofLink hc hf c h trivial⟩

end Generation

/-- **Forests, and all loaded workspaces, are generated without link errors.**  Under any
options, a generation of a built workspace whose links form a forest, and of every workspace
read from JSON text, stops neither at a block reached twice nor at a link to no block. -/
theorem forest_generates_without_link_errors :
    (∀ (d : Draft) (w : Workspace), d.build = .ok w → w.Forest →
      ∀ (c : Config) (x : String) (i : Nat),
        (generate w c).result ≠ .error (.malformedLinkage x) ∧
          (generate w c).result ≠ .error (.missingNode i)) ∧
      ∀ (text : String) (w : Workspace), Workspace.ofJson text = .ok w →
        ∀ (c : Config) (x : String) (i : Nat),
          (generate w c).result ≠ .error (.malformedLinkage x) ∧
            (generate w c).result ≠ .error (.missingNode i) := by
  refine ⟨fun d w hb hf => Generation.generate_ne_link_error (Draft.build_closed hb) hf,
    fun text w hw => ?_⟩
  -- a loaded workspace is built from a tidy draft, so it is a forest within its arena
  obtain ⟨hc, hf⟩ := Workspace.ofJson_forest hw
  exact Generation.generate_ne_link_error hc hf

/-- One `print` block, built as a draft with its id left to the builder and read from JSON text:
both workspaces are generated without a link error. -/
theorem print_generates_without_link_errors :
    let d : Draft := { blocks := #[⟨none, { id := "", kind := "text_print" }⟩], roots := [0] }
    let w : Workspace := ⟨#[{ id := "b0", kind := "text_print" }], [0], [], false⟩
    (d.build = .ok w ∧ w.Forest ∧
      (generate w {}).result ≠ .error (.malformedLinkage "b0") ∧
        (generate w {}).result ≠ .error (.missingNode 1)) ∧
    (Workspace.ofJson "\x7b\"blocks\": [\x7b\"type\": \"text_print\"\x7d]\x7d" = .ok w ∧
      (generate w {}).result ≠ .error (.malformedLinkage "b0") ∧
        (generate w {}).result ≠ .error (.missingNode 1)) := by
  intro d w
  have hb : d.build = .ok w := Except.eq_ok_of_toOption (by decide +kernel)
  -- the only block has no inputs and no successor, so nothing links
  have hlink : ∀ p j, ¬ w.Link p j := by
    rintro p j ⟨b, hb', hj⟩
    have hmem : b ∈ w.blocks := Array.mem_of_getElem? hb'
    simp only [w, Array.mem_singleton] at hmem
    subst hmem
    simp [Block.children, Slots.contents, Slots.empty] at hj
  have hf : w.Forest := by
    refine ⟨by decide, fun p hp => ?_⟩
    rcases hp with hl | ⟨-, hl⟩
    · exact hlink _ _ hl
    · exact hlink _ _ hl
  have hw : Workspace.ofJson "\x7b\"blocks\": [\x7b\"type\": \"text_print\"\x7d]\x7d" = .ok w :=
    Except.eq_ok_of_toOption (by decide +kernel)
  exact ⟨⟨hb, hf, forest_generates_without_link_errors.1 d w hb hf {} "b0" 1⟩,
    ⟨hw, forest_generates_without_link_errors.2 _ w hw {} "b0" 1⟩⟩

end BlockScribe
