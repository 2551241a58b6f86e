import BlockScribe.Proofs.Generate.Reached
import BlockScribe.Proofs.Workspace.Links
/-!
# A block reached twice

A generation stops with `malformedLinkage` naming a block exactly where it follows a link to a
block it has already reached: a root, a value slot, the head of a statement chain or a
successor.  Reaching a block checks those reached so far; when the block is among them it stops
with the block's id and leaves the session as it is (`GenM.exec_visit`).  So a step that follows
a link to a block already reached stops right there, naming it (`Generation.chainCode_revisit`,
`Generation.valueCode_revisit`, `Generation.rootCode_revisit`).

No rule raises that error, and the end of the fuel has an error of its own.  So every such error
is raised by reaching a block that a root or a block reached links to (`Workspace.Followed`),
while it is among those reached; and since the error ends the generation there, those are the
blocks reached when the generation stopped (`Workspace.Explains`, `Generation.run_explained`).
The traversal functions take as hypotheses where the links they follow come from: the parent
of a slot is a block reached, and so is the block whose successor a chain goes on with.  Such
blocks `L` are reached whenever the functions start (`GenM.Explained`), and stay reached, since
every step only adds to the blocks reached (`GenM.Grows`).
-/

namespace BlockScribe

/-- A link that a generation of `w`, having reached the blocks `seen`, can have followed to `n`:
`n` is a root, or a block reached links to it. -/
def Workspace.Followed (w : Workspace) (seen : List Nat) (n : Nat) : Prop :=
  n ∈ w.roots ∨ ∃ p ∈ seen, w.Link p n

theorem Workspace.Followed.mono {w : Workspace} {L seen : List Nat} {n : Nat}
    (h : w.Followed L n) (hL : L ⊆ seen) : w.Followed seen n := by
  rcases h with h | ⟨p, hp, hl⟩
  · exact .inl h
  · exact .inr ⟨p, hL hp, hl⟩

/-- An error of a generation of `w` that stopped in session `t` is explained by the blocks
reached: if it names a block reached twice, it is the id of a block among those reached, to
which the generation followed a link. -/
def Workspace.Explains (w : Workspace) (e : GenerateError) (t : Session) : Prop :=
  ∀ x, e = .malformedLinkage x →
    ∃ n b, w.get? n = some b ∧ b.id = x ∧ n ∈ t.seen ∧ w.Followed t.seen n

namespace GenM

/-- A step that, started with the blocks `L` among those reached, has every error explained by
the blocks reached. -/
def Explained {α : Type} (ctx : Context) (L : List Nat) (m : GenM α) : Prop :=
  ∀ s, ctx.workspace.Marked s.seen → L ⊆ s.seen →
    ∀ e t, m.exec ctx s = (.error e, t) → ctx.workspace.Explains e t

namespace Explained

variable {α β : Type} {ctx : Context} {L : List Nat}

/-- A step that never stops with a block reached twice. -/
theorem of_ne {m : GenM α} (h : ∀ s e t x, m.exec ctx s = (.error e, t) → e ≠ .malformedLinkage x) :
    Explained ctx L m :=
  fun s _ _ e t he x hx => absurd hx (h s e t x he)

theorem pure (a : α) : Explained ctx L (Pure.pure a) := of_ne fun _ _ _ _ h => by cases h

theorem throw {e : GenerateError} (he : ∀ x, e ≠ .malformedLinkage x) :
    Explained ctx L (MonadExcept.throw e : GenM α) :=
  of_ne fun _ _ _ x h => by
    cases h
    exact he x

theorem read : Explained ctx L (read : GenM Context) := of_ne fun _ _ _ _ h => by cases h

theorem get : Explained ctx L (get : GenM Session) := of_ne fun _ _ _ _ h => by cases h

theorem emit (e : Event) : Explained ctx L (emit e) := of_ne fun _ _ _ _ h => by cases h

theorem kindOf (b : Block) : Explained ctx L (kindOf b) := of_ne fun s e t x h => by
  rw [exec_kindOf] at h
  split at h <;> cases h
  exact nofun

theorem prim {m : GenM α} (hm : Prim m) : Explained ctx L m := of_ne fun s e t x h => by
  obtain ⟨_, _, _, _, rfl⟩ := hm.exec_error (congrArg Prod.fst h)
  exact nofun

/-- A step, then steps that start where it leaves off: the blocks `L` are still reached. -/
theorem bind {m : GenM β} {k : β → GenM α} (hm : Explained ctx L m) (hg : Grows ctx m)
    (hk : ∀ b, Explained ctx L (k b)) : Explained ctx L (m >>= k) := fun s hs hL e t h => by
  rw [exec_bind] at h
  rcases hrun : m.exec ctx s with ⟨_ | b, u⟩
  · rw [hrun] at h
    cases h
    exact hm s hs hL _ _ hrun
  · rw [hrun] at h
    obtain ⟨hu, hsuf⟩ := hg.step hs hrun
    exact hk b u hu (List.Subset.trans hL hsuf.subset) e t h

/-- A block looked up by position is a block of the workspace; a missing one is no block reached
twice. -/
theorem block_bind {i : Nat} {k : Block → GenM α}
    (hk : ∀ b, ctx.workspace.get? i = some b → Explained ctx L (k b)) :
    Explained ctx L (block i >>= k) := fun s hs hL e t h => by
  rw [exec_bind, exec_block] at h
  rcases hb : ctx.workspace.get? i with _ | b
  · rw [hb] at h
    cases h
    exact fun _ => nofun
  · rw [hb] at h
    exact hk b hb s hs hL e t h

/-- **Reaching a block**, to which a link was followed, then steps that start with it reached
too.  Reaching it a second time stops the generation, naming it, while it is among the blocks
reached. -/
theorem visit_bind {i : Nat} {b : Block} {k : Unit → GenM α} (hb : ctx.workspace.get? i = some b)
    (hi : ctx.workspace.Followed L i) (hk : Explained ctx (i :: L) (k ())) :
    Explained ctx L (visit i b >>= k) := fun s hs hL e t h => by
  rw [exec_bind, exec_visit] at h
  by_cases hin : i ∈ s.seen
  · rw [if_pos hin] at h
    obtain ⟨rfl, rfl⟩ : GenerateError.malformedLinkage b.id = e ∧ s = t := by simpa using h
    rintro x ⟨⟩
    exact ⟨i, b, hb, rfl, hin, hi.mono hL⟩
  · rw [if_neg hin] at h
    exact hk _ (hs.cons (Workspace.lt_size_of_get_eq_some hb) hin)
      (List.cons_subset_cons i hL) e t h

theorem map {m : GenM β} (f : β → α) (hm : Explained ctx L m) (hg : Grows ctx m) :
    Explained ctx L (f <$> m) := by
  rw [← bind_pure_comp]
  exact .bind hm hg fun _ => .pure _

theorem mapM {γ : Type} {f : γ → GenM α} :
    ∀ {xs : List γ}, (∀ x ∈ xs, Explained ctx L (f x)) → (∀ x, Grows ctx (f x)) →
      Explained ctx L (xs.mapM f)
  | [], _, _ => .pure _
  | x :: xs, hf, hg => by
    rw [List.mapM_cons]
    refine .bind (hf x List.mem_cons_self) (hg x) fun _ =>
      .bind (mapM (fun y hy => hf y (List.mem_cons_of_mem x hy)) hg) (.mapM hg _) fun _ => .pure _

theorem withReader {f : Context → Context} {m : GenM α} (hf : (f ctx).workspace = ctx.workspace)
    (hm : Explained (f ctx) L m) : Explained ctx L (withReader f m) := fun s hs hL e t h => by
  rw [exec_withReader] at h
  rw [← hf] at hs ⊢
  exact hm s hs hL e t h

end Explained

end GenM

open GenM

/-- **A rule stops with a block reached twice only where its children do**: the blocks `L`,
reached when it starts, stay reached through every step it takes. -/
theorem Lockstep.explained {ch : Children} {ctx : Context} {L : List Nat}
    (hv : ∀ slot order ctx', ctx'.workspace = ctx.workspace →
      Explained ctx' L (ch.value slot order) ∧ Grows ctx' (ch.value slot order))
    (hb : ∀ slot ctx', ctx'.workspace = ctx.workspace →
      Explained ctx' L (ch.body slot) ∧ Grows ctx' (ch.body slot))
    {α : Type} {A B : List Slot} {m₁ m₂ : GenM α} (h : Lockstep ch ch A m₁ m₂ B) :
    Explained ctx L m₁ := by
  -- the invariant: the workspace is that of `ctx`, the blocks reached are marked and hold `L`,
  -- and every error is explained by them
  let I : Invariant ch ch :=
    { P := fun _ ctx' s => ctx'.workspace = ctx.workspace ∧ ctx.workspace.Marked s.seen ∧ L ⊆ s.seen
      E := ctx.workspace.Explains
      mono := fun _ h => h
      prim := @fun _ m hm _ ctx' s hP => by
        rcases hrun : m.exec ctx' s with ⟨_ | _, t⟩
        · exact hP.1 ▸ Explained.prim hm s (hP.1 ▸ hP.2.1) hP.2.2 _ t hrun
        · have hseen : t.seen = s.seen := by simpa [hrun] using hm.exec_seen ctx' s
          exact ⟨hP.1, hseen ▸ hP.2.1, hseen ▸ hP.2.2⟩
      value := fun slot order _ ctx' s hP => ⟨rfl, by
        obtain ⟨hw, hs, hL⟩ := hP
        obtain ⟨hex, hg⟩ := hv slot order ctx' hw
        rcases hrun : (ch.value slot order).exec ctx' s with ⟨_ | _, t⟩
        · exact hw ▸ hex s (hw ▸ hs) hL _ t hrun
        · obtain ⟨ht, hsuf⟩ := hg.step (hw ▸ hs) hrun
          exact ⟨hw, hw ▸ ht, List.Subset.trans hL hsuf.subset⟩⟩
      body := fun slot _ ctx' s hP => ⟨rfl, by
        obtain ⟨hw, hs, hL⟩ := hP
        obtain ⟨hex, hg⟩ := hb slot ctx' hw
        rcases hrun : (ch.body slot).exec ctx' s with ⟨_ | _, t⟩
        · exact hw ▸ hex s (hw ▸ hs) hL _ t hrun
        · obtain ⟨ht, hsuf⟩ := hg.step (hw ▸ hs) hrun
          exact ⟨hw, hw ▸ ht, List.Subset.trans hL hsuf.subset⟩⟩
      enter := fun hP => hP
      leave := fun hP hP' => hP' }
  intro s hs hL e t hrun
  have hholds := (h.agree I ctx s ⟨rfl, hs, hL⟩).2
  rw [hrun] at hholds
  exact hholds

namespace Generation

mutual

theorem explained_valueCode : ∀ (f : Nat) (parent : Block) (slot : String) (outer : Order)
    (ctx : Context) (L : List Nat) (p : Nat), ctx.workspace.get? p = some parent → p ∈ L →
    Explained ctx L (valueCode f parent slot outer)
  | 0, _, _, _, _, _, _, _, _ => .throw nofun
  | f + 1, parent, slot, outer, ctx, L, p, hp, hpL => by
    unfold valueCode
    split
    · exact .pure _
    · rename_i i hi
      have hlink := Workspace.link_of_get hp (Block.value?_mem_children hi)
      refine .block_bind fun b hb => .visit_bind hb (.inr ⟨p, hpL, hlink⟩) ?_
      split
      · exact .pure _
      · refine .bind (explained_dispatch f b ctx (i :: L) i hb List.mem_cons_self)
          (grows_dispatch f b ctx) fun ⟨_, out⟩ => ?_
        cases out with
        | value => exact .pure _
        | statement => exact .throw nofun
        | hoisted => exact .pure _

theorem explained_bodyCode : ∀ (f : Nat) (parent : Block) (slot : String) (ctx : Context)
    (L : List Nat) (p : Nat), ctx.workspace.get? p = some parent → p ∈ L →
    Explained ctx L (bodyCode f parent slot)
  | 0, _, _, _, _, _, _, _ => .throw nofun
  | f + 1, parent, slot, ctx, L, p, hp, hpL => by
    unfold bodyCode
    split
    · exact .pure _
    · rename_i j hj
      have hlink := Workspace.link_of_get hp (Block.statement?_mem_children hj)
      exact .bind (explained_chainCode f j ctx L (.inr ⟨p, hpL, hlink⟩)) (grows_chainCode f j ctx)
        fun _ => .bind .read .read fun _ => .pure _

theorem explained_chainCode : ∀ (f : Nat) (i : Nat) (ctx : Context) (L : List Nat),
    ctx.workspace.Followed L i → Explained ctx L (chainCode f i)
  | 0, _, _, _, _ => .throw nofun
  | f + 1, i, ctx, L, hi => by
    unfold chainCode
    refine .block_bind fun b hb => .visit_bind hb hi ?_
    -- from here on `i` is reached, and the chain goes on with a successor it links to
    refine .bind (?_ : Explained ctx (i :: L) (if b.disabled then _ else _)) ?_ fun _ => ?_
    · split
      · exact .pure _
      · exact explained_statementCode f b ctx (i :: L) i hb List.mem_cons_self
    · split
      · exact .pure _
      · exact grows_statementCode f b ctx
    · split
      · rename_i j hj
        have hlink := Workspace.link_of_get hb (Block.next_mem_children hj)
        exact .bind (explained_chainCode f j ctx (i :: L) (.inr ⟨i, List.mem_cons_self, hlink⟩))
          (grows_chainCode f j ctx) fun _ => .pure _
      · exact .pure _

theorem explained_statementCode : ∀ (f : Nat) (b : Block) (ctx : Context) (L : List Nat)
    (p : Nat), ctx.workspace.get? p = some b → p ∈ L → Explained ctx L (statementCode f b)
  | 0, _, _, _, _, _, _ => .throw nofun
  | f + 1, b, ctx, L, p, hb, hpL => by
    unfold statementCode
    refine .bind (explained_dispatch f b ctx L p hb hpL) (grows_dispatch f b ctx) fun ⟨_, out⟩ => ?_
    cases out with
    | value => exact .throw nofun
    | statement => exact .bind .read .read fun _ => .pure _
    | hoisted => exact .pure _

theorem explained_dispatch : ∀ (f : Nat) (b : Block) (ctx : Context) (L : List Nat) (p : Nat),
    ctx.workspace.get? p = some b → p ∈ L → Explained ctx L (dispatch f b)
  | 0, _, _, _, _, _, _ => .throw nofun
  | f + 1, b, ctx, L, p, hb, hpL => by
    unfold dispatch
    refine .bind (.kindOf b) (.kindOf b) fun kind => .bind (.emit _) (Workspace.Grown.emit _) fun _ =>
      .bind ?_ ?_ fun _ => .pure _
    · obtain ⟨_, hlock⟩ := kind.rule_lockstep ⟨valueCode f b, bodyCode f b⟩
        ⟨valueCode f b, bodyCode f b⟩ b
      -- the rule runs with `b` among the ancestors, in the same workspace, `b` reached
      refine .withReader rfl (Lockstep.explained (fun slot order ctx' hw => ⟨?_, ?_⟩)
        (fun slot ctx' hw => ⟨?_, ?_⟩) hlock)
      · exact explained_valueCode f b slot order ctx' L p (hw ▸ hb) hpL
      · exact grows_valueCode f b slot order ctx'
      · exact explained_bodyCode f b slot ctx' L p (hw ▸ hb) hpL
      · exact grows_bodyCode f b slot ctx'
    · obtain ⟨_, hlock⟩ := kind.rule_lockstep ⟨valueCode f b, bodyCode f b⟩
        ⟨valueCode f b, bodyCode f b⟩ b
      exact .withReader rfl (Lockstep.moves (fun hm _ => .prim hm)
        (fun slot order ctx => grows_valueCode f b slot order ctx)
        (fun slot ctx => grows_bodyCode f b slot ctx) hlock _)

end

theorem explained_rootCode (f i : Nat) (ctx : Context) (hi : i ∈ ctx.workspace.roots) :
    Explained ctx [] (rootCode f i) := by
  unfold rootCode
  refine .block_bind fun b hb => .bind ?_ ?_ fun _ => ?_
  · split
    · exact .pure _
    · exact .map _ (.kindOf b) (.kindOf b)
  · split
    · exact .pure _
    · exact .map _ (.kindOf b)
  · split
    · exact explained_chainCode f i ctx [] (.inl hi)
    · refine .visit_bind hb (.inl hi) ?_
      refine .bind (explained_dispatch f b ctx [i] i hb List.mem_cons_self) (grows_dispatch f b ctx)
        fun ⟨_, out⟩ => ?_
      cases out with
      | value => exact .bind .read .read fun _ => .pure _
      | statement => exact .pure _
      | hoisted => exact .pure _

theorem explained_program (f : Nat) (ctx : Context) :
    Explained ctx [] (program f ctx.workspace) := by
  unfold program body
  refine .bind (.bind (.mapM (fun i hi => explained_rootCode f i ctx hi)
    fun i => grows_rootCode f i ctx) (.mapM (fun i => grows_rootCode f i ctx) _) fun _ => .pure _)
    (.bind (.mapM (fun i => grows_rootCode f i ctx) _) fun _ => .pure _) fun _ => ?_
  exact .bind .get .get fun _ => .bind (.emit _) (Workspace.Grown.emit _) fun _ => .pure _

/-- **A generation that stops at a block reached twice names a block it has reached**, to which
it followed a link from a root or from a block reached. -/
theorem run_explained (w : Workspace) (c : Config) {e : GenerateError}
    (h : (run w c).1 = .error e) : w.Explains e (run w c).2 :=
  explained_program (fuel w) (context w c) (start w c)
    ⟨List.nodup_nil, fun _ h => absurd h List.not_mem_nil⟩ (List.nil_subset _) _ _ (Prod.ext h rfl)

/-! ### Following a link to a block reached -/

section Revisit

variable {ctx : Context} {s : Session} {i : Nat} {b : Block}

/-- **The head or the successor of a chain, already reached, stops the generation** with its
id, the session as it was. -/
theorem chainCode_revisit (hb : ctx.workspace.get? i = some b) (hs : i ∈ s.seen) (f : Nat) :
    (chainCode (f + 1) i).exec ctx s = (.error (.malformedLinkage b.id), s) := by
  unfold chainCode
  rw [exec_bind, exec_block, hb]
  simp only [exec_bind, exec_visit, if_pos hs]

/-- **The block in a value slot, already reached, stops the generation** with its id. -/
theorem valueCode_revisit {parent : Block} {slot : String} (hv : parent.value? slot = some i)
    (hb : ctx.workspace.get? i = some b) (hs : i ∈ s.seen) (f : Nat) (outer : Order) :
    (valueCode (f + 1) parent slot outer).exec ctx s = (.error (.malformedLinkage b.id), s) := by
  unfold valueCode
  rw [hv]
  simp only [exec_bind, exec_block, hb, exec_visit, if_pos hs]

/-- **A root already reached stops the generation** with its id, unless its kind is unknown and
it is not disabled: then that error comes first. -/
theorem rootCode_revisit (hb : ctx.workspace.get? i = some b) (hs : i ∈ s.seen)
    (hk : b.disabled = true ∨ (BlockKind.ofName? b.kind).isSome = true) (f : Nat) :
    (rootCode (f + 1) i).exec ctx s = (.error (.malformedLinkage b.id), s) := by
  unfold rootCode
  rw [exec_bind, exec_block, hb]
  by_cases hd : b.disabled = true
  · -- a disabled root is a chain
    simp only [hd, if_true, exec_bind, exec_pure, Bool.not_false]
    exact chainCode_revisit hb hs f
  · obtain ⟨k, hkind⟩ := Option.isSome_iff_exists.1 (hk.resolve_left hd)
    simp only [hd, Bool.false_eq_true, if_false, exec_bind, exec_map, exec_kindOf, hkind]
    cases hv : k.isValue
    · simp only [Bool.not_false, if_true]
      exact chainCode_revisit hb hs f
    · simp [exec_bind, exec_visit, hs]

end Revisit

end Generation

end BlockScribe
