import BlockScribe.Proofs.Generate.Reached
/-!
# Enough fuel

Every function of the traversal passes one unit of fuel less to the calls it makes.  The
measure that makes this enough is the number of blocks not reached yet: a call of `valueCode`
or `chainCode` reaches a new block before it calls the next function, and no chain of more than
four calls goes by without one.  So a function called with four units for each block left to
reach, and a few more for the calls before the next block, never runs out: one more unit
changes nothing (`Steady`), and the fuel never ends the traversal.  The few more are two for
`valueCode` and `bodyCode`, one for `chainCode`, four for `statementCode` and three for
`dispatch` (`Generation.dispatch_steady` and its companions).  A rule does not notice its
children's fuel (`Lockstep.steady`).

A generation gets `4 * size + 8` units; any amount from `4 * size + 1` on gives the same outcome
(`Generation.program_exec_fuel`), and that outcome is never the end of the fuel.
-/

namespace BlockScribe

open GenM

/-- Two steps that have the same outcome, which is not the end of the fuel, from every session
of the context's workspace that leaves four units of the fuel `f` for each block not reached yet,
and `c` more. -/
def Steady {α : Type} (c f : Nat) (m₁ m₂ : GenM α) : Prop :=
  ∀ ctx s, ctx.workspace.Marked s.seen → 4 * (ctx.workspace.size - s.seen.length) + c ≤ f →
    m₁.exec ctx s = m₂.exec ctx s ∧ (m₁.exec ctx s).1 ≠ .error .outOfFuel

/-- Two binds are steady when their first steps are, and so are their continuations from every
value and session the first step ends with. -/
theorem steady_bind {α β : Type} {ctx : Context} {s : Session} {m₁ m₂ : GenM β}
    {k₁ k₂ : β → GenM α}
    (hm : m₁.exec ctx s = m₂.exec ctx s ∧ (m₁.exec ctx s).1 ≠ .error .outOfFuel)
    (hk : ∀ b t, m₁.exec ctx s = (.ok b, t) →
      (k₁ b).exec ctx t = (k₂ b).exec ctx t ∧ ((k₁ b).exec ctx t).1 ≠ .error .outOfFuel) :
    (m₁ >>= k₁).exec ctx s = (m₂ >>= k₂).exec ctx s ∧
      ((m₁ >>= k₁).exec ctx s).1 ≠ .error .outOfFuel := by
  refine ⟨exec_bind_congr _ _ hm.1 fun b t h => (hk b t h).1, ?_⟩
  rw [exec_bind]
  rcases hrun : m₁.exec ctx s with ⟨_ | b, t⟩
  · simpa [hrun] using hm.2
  · exact (hk b t hrun).2

/-- **A rule does not notice its children's fuel.**  Run with two ways of getting the children's
code that are steady, a rule is steady. -/
theorem Lockstep.steady {ch₁ ch₂ : Children} {c f : Nat}
    (hv : ∀ slot order, Steady c f (ch₁.value slot order) (ch₂.value slot order))
    (hb : ∀ slot, Steady c f (ch₁.body slot) (ch₂.body slot))
    (gv : ∀ slot order ctx, Grows ctx (ch₁.value slot order))
    (gb : ∀ slot ctx, Grows ctx (ch₁.body slot))
    {α : Type} {A B : List Slot} {m₁ m₂ : GenM α} (h : Lockstep ch₁ ch₂ A m₁ m₂ B) :
    Steady c f m₁ m₂ := by
  -- the invariant: the reached blocks are marked and leave enough fuel; no error ends the fuel
  let P : List Slot → Context → Session → Prop := fun _ ctx s =>
    ctx.workspace.Marked s.seen ∧ 4 * (ctx.workspace.size - s.seen.length) + c ≤ f
  let E : GenerateError → Session → Prop := fun e _ => e ≠ .outOfFuel
  -- a growing step keeps the invariant, when it does not stop with the end of the fuel
  have holds : ∀ {β : Type} {m : GenM β} {B : List Slot} {ctx : Context} {s : Session},
      Grows ctx m → ctx.workspace.Marked s.seen →
      4 * (ctx.workspace.size - s.seen.length) + c ≤ f → (m.exec ctx s).1 ≠ .error .outOfFuel →
      Holds P E B ctx (m.exec ctx s) := by
    intro β m B ctx s hm hs hk hfuel
    rcases hrun : m.exec ctx s with ⟨_ | _, t⟩
    · rw [hrun] at hfuel
      exact fun he => hfuel (by rw [he])
    · obtain ⟨ht, hsuf⟩ := hm.step hs hrun
      exact ⟨ht, by have := hsuf.length_le; omega⟩
  let I : Invariant ch₁ ch₂ :=
    { P, E
      mono := fun _ h => h
      prim := fun hm _ _ _ hs => holds (.prim hm) hs.1 hs.2 fun he => by
        obtain ⟨_, _, _, _, h⟩ := hm.exec_error he
        cases h
      value := fun slot order _ ctx s hs =>
        ⟨(hv slot order ctx s hs.1 hs.2).1,
          holds (gv slot order ctx) hs.1 hs.2 (hv slot order ctx s hs.1 hs.2).2⟩
      body := fun slot _ ctx s hs =>
        ⟨(hb slot ctx s hs.1 hs.2).1, holds (gb slot ctx) hs.1 hs.2 (hb slot ctx s hs.1 hs.2).2⟩
      enter := fun hs => hs
      leave := fun _ hs => hs }
  intro ctx s hs hk
  obtain ⟨heq, hholds⟩ := h.agree I ctx s ⟨hs, hk⟩
  refine ⟨heq, ?_⟩
  revert hholds
  rcases m₁.exec ctx s with ⟨_ | _, t⟩
  · exact fun he h => he (by cases h; rfl)
  · exact fun _ => nofun

section Primitives

variable (ctx : Context) (s : Session)

/-- Looking up a block never ends the fuel. -/
theorem exec_block_fuel (i : Nat) : ((block i).exec ctx s).1 ≠ .error .outOfFuel := by
  rw [exec_block]
  split <;> simp

theorem exec_visit_fuel (i : Nat) (b : Block) : ((visit i b).exec ctx s).1 ≠ .error .outOfFuel := by
  rw [exec_visit]
  split <;> simp

theorem exec_kindOf_fuel (b : Block) : ((kindOf b).exec ctx s).1 ≠ .error .outOfFuel := by
  rw [exec_kindOf]
  split <;> simp

theorem exec_map_fuel {α β : Type} (g : β → α) {m : GenM β}
    (h : (m.exec ctx s).1 ≠ .error .outOfFuel) : ((g <$> m).exec ctx s).1 ≠ .error .outOfFuel := by
  rw [exec_map]
  revert h
  rcases m.exec ctx s with ⟨_ | _, _⟩ <;> simp

end Primitives

namespace Generation

mutual

theorem valueCode_steady : ∀ (f : Nat) (parent : Block) (slot : String) (outer : Order),
    Steady 2 f (valueCode f parent slot outer) (valueCode (f + 1) parent slot outer)
  | 0, _, _, _ => fun _ _ _ hk => absurd hk (by omega)
  | f + 1, parent, slot, outer => by
    intro ctx s hs hk
    unfold valueCode
    split
    · exact ⟨rfl, by simp⟩
    · refine steady_bind ⟨rfl, exec_block_fuel _ _ _⟩ fun b t hb => ?_
      obtain ⟨hget, rfl⟩ := exec_block_eq_ok.1 hb
      refine steady_bind ⟨rfl, exec_visit_fuel _ _ _ _⟩ fun _ t hv => ?_
      obtain ⟨hn, rfl⟩ := exec_visit_eq_ok.1 hv
      have hi := Workspace.lt_size_of_get_eq_some hget
      have hlt := hs.length_lt hi hn
      split
      · exact ⟨rfl, by simp⟩
      · -- the block is reached: the rule has one unit less, and one block fewer to reach
        refine steady_bind (dispatch_steady f b ctx _ (hs.cons hi hn)
          (by simp only [List.length_cons]; omega)) fun ⟨_, out⟩ _ _ => ?_
        cases out <;> exact ⟨rfl, by simp⟩

theorem bodyCode_steady : ∀ (f : Nat) (parent : Block) (slot : String),
    Steady 2 f (bodyCode f parent slot) (bodyCode (f + 1) parent slot)
  | 0, _, _ => fun _ _ _ hk => absurd hk (by omega)
  | f + 1, parent, slot => by
    intro ctx s hs hk
    unfold bodyCode
    split
    · exact ⟨rfl, by simp⟩
    · exact steady_bind (chainCode_steady f _ ctx s hs (by omega)) fun _ _ _ =>
        ⟨rfl, by simp [exec_map]⟩

theorem chainCode_steady : ∀ (f i : Nat), Steady 1 f (chainCode f i) (chainCode (f + 1) i)
  | 0, _ => fun _ _ _ hk => absurd hk (by omega)
  | f + 1, i => by
    intro ctx s hs hk
    unfold chainCode
    refine steady_bind ⟨rfl, exec_block_fuel _ _ _⟩ fun b t hb => ?_
    obtain ⟨hget, rfl⟩ := exec_block_eq_ok.1 hb
    refine steady_bind ⟨rfl, exec_visit_fuel _ _ _ _⟩ fun _ t hv => ?_
    obtain ⟨hn, rfl⟩ := exec_visit_eq_ok.1 hv
    have hi := Workspace.lt_size_of_get_eq_some hget
    have hlt := hs.length_lt hi hn
    have hs' := hs.cons hi hn
    have hhere : Grows ctx (if b.disabled then pure "" else statementCode f b) := by
      split
      · exact .pure _
      · exact grows_statementCode f b ctx
    -- the block's statement has one unit less, from one block fewer to reach
    refine steady_bind ?_ fun _ t ht => ?_
    · split
      · exact ⟨rfl, by simp⟩
      · exact statementCode_steady f b ctx _ hs' (by simp only [List.length_cons]; omega)
    -- and so has the rest of the chain, from no more blocks to reach
    obtain ⟨ht', hsuf⟩ := hhere.step hs' ht
    have hlen := hsuf.length_le
    simp only [List.length_cons] at hlen
    split
    · exact steady_bind (chainCode_steady f _ ctx t ht' (by omega)) fun _ _ _ => ⟨rfl, by simp⟩
    · exact ⟨rfl, by simp⟩

theorem statementCode_steady : ∀ (f : Nat) (b : Block),
    Steady 4 f (statementCode f b) (statementCode (f + 1) b)
  | 0, _ => fun _ _ _ hk => absurd hk (by omega)
  | f + 1, b => by
    intro ctx s hs hk
    unfold statementCode
    refine steady_bind (dispatch_steady f b ctx s hs (by omega)) fun ⟨_, out⟩ _ _ => ?_
    cases out <;> exact ⟨rfl, by simp [exec_map]⟩

theorem dispatch_steady : ∀ (f : Nat) (b : Block), Steady 3 f (dispatch f b) (dispatch (f + 1) b)
  | 0, _ => fun _ _ _ hk => absurd hk (by omega)
  | f + 1, b => by
    intro ctx s hs hk
    unfold dispatch
    refine steady_bind ⟨rfl, exec_kindOf_fuel _ _ _⟩ fun kind t hkind => ?_
    obtain ⟨-, rfl⟩ := exec_kindOf_eq_ok.1 hkind
    refine steady_bind ⟨rfl, by simp⟩ fun _ t he => ?_
    rw [exec_emit, Prod.mk.injEq] at he
    obtain ⟨-, rfl⟩ := he
    refine steady_bind ?_ fun _ _ _ => ⟨rfl, by simp⟩
    -- the rule's children have one unit less
    obtain ⟨_, hlock⟩ := kind.rule_lockstep ⟨valueCode f b, bodyCode f b⟩
      ⟨valueCode (f + 1) b, bodyCode (f + 1) b⟩ b
    rw [exec_withReader, exec_withReader]
    exact Lockstep.steady (fun slot order => valueCode_steady f b slot order)
      (fun slot => bodyCode_steady f b slot) (fun slot order ctx => grows_valueCode f b slot order ctx)
      (fun slot ctx => grows_bodyCode f b slot ctx) hlock _ _ hs (by dsimp only; omega)

end

theorem rootCode_steady (f i : Nat) : Steady 1 f (rootCode f i) (rootCode (f + 1) i) := by
  intro ctx s hs hk
  unfold rootCode
  refine steady_bind ⟨rfl, exec_block_fuel _ _ _⟩ fun b t hb => ?_
  obtain ⟨hget, rfl⟩ := exec_block_eq_ok.1 hb
  have hkind : Grows ctx (if b.disabled then pure false else (·.isValue) <$> kindOf b) := by
    split
    · exact .pure _
    · exact .map _ (.kindOf b)
  refine steady_bind ⟨rfl, ?_⟩ fun _ t ht => ?_
  · split
    · simp
    · exact exec_map_fuel _ _ _ (exec_kindOf_fuel _ _ b)
  obtain ⟨ht', hsuf⟩ := hkind.step hs ht
  have hlen := hsuf.length_le
  split
  · -- a chain of statements
    exact chainCode_steady f i ctx t ht' (by omega)
  · -- a value, reached here and given to its rule with one block fewer to reach
    refine steady_bind ⟨rfl, exec_visit_fuel _ _ _ _⟩ fun _ u hv => ?_
    obtain ⟨hn, rfl⟩ := exec_visit_eq_ok.1 hv
    have hi := Workspace.lt_size_of_get_eq_some hget
    have hlt := ht'.length_lt hi hn
    refine steady_bind (dispatch_steady f b ctx _ (ht'.cons hi hn)
      (by simp only [List.length_cons]; omega)) fun ⟨_, out⟩ _ _ => ?_
    cases out <;> exact ⟨rfl, by simp [exec_map]⟩

theorem body_steady (f : Nat) (roots : List Nat) : Steady 1 f (body f roots) (body (f + 1) roots) := by
  -- each root starts with no fewer blocks reached than the one before it
  have hroots : ∀ roots : List Nat,
      Steady 1 f (roots.mapM (rootCode f)) (roots.mapM (rootCode (f + 1))) := by
    intro roots
    induction roots with
    | nil => exact fun _ _ _ _ => ⟨rfl, by simp⟩
    | cons i rest ih =>
      intro ctx s hs hk
      rw [List.mapM_cons, List.mapM_cons]
      refine steady_bind (rootCode_steady f i ctx s hs hk) fun _ t ht => ?_
      obtain ⟨ht', hsuf⟩ := (grows_rootCode f i ctx).step hs ht
      have hlen := hsuf.length_le
      exact steady_bind (ih ctx t ht' (by omega)) fun _ _ _ => ⟨rfl, by simp⟩
  intro ctx s hs hk
  unfold body
  exact steady_bind (hroots roots ctx s hs hk) fun _ _ _ => ⟨rfl, by simp⟩

theorem program_steady (f : Nat) (w : Workspace) :
    Steady 1 f (program f w) (program (f + 1) w) := by
  intro ctx s hs hk
  unfold program
  exact steady_bind (body_steady f w.roots ctx s hs hk) fun _ _ _ => ⟨rfl, by simp [exec_bind, exec_map]⟩

/-- **More fuel changes nothing.**  From a session of a workspace's generation, a generation
with at least four units of fuel for each block of the workspace, and one more, has one outcome
whatever its fuel, and that outcome is never the end of the fuel. -/
theorem program_exec_fuel {w : Workspace} {ctx : Context} {s : Session} (hw : ctx.workspace = w)
    (hs : w.Marked s.seen) {f : Nat} (hf : 4 * w.size + 1 ≤ f) :
    (program f w).exec ctx s = (program (4 * w.size + 1) w).exec ctx s ∧
      ((program f w).exec ctx s).1 ≠ .error .outOfFuel := by
  subst hw
  induction f, hf using Nat.le_induction with
  | base => exact ⟨rfl, (program_steady _ _ ctx s hs (by omega)).2⟩
  | succ f hf ih =>
    obtain ⟨heq, hfuel⟩ := program_steady f ctx.workspace ctx s hs (by omega)
    rw [← heq]
    exact ⟨ih.1, hfuel⟩

end Generation

end BlockScribe
