import BlockScribe.Proofs.Generate.Lockstep
import BlockScribe.Proofs.Workspace.Links
/-!
# Steps that follow links only into what is not reached yet

In a workspace whose links form a forest, a generation never follows a link wrongly: it never
reaches a block twice and never follows a link past the arena.  The argument is a frame
argument.  A step that follows the link to `j` starts where nothing under `j` is reached
(`Workspace.Fresh`), and it reaches only blocks under `j`: its outcome is `Confined` to the
blocks under `j`.  Since the blocks under two inputs of a block lie apart, following one input
leaves the others fresh.

This module gives the calculus of `Confined` outcomes, one lemma per kind of step, and the
invariant that a rule keeps while it reads the slots of its block (`Workspace.RuleState`):
what it has reached lies under the inputs of the slots read so far and under none of the slots
still to read.  `Lockstep.confined` is the conclusion for every rule: a rule given fresh inputs
reaches only blocks under them, because it reads each slot at most once.
-/

namespace BlockScribe

open GenM

/-- The errors of following a link: to a block reached before, or to a position with no block. -/
def GenerateError.OfLink : GenerateError → Prop
  | .malformedLinkage _ => True
  | .missingNode _ => True
  | _ => False

/-- The outcome of a step from session `s` that follows no link wrongly and reaches only
positions of `J`: it stops with no error of following a link, and when it returns, the blocks it
reached, in front of those reached before, are positions of `J`. -/
def Confined {α : Type} (J : Nat → Prop) (s : Session) : Except GenerateError α × Session → Prop
  | (.ok _, t) => ∃ new, t.seen = new ++ s.seen ∧ ∀ k ∈ new, J k
  | (.error e, _) => ¬ e.OfLink

namespace Confined

variable {α β : Type} {J J' : Nat → Prop} {s : Session} {ctx : Context}

theorem mono {r : Except GenerateError α × Session} (h : Confined J s r) (hJ : ∀ k, J k → J' k) :
    Confined J' s r := by
  rcases r with ⟨_ | _, t⟩
  · exact h
  · obtain ⟨new, hseen, hnew⟩ := h
    exact ⟨new, hseen, fun k hk => hJ k (hnew k hk)⟩

/-- An outcome that reaches no block and is no error of following a link. -/
theorem of_seen {r : Except GenerateError α × Session} (hseen : r.2.seen = s.seen)
    (herr : ∀ e, r.1 = .error e → ¬ e.OfLink) : Confined J s r := by
  rcases r with ⟨_ | _, t⟩
  · exact herr _ rfl
  · exact ⟨[], hseen, nofun⟩

theorem pure (a : α) : Confined J s ((Pure.pure a : GenM α).exec ctx s) :=
  of_seen rfl fun _ h => by cases h

theorem throw {e : GenerateError} (he : ¬ e.OfLink) :
    Confined J s ((MonadExcept.throw e : GenM α).exec ctx s) := he

theorem read : Confined J s ((read : GenM Context).exec ctx s) := of_seen rfl fun _ h => by cases h

theorem get : Confined J s ((get : GenM Session).exec ctx s) := of_seen rfl fun _ h => by cases h

theorem kindOf (b : Block) : Confined J s ((kindOf b).exec ctx s) := by
  rw [exec_kindOf]
  split
  · exact of_seen rfl fun _ h => by cases h
  · exact id

theorem prim {m : GenM α} (hm : Prim m) : Confined J s (m.exec ctx s) :=
  of_seen (hm.exec_seen ctx s) fun _ he => by
    obtain ⟨_, _, _, _, rfl⟩ := hm.exec_error he
    exact id

theorem emit (e : Event) : Confined J s ((emit e).exec ctx s) := of_seen rfl fun _ h => by cases h

/-- A step confined to `J₁`, then steps that know what it reached: what both reach. -/
theorem bind_reached {m : GenM β} {k : β → GenM α} (J₁ : Nat → Prop)
    (hm : Confined J₁ s (m.exec ctx s)) (hJ : ∀ k, J₁ k → J k)
    (hk : ∀ b t new, t.seen = new ++ s.seen → (∀ k ∈ new, J₁ k) →
      Confined J t ((k b).exec ctx t)) :
    Confined J s ((m >>= k).exec ctx s) := by
  rw [exec_bind]
  rcases hrun : m.exec ctx s with ⟨_ | b, t⟩
  · rw [hrun] at hm
    exact hm
  · rw [hrun] at hm
    obtain ⟨new, hseen, hnew⟩ := hm
    have hk' := hk b t new hseen hnew
    dsimp only
    rcases hk'run : (k b).exec ctx t with ⟨_ | _, u⟩
    · rw [hk'run] at hk'
      exact hk'
    · rw [hk'run] at hk'
      obtain ⟨new', hseen', hnew'⟩ := hk'
      refine ⟨new' ++ new, by rw [hseen', hseen, List.append_assoc], fun k hk => ?_⟩
      rcases List.mem_append.1 hk with hk | hk
      · exact hnew' k hk
      · exact hJ k (hnew k hk)

/-- A step that reaches nothing, then steps from a session with the same blocks reached. -/
theorem bind_same {m : GenM β} {k : β → GenM α} (hm : Confined (fun _ => False) s (m.exec ctx s))
    (hk : ∀ b t, t.seen = s.seen → Confined J t ((k b).exec ctx t)) :
    Confined J s ((m >>= k).exec ctx s) :=
  bind_reached (fun _ => False) hm (fun _ h => h.elim) fun b t _ hseen hnew => hk b t (by
    rw [hseen, List.eq_nil_iff_forall_not_mem.2 hnew, List.nil_append])

/-- A step, then steps confined from every session. -/
theorem bind {m : GenM β} {k : β → GenM α} (hm : Confined J s (m.exec ctx s))
    (hk : ∀ b t, Confined J t ((k b).exec ctx t)) : Confined J s ((m >>= k).exec ctx s) :=
  bind_reached J hm (fun _ h => h) fun b t _ _ _ => hk b t

theorem map (f : β → α) {m : GenM β} (hm : Confined J s (m.exec ctx s)) :
    Confined J s ((f <$> m).exec ctx s) := by
  rw [← bind_pure_comp]
  exact Confined.bind hm fun _ _ => Confined.pure _

/-- Looking up a block of the arena. -/
theorem block_bind {i : Nat} {b : Block} {k : Block → GenM α} (hb : ctx.workspace.get? i = some b)
    (hk : Confined J s ((k b).exec ctx s)) : Confined J s ((block i >>= k).exec ctx s) := by
  rw [exec_bind, exec_block, hb]
  exact hk

/-- Reaching a block not reached before, of `J`. -/
theorem visit_bind {i : Nat} {b : Block} {k : Unit → GenM α} (hi : i ∉ s.seen) (hJ : J i)
    (hk : Confined J { s with seen := i :: s.seen }
      ((k ()).exec ctx { s with seen := i :: s.seen })) :
    Confined J s ((visit i b >>= k).exec ctx s) := by
  rw [exec_bind, exec_visit, if_neg hi]
  dsimp only
  rcases hrun : (k ()).exec ctx { s with seen := i :: s.seen } with ⟨_ | _, t⟩
  · rw [hrun] at hk
    exact hk
  · rw [hrun] at hk
    obtain ⟨new, hseen, hnew⟩ := hk
    refine ⟨new ++ [i], by rw [hseen, List.append_assoc]; rfl, fun k hk => ?_⟩
    rcases List.mem_append.1 hk with hk | hk
    · exact hnew k hk
    · rw [List.mem_singleton.1 hk]
      exact hJ

end Confined

namespace Workspace

variable {w : Workspace} {seen : List Nat} {i j k p : Nat}

/-- Nothing under `j` is reached. -/
def Fresh (w : Workspace) (j : Nat) (seen : List Nat) : Prop := ∀ k, w.Reaches j k → k ∉ seen

/-- `k` lies under the position an optional link points to. -/
def Below (w : Workspace) (t : Option Nat) (k : Nat) : Prop := ∃ c, t = some c ∧ w.Reaches c k

theorem Fresh.not_mem (h : w.Fresh j seen) : j ∉ seen := h j .refl

/-- Nothing under a block is reached; having reached the block itself, nothing under its
children is. -/
theorem Fresh.child (hf : w.Forest) (h : w.Fresh p seen) (hl : w.Link p j) :
    w.Fresh j (p :: seen) := fun k hk hmem => by
  rcases List.mem_cons.1 hmem with rfl | hmem
  · exact hf.not_reaches_parent hl hk
  · exact h k (Relation.ReflTransGen.head hl hk) hmem

/-- Reaching blocks under none of those under `j` keeps `j` fresh. -/
theorem Fresh.append {new : List Nat} (h : w.Fresh j seen) (hn : ∀ k ∈ new, ¬ w.Reaches j k) :
    w.Fresh j (new ++ seen) := fun k hk hmem => by
  rcases List.mem_append.1 hmem with hmem | hmem
  · exact hn k hmem hk
  · exact h k hk hmem

end Workspace

theorem Slots.get?_injective {α : Type} {s : Slots α} {x y : String} {a : α}
    (hnd : s.contents.Nodup) (hx : s.get? x = some a) (hy : s.get? y = some a) : x = y := by
  obtain ⟨ex, hex, rfl⟩ := Option.map_eq_some_iff.1 hx
  obtain ⟨ey, hey, hxy⟩ := Option.map_eq_some_iff.1 hy
  -- two entries with one content are one entry, since the contents are distinct
  have heq : ey = ex :=
    List.inj_on_of_nodup_map hnd (List.mem_of_find?_eq_some hey) (List.mem_of_find?_eq_some hex) hxy
  have hxname : ex.1 = x := by simpa using List.find?_some hex
  have hyname : ey.1 = y := by simpa using List.find?_some hey
  rw [← hxname, ← hyname, heq]

namespace Block

variable {b : Block} {slot slot' : Slot} {c : Nat}

/-- The blocks of the inputs of a block: its value inputs, then its statement inputs. -/
def inputs (b : Block) : List Nat := b.values.contents ++ b.statements.contents

/-- The block a slot of `b` links to. -/
def target (b : Block) : Slot → Option Nat
  | .value name => b.value? name
  | .body name => b.statement? name

theorem children_eq_inputs (b : Block) : b.children = b.inputs ++ b.next.toList := rfl

theorem mem_children_of_mem_inputs (h : c ∈ b.inputs) : c ∈ b.children := by
  rw [children_eq_inputs]
  exact List.mem_append_left _ h

/-- The successor of a block is none of its inputs. -/
theorem next_not_mem_inputs (hnd : b.children.Nodup) (h : b.next = some c) : c ∉ b.inputs :=
  fun hc => List.disjoint_of_nodup_append (children_eq_inputs b ▸ hnd) hc (by simp [h])

theorem target_mem_inputs (h : b.target slot = some c) : c ∈ b.inputs := by
  cases slot with
  | value name => exact List.mem_append_left _ (Slots.get?_mem_contents h)
  | body name => exact List.mem_append_right _ (Slots.get?_mem_contents h)

/-- **Two slots link to two blocks**, where the inputs are distinct. -/
theorem target_injective (hnd : b.inputs.Nodup) (h : b.target slot = some c)
    (h' : b.target slot' = some c) : slot = slot' := by
  have hvalues := List.Nodup.of_append_left hnd
  have hstatements := List.Nodup.of_append_right hnd
  have hapart := List.disjoint_of_nodup_append hnd
  cases slot with
  | value x =>
    cases slot' with
    | value y => exact congrArg Slot.value (Slots.get?_injective hvalues h h')
    | body y => exact absurd (Slots.get?_mem_contents h') (hapart (Slots.get?_mem_contents h))
  | body x =>
    cases slot' with
    | value y => exact absurd (Slots.get?_mem_contents h) (hapart (Slots.get?_mem_contents h'))
    | body y => exact congrArg Slot.body (Slots.get?_injective hstatements h h')

end Block

/-- While the rule of the block `b` runs, given the block in session `s₀`, with the slots `A`
read: the workspace is `w`, and the blocks reached since `s₀` lie under the inputs of `b`, under
none of the blocks of the slots still to read. -/
def Workspace.RuleState (w : Workspace) (b : Block) (s₀ : Session) (A : List Slot) (ctx : Context)
    (s : Session) : Prop :=
  ctx.workspace = w ∧ ∃ new, s.seen = new ++ s₀.seen ∧ (∀ k ∈ new, ∃ c ∈ b.inputs, w.Reaches c k) ∧
    ∀ slot ∉ A, ∀ c, b.target slot = some c → ∀ k ∈ new, ¬ w.Reaches c k

namespace Workspace.RuleState

variable {w : Workspace} {b : Block} {s₀ s : Session} {A : List Slot} {ctx : Context}

theorem start (hw : ctx.workspace = w) : w.RuleState b s₀ [] ctx s₀ :=
  ⟨hw, [], rfl, nofun, fun _ _ _ _ _ h => nomatch h⟩

/-- The block of a slot not read yet is fresh, if the inputs were fresh when the rule began. -/
theorem fresh (h : w.RuleState b s₀ A ctx s) (hfresh : ∀ c ∈ b.inputs, w.Fresh c s₀.seen)
    {slot : Slot} (hA : slot ∉ A) {c : Nat} (hc : b.target slot = some c) : w.Fresh c s.seen := by
  obtain ⟨_, new, hseen, _, hapart⟩ := h
  rw [hseen]
  exact (hfresh c (Block.target_mem_inputs hc)).append (hapart slot hA c hc)

/-- A primitive step keeps the rule's invariant. -/
theorem prim {β : Type} {m : GenM β} (h : w.RuleState b s₀ A ctx s) (hm : Prim m) :
    Holds (w.RuleState b s₀) (fun e _ => ¬ e.OfLink) A ctx (m.exec ctx s) := by
  have hconf : Confined (fun _ => False) s (m.exec ctx s) := Confined.prim hm
  rcases hrun : m.exec ctx s with ⟨_ | _, t⟩
  · rw [hrun] at hconf
    exact hconf
  · have hseen : t.seen = s.seen := by
      simpa [hrun] using hm.exec_seen ctx s
    obtain ⟨hw, rest⟩ := h
    exact ⟨hw, hseen ▸ rest⟩

/-- **Reading a slot keeps the rule's invariant**, when what the slot reaches lies under its
block: the blocks of the other slots lie apart from it. -/
theorem read {p : Nat} (hf : w.Forest) (hb : w.get? p = some b) (h : w.RuleState b s₀ A ctx s)
    {slot : Slot} {r : Except GenerateError α × Session}
    (hr : Confined (w.Below (b.target slot)) s r) :
    Holds (w.RuleState b s₀) (fun e _ => ¬ e.OfLink) (slot :: A) ctx r := by
  obtain ⟨hw, new, hseen, hunder, hapart⟩ := h
  rcases r with ⟨_ | _, t⟩
  · exact hr
  · obtain ⟨new', hseen', hnew'⟩ := hr
    have hnd : b.inputs.Nodup :=
      List.Nodup.of_append_left (Block.children_eq_inputs b ▸ hf.children_nodup hb)
    refine ⟨hw, new' ++ new, by rw [hseen', hseen, List.append_assoc], fun k hk => ?_,
      fun slot' hslot' c' hc' k hk => ?_⟩
    · rcases List.mem_append.1 hk with hk | hk
      · obtain ⟨c, hc, hck⟩ := hnew' k hk
        exact ⟨c, Block.target_mem_inputs hc, hck⟩
      · exact hunder k hk
    · have hne : slot' ≠ slot := fun he => hslot' (he ▸ List.mem_cons_self)
      have hA' : slot' ∉ A := fun hm => hslot' (List.mem_cons_of_mem _ hm)
      rcases List.mem_append.1 hk with hk | hk
      · -- the block of the slot just read, and that of another slot, are two children of `b`
        obtain ⟨c, hc, hck⟩ := hnew' k hk
        have hcc' : c ≠ c' := fun he => hne (Block.target_injective hnd hc' (he ▸ hc))
        intro hc'k
        exact hf.apart (hf.not_reaches_sibling hb (Block.mem_children_of_mem_inputs
            (Block.target_mem_inputs hc)) (Block.mem_children_of_mem_inputs
            (Block.target_mem_inputs hc')) hcc')
          (hf.not_reaches_sibling hb (Block.mem_children_of_mem_inputs
            (Block.target_mem_inputs hc')) (Block.mem_children_of_mem_inputs
            (Block.target_mem_inputs hc)) hcc'.symm) hck hc'k
      · exact hapart slot' hA' c' hc' k hk

end Workspace.RuleState

/-- **A rule given fresh inputs reaches only blocks under them.**  The rule of a block of a
forest, run where nothing under the block's inputs is reached, with children that reach only
under the block of their slot, follows no link wrongly: a rule reads each slot at most once. -/
theorem Lockstep.confined {w : Workspace} (hf : w.Forest) {b : Block} {p : Nat}
    (hb : w.get? p = some b) {ch : Children}
    (hv : ∀ slot order ctx s, ctx.workspace = w →
      (∀ c, b.target (.value slot) = some c → w.Fresh c s.seen) →
      Confined (w.Below (b.target (.value slot))) s ((ch.value slot order).exec ctx s))
    (hbody : ∀ slot ctx s, ctx.workspace = w →
      (∀ c, b.target (.body slot) = some c → w.Fresh c s.seen) →
      Confined (w.Below (b.target (.body slot))) s ((ch.body slot).exec ctx s))
    {α : Type} {B : List Slot} {m : GenM α} (h : Lockstep ch ch [] m m B) {ctx : Context}
    {s₀ : Session} (hw : ctx.workspace = w) (hfresh : ∀ c ∈ b.inputs, w.Fresh c s₀.seen) :
    Confined (fun k => ∃ c ∈ b.inputs, w.Reaches c k) s₀ (m.exec ctx s₀) := by
  let I : Invariant ch ch :=
    { P := w.RuleState b s₀
      E := fun e _ => ¬ e.OfLink
      mono := fun hAB ⟨hw, new, hseen, hunder, hapart⟩ =>
        ⟨hw, new, hseen, hunder, fun slot hB => hapart slot fun hA => hB (hAB hA)⟩
      prim := @fun _ _ hm _ _ _ hP => hP.prim hm
      value := fun slot order hA _ s hP => ⟨rfl, hP.read hf hb
        (hv slot order _ s hP.1 fun _ hc => hP.fresh hfresh hA hc)⟩
      body := fun slot hA _ s hP => ⟨rfl, hP.read hf hb
        (hbody slot _ s hP.1 fun _ hc => hP.fresh hfresh hA hc)⟩
      enter := fun ⟨hw, rest⟩ => ⟨hw, rest⟩
      leave := fun ⟨hw, _⟩ ⟨_, rest⟩ => ⟨hw, rest⟩ }
  have hholds := (h.agree I ctx s₀ (Workspace.RuleState.start hw)).2
  rcases hrun : m.exec ctx s₀ with ⟨_ | _, t⟩
  · rw [hrun] at hholds
    exact hholds
  · rw [hrun] at hholds
    obtain ⟨_, new, hseen, hunder, _⟩ := hholds
    exact ⟨new, hseen, hunder⟩

end BlockScribe
