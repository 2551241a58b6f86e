import BlockScribe.Proofs.Generate.Rules
/-!
# What a step does to the session

Many facts about a generation compare the session a step starts from with the one it ends
with, whatever its outcome: the reached blocks only grow, the record of the blocks given to their
rules only grows by blocks newly reached.  `GenM.Moves R` says that a step relates its two
sessions by `R`, a relation that may depend on the workspace.  When `R` is a preorder
(`SessionOrder`), steps that leave the session alone move by `R`, and a bind moves by `R` when
its parts do (`GenM.Moves.bind`).  A rule moves by `R` when its children and its primitive steps
do (`Lockstep.moves`).
-/

namespace BlockScribe

/-- Relations between the sessions of a generation of each workspace that are reflexive and
transitive, and hold across opening a scope, which changes only the names. -/
class SessionOrder (R : Workspace → Session → Session → Prop) : Prop where
  refl : ∀ w s, R w s s
  trans : ∀ {w s t u}, R w s t → R w t u → R w s u
  names : ∀ w s (n : NameTable), R w s { s with names := n }

namespace GenM

/-- A step that relates the session it starts from to the one it ends with by `R` for the
context's workspace, whatever its outcome. -/
def Moves (R : Workspace → Session → Session → Prop) {α : Type} (ctx : Context) (m : GenM α) :
    Prop :=
  ∀ s, R ctx.workspace s (m.exec ctx s).2

namespace Moves

variable {R : Workspace → Session → Session → Prop} [SessionOrder R] {α β : Type} {ctx : Context}

theorem of_session {m : GenM α} (h : ∀ s, (m.exec ctx s).2 = s) : Moves R ctx m := fun s => by
  rw [h s]
  exact SessionOrder.refl _ s

theorem pure (a : α) : Moves R ctx (Pure.pure a) := of_session fun _ => rfl

theorem throw (e : GenerateError) : Moves R ctx (MonadExcept.throw e : GenM α) :=
  of_session fun _ => rfl

theorem read : Moves R ctx (read : GenM Context) := of_session fun _ => rfl

theorem get : Moves R ctx (get : GenM Session) := of_session fun _ => rfl

theorem kindOf (b : Block) : Moves R ctx (kindOf b) := of_session fun s => by
  rw [exec_kindOf]
  split <;> rfl

theorem bind {m : GenM β} {k : β → GenM α} (hm : Moves R ctx m) (hk : ∀ b, Moves R ctx (k b)) :
    Moves R ctx (m >>= k) := fun s => by
  have h := hm s
  rw [exec_bind]
  rcases hrun : m.exec ctx s with ⟨_ | b, t⟩
  · rw [hrun] at h
    exact h
  · rw [hrun] at h
    exact SessionOrder.trans h (hk b t)

/-- A block looked up by position is a block of the workspace. -/
theorem block_bind {i : Nat} {k : Block → GenM α}
    (hk : ∀ b, ctx.workspace.get? i = some b → Moves R ctx (k b)) : Moves R ctx (block i >>= k) :=
  fun s => by
    rw [exec_bind, exec_block]
    rcases hb : ctx.workspace.get? i with _ | b
    · exact SessionOrder.refl _ s
    · exact hk b hb s

theorem map {m : GenM β} (f : β → α) (hm : Moves R ctx m) : Moves R ctx (f <$> m) := by
  rw [← bind_pure_comp]
  exact .bind hm fun _ => .pure _

theorem mapM {γ : Type} {f : γ → GenM α} (hf : ∀ x, Moves R ctx (f x)) :
    ∀ xs : List γ, Moves R ctx (xs.mapM f)
  | [] => .pure _
  | x :: xs => by
    rw [List.mapM_cons]
    exact .bind (hf x) fun _ => .bind (mapM hf xs) fun _ => .pure _

omit [SessionOrder R] in
theorem withReader {f : Context → Context} {m : GenM α} (hf : (f ctx).workspace = ctx.workspace)
    (hm : Moves R (f ctx) m) : Moves R ctx (withReader f m) := fun s => by
  rw [exec_withReader, ← hf]
  exact hm s

theorem inChildScope {m : GenM α} (hm : ∀ ctx', Moves R ctx' m) : Moves R ctx (inChildScope m) :=
  fun s => by
    rw [exec_inChildScope]
    exact SessionOrder.trans (SessionOrder.names _ s _)
      (hm { ctx with scope := (s.names.openScope ctx.scope).1 } _)

end Moves

end GenM

open GenM

/-- **A rule moves by a preorder when its children and primitive steps do.** -/
theorem Lockstep.moves {R : Workspace → Session → Session → Prop} [SessionOrder R] {ch : Children}
    (hp : ∀ {β : Type} {m : GenM β}, Prim m → ∀ ctx, Moves R ctx m)
    (hv : ∀ slot order ctx, Moves R ctx (ch.value slot order))
    (hb : ∀ slot ctx, Moves R ctx (ch.body slot)) {α : Type} {A B : List Slot} {m₁ m₂ : GenM α}
    (h : Lockstep ch ch A m₁ m₂ B) : ∀ ctx, Moves R ctx m₁ := by
  induction h with
  | pure a _ => exact fun _ => .pure a
  | prim hm => exact hp hm
  | value slot order _ => exact hv slot order
  | body slot _ => exact hb slot
  | bind _ _ ih₁ ih₂ => exact fun ctx => .bind (ih₁ ctx) fun x => ih₂ x ctx
  | scope _ ih => exact fun _ => .inChildScope ih
  | mono _ _ ih => exact ih

end BlockScribe
