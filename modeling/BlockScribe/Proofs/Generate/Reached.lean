import BlockScribe.Proofs.Generate.Moves
import Mathlib.Data.List.Infix
/-!
# The blocks a generation reaches

A generation keeps the positions of the blocks it has reached (`Session.seen`), to refuse a
block reached twice.  Those positions are always blocks of the workspace, each listed once
(`Workspace.Marked`), so there are never more of them than blocks, and every step only adds to
them (`GenM.Grows`): the list before a step is a suffix of the list after it.  The last fact is
the measure of the traversal: each block reached is one fewer block left to reach.

`Generation.grows_dispatch` and its companions say that every function of the traversal grows
the reached blocks, with any fuel, in any context.
-/

namespace BlockScribe

/-- The blocks reached so far in a generation of `w`: blocks of `w`, each reached once. -/
structure Workspace.Marked (w : Workspace) (seen : List Nat) : Prop where
  nodup : seen.Nodup
  lt_size : ∀ i ∈ seen, i < w.size

namespace Workspace

variable {w : Workspace} {seen : List Nat} {i : Nat}

theorem lt_size_of_get_eq_some {b : Block} (h : w.get? i = some b) : i < w.size :=
  (Array.getElem?_eq_some_iff.1 h).1

theorem Marked.cons (h : w.Marked seen) (hi : i < w.size) (hn : i ∉ seen) :
    w.Marked (i :: seen) :=
  ⟨List.nodup_cons.2 ⟨hn, h.nodup⟩, fun j hj => by
    rcases List.mem_cons.1 hj with rfl | hj
    · exact hi
    · exact h.lt_size j hj⟩

/-- No more blocks are reached than there are. -/
theorem Marked.length_le (h : w.Marked seen) : seen.length ≤ w.size := by
  simpa using List.Nodup.length_le_of_subset h.nodup fun j hj => List.mem_range.2 (h.lt_size j hj)

/-- While a block is left to reach, fewer blocks are reached than there are. -/
theorem Marked.length_lt (h : w.Marked seen) (hi : i < w.size) (hn : i ∉ seen) :
    seen.length < w.size :=
  (h.cons hi hn).length_le

end Workspace

/-- From one session of a generation of `w` to a later one: if the blocks reached at first are
marked, so are those reached later, and the first are a suffix of them. -/
def Workspace.Grown (w : Workspace) (s t : Session) : Prop :=
  w.Marked s.seen → w.Marked t.seen ∧ s.seen <:+ t.seen

instance : SessionOrder Workspace.Grown where
  refl _ _ hs := ⟨hs, List.suffix_refl _⟩
  trans hst htu hs := by
    obtain ⟨ht, hsuf⟩ := hst hs
    obtain ⟨hu, hsuf'⟩ := htu ht
    exact ⟨hu, hsuf.trans hsuf'⟩
  names _ _ _ hs := ⟨hs, List.suffix_refl _⟩

namespace GenM

/-- A step of a generation of the context's workspace that only adds blocks of the workspace to
those reached, each once: what was reached before is a suffix of what is reached after. -/
abbrev Grows {α : Type} (ctx : Context) (m : GenM α) : Prop := Moves Workspace.Grown ctx m

namespace Grows

variable {α : Type} {ctx : Context}

/-- What a growing step ends with, from a session whose reached blocks are marked. -/
theorem step {m : GenM α} (hm : Grows ctx m) {s : Session} (hs : ctx.workspace.Marked s.seen)
    {r : Except GenerateError α} {t : Session} (h : m.exec ctx s = (r, t)) :
    ctx.workspace.Marked t.seen ∧ s.seen <:+ t.seen := by
  simpa [h] using hm s hs

theorem of_seen {m : GenM α} (h : ∀ s, (m.exec ctx s).2.seen = s.seen) : Grows ctx m :=
  fun s hs => by
    rw [h s]
    exact ⟨hs, List.suffix_refl _⟩

end Grows

end GenM

open GenM

/-! The steps that grow the reached blocks besides those that leave the session alone. -/

namespace Workspace.Grown

variable {α : Type} {ctx : Context}

theorem prim {m : GenM α} (hm : Prim m) : Grows ctx m := Grows.of_seen (hm.exec_seen ctx)

theorem visit {i : Nat} (b : Block) (hi : i < ctx.workspace.size) : Grows ctx (visit i b) :=
  fun s hs => by
    rw [exec_visit]
    split
    · exact ⟨hs, List.suffix_refl _⟩
    · exact ⟨hs.cons hi ‹_›, List.suffix_cons _ _⟩

theorem emit (e : Event) : Grows ctx (emit e) := Grows.of_seen fun _ => rfl

end Workspace.Grown

namespace Generation

mutual

theorem grows_valueCode : ∀ (f : Nat) (parent : Block) (slot : String) (outer : Order)
    (ctx : Context), Grows ctx (valueCode f parent slot outer)
  | 0, _, _, _, _ => .throw _
  | f + 1, parent, slot, outer, ctx => by
    unfold valueCode
    split
    · exact .pure _
    · refine .block_bind fun b hb => .bind (.visit b (Workspace.lt_size_of_get_eq_some hb)) fun _ => ?_
      split
      · exact .pure _
      · refine .bind (grows_dispatch f b ctx) fun ⟨_, out⟩ => ?_
        cases out with
        | value => exact .pure _
        | statement => exact .throw _
        | hoisted => exact .pure _

theorem grows_bodyCode : ∀ (f : Nat) (parent : Block) (slot : String) (ctx : Context),
    Grows ctx (bodyCode f parent slot)
  | 0, _, _, _ => .throw _
  | f + 1, parent, slot, ctx => by
    unfold bodyCode
    split
    · exact .pure _
    · exact .bind (grows_chainCode f _ ctx) fun _ => .bind .read fun _ => .pure _

theorem grows_chainCode : ∀ (f : Nat) (i : Nat) (ctx : Context), Grows ctx (chainCode f i)
  | 0, _, _ => .throw _
  | f + 1, i, ctx => by
    unfold chainCode
    refine .block_bind fun b hb => .bind (.visit b (Workspace.lt_size_of_get_eq_some hb)) fun _ => ?_
    refine .bind (?_ : Grows ctx (if b.disabled then _ else _)) fun _ => ?_
    · split
      · exact .pure _
      · exact grows_statementCode f b ctx
    · split
      · exact .bind (grows_chainCode f _ ctx) fun _ => .pure _
      · exact .pure _

theorem grows_statementCode : ∀ (f : Nat) (b : Block) (ctx : Context),
    Grows ctx (statementCode f b)
  | 0, _, _ => .throw _
  | f + 1, b, ctx => by
    unfold statementCode
    refine .bind (grows_dispatch f b ctx) fun ⟨_, out⟩ => ?_
    cases out with
    | value => exact .throw _
    | statement => exact .bind .read fun _ => .pure _
    | hoisted => exact .pure _

theorem grows_dispatch : ∀ (f : Nat) (b : Block) (ctx : Context), Grows ctx (dispatch f b)
  | 0, _, _ => .throw _
  | f + 1, b, ctx => by
    unfold dispatch
    refine .bind (.kindOf b) fun kind => .bind (.emit _) fun _ => .bind ?_ fun _ => .pure _
    obtain ⟨_, hlock⟩ := kind.rule_lockstep ⟨valueCode f b, bodyCode f b⟩ ⟨valueCode f b, bodyCode f b⟩ b
    exact .withReader rfl (Lockstep.moves (fun hm _ => .prim hm)
      (fun slot order ctx => grows_valueCode f b slot order ctx)
      (fun slot ctx => grows_bodyCode f b slot ctx) hlock _)

end

theorem grows_rootCode (f i : Nat) (ctx : Context) : Grows ctx (rootCode f i) := by
  unfold rootCode
  refine .block_bind fun b hb => .bind ?_ fun _ => ?_
  · split
    · exact .pure _
    · exact .map _ (.kindOf b)
  · split
    · exact grows_chainCode f i ctx
    · refine .bind (.visit b (Workspace.lt_size_of_get_eq_some hb)) fun _ => ?_
      refine .bind (grows_dispatch f b ctx) fun ⟨_, out⟩ => ?_
      cases out with
      | value => exact .bind .read fun _ => .pure _
      | statement => exact .pure _
      | hoisted => exact .pure _

theorem grows_program (f : Nat) (w : Workspace) (ctx : Context) : Grows ctx (program f w) := by
  unfold program body
  refine .bind (.bind (.mapM (fun i => grows_rootCode f i ctx) _) fun _ => .pure _) fun _ => ?_
  exact .bind .get fun _ => .bind (.emit _) fun _ => .pure _

end Generation

end BlockScribe
