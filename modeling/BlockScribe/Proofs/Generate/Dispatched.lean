import BlockScribe.Proofs.Generate.Reached
import Mathlib.Data.List.Forall2
/-!
# Each block goes to its rule at most once

A generation records an event each time it gives a block to the rule of its kind
(`Event.dispatched`).  Between two sessions of a generation, the blocks given to their rules are
some of the blocks reached in between, in the order in which they were reached
(`Workspace.Records`).  A block is given to its rule right after it is reached, before anything
else is reached, so the record of a dispatch is the record of the block just reached
(`Workspace.Records.dispatch`); every other step records nothing but what its parts record.

Since the blocks reached are reached once each, the blocks given to their rules are too: a whole
generation gives each block to its rule at most once (`Generation.run_dispatched`).
-/

namespace BlockScribe

/-- The id of the block that an event records giving to its rule. -/
def Event.dispatchedId? : Event → Option String
  | .dispatched id _ => some id
  | _ => none

/-- The ids of the blocks given to their rules, in the order of the events. -/
def dispatchedIds (events : List Event) : List String := events.filterMap Event.dispatchedId?

@[simp] theorem dispatchedIds_nil : dispatchedIds [] = [] := rfl

@[simp] theorem dispatchedIds_cons (e : Event) (events : List Event) :
    dispatchedIds (e :: events) = e.dispatchedId?.toList ++ dispatchedIds events := by
  cases h : e.dispatchedId? <;> simp [dispatchedIds, h]

@[simp] theorem dispatchedIds_append (events events' : List Event) :
    dispatchedIds (events ++ events') = dispatchedIds events ++ dispatchedIds events' :=
  List.filterMap_append

/-- From session `s` to session `t` of a generation of `w`: the blocks reached in between are
`new`, latest first, and the blocks given to their rules in between are some of them, `ps`, in
the order in which they were reached, recorded by their ids. -/
def Workspace.Records (w : Workspace) (s t : Session) : Prop :=
  ∃ new ps ids, t.seen = new ++ s.seen ∧ ps.Sublist new.reverse ∧
    List.Forall₂ (fun i id => (w.get? i).map Block.id = some id) ps ids ∧
    dispatchedIds t.events.toList = dispatchedIds s.events.toList ++ ids

namespace Workspace.Records

variable {w : Workspace} {s t : Session}

/-- A step that reaches no block and records no dispatch. -/
theorem of_same (hseen : t.seen = s.seen)
    (hids : dispatchedIds t.events.toList = dispatchedIds s.events.toList) : w.Records s t :=
  ⟨[], [], [], by simp [hseen], .slnil, .nil, by simp [hids]⟩

/-- Reaching a block. -/
theorem visited (s : Session) (i : Nat) : w.Records s { s with seen := i :: s.seen } :=
  ⟨[i], [], [], rfl, List.nil_sublist _, .nil, by simp⟩

/-- Reaching a block and giving it to its rule, before anything else is reached. -/
theorem dispatch {i : Nat} {b : Block} (hb : w.get? i = some b) (s : Session) (k : BlockKind) :
    w.Records s { s with seen := i :: s.seen, events := s.events.push (.dispatched b.id k) } :=
  ⟨[i], [i], [b.id], rfl, .refl _, .cons (by simp [hb]) .nil, by simp [Event.dispatchedId?]⟩

instance : SessionOrder Workspace.Records where
  refl _ _ := of_same rfl rfl
  trans := by
    rintro w s t u ⟨new₁, ps₁, ids₁, hseen₁, hsub₁, hall₁, hids₁⟩
      ⟨new₂, ps₂, ids₂, hseen₂, hsub₂, hall₂, hids₂⟩
    refine ⟨new₂ ++ new₁, ps₁ ++ ps₂, ids₁ ++ ids₂, by simp [hseen₂, hseen₁], ?_,
      List.rel_append hall₁ hall₂, by simp [hids₂, hids₁]⟩
    rw [List.reverse_append]
    exact hsub₁.append hsub₂
  names _ _ _ := of_same rfl rfl

end Workspace.Records

/-- A primitive step records no dispatch. -/
theorem Prim.exec_dispatchedIds {β : Type} {m : GenM β} (h : Prim m) (ctx : Context)
    (s : Session) : dispatchedIds (m.exec ctx s).2.events.toList = dispatchedIds s.events.toList := by
  cases h with
  | provide desired lines =>
    rw [GenM.exec_provide]
    rcases s.registry.provide s.names ctx.config.indent desired lines with ⟨_, _, _, fresh⟩
    cases fresh <;> simp [Event.dispatchedId?]
  | defineProcedure name code => simp [Event.dispatchedId?]
  | choose b field options =>
    rw [exec_choose]
    split
    · rfl
    · split <;> rfl
  | _ => rfl

open GenM

/-! The steps that record dispatches faithfully besides those that leave the session alone. -/

namespace Workspace.Records

variable {α : Type} {ctx : Context}

theorem prim {m : GenM α} (hm : Prim m) : Moves Records ctx m :=
  fun s => of_same (hm.exec_seen ctx s) (hm.exec_dispatchedIds ctx s)

theorem emit {e : Event} (he : e.dispatchedId? = none) : Moves Records ctx (emit e) :=
  fun s => of_same rfl (by simp [he])

/-- Reaching a block, then what the continuation records from the block just reached. -/
theorem visit_bind {i : Nat} {b : Block} {k : Unit → GenM α}
    (hk : ∀ s, i ∉ s.seen →
      ctx.workspace.Records s ((k ()).exec ctx { s with seen := i :: s.seen }).2) :
    Moves Records ctx (visit i b >>= k) := fun s => by
  rw [exec_bind, exec_visit]
  by_cases h : i ∈ s.seen
  · rw [if_pos h]
    exact of_same rfl rfl
  · rw [if_neg h]
    exact hk s h

/-- A step that records faithfully from the session it starts with, then steps that record
faithfully. -/
theorem then_moves {β : Type} {m : GenM β} {k : β → GenM α} {s₀ s : Session}
    (hm : ctx.workspace.Records s₀ (m.exec ctx s).2) (hk : ∀ b, Moves Records ctx (k b)) :
    ctx.workspace.Records s₀ ((m >>= k).exec ctx s).2 :=
  exec_bind_snd _ _ _ (fun _ t h => by simpa [h] using hm)
    fun b t h => SessionOrder.trans (by simpa [h] using hm) (hk b t)

end Workspace.Records

open Workspace

namespace Generation

mutual

theorem records_valueCode : ∀ (f : Nat) (parent : Block) (slot : String) (outer : Order)
    (ctx : Context), Moves Records ctx (valueCode f parent slot outer)
  | 0, _, _, _, _ => .throw _
  | f + 1, parent, slot, outer, ctx => by
    unfold valueCode
    split
    · exact .pure _
    · refine .block_bind fun b hb => Records.visit_bind fun s _ => ?_
      split
      · exact Records.visited s _
      · -- the block just reached goes to its rule
        refine Records.then_moves (records_dispatch f b ctx s _ hb) fun ⟨_, out⟩ => ?_
        cases out with
        | value => exact .pure _
        | statement => exact .throw _
        | hoisted => exact .pure _

theorem records_bodyCode : ∀ (f : Nat) (parent : Block) (slot : String) (ctx : Context),
    Moves Records ctx (bodyCode f parent slot)
  | 0, _, _, _ => .throw _
  | f + 1, parent, slot, ctx => by
    unfold bodyCode
    split
    · exact .pure _
    · exact .bind (records_chainCode f _ ctx) fun _ => .bind .read fun _ => .pure _

theorem records_chainCode : ∀ (f : Nat) (i : Nat) (ctx : Context),
    Moves Records ctx (chainCode f i)
  | 0, _, _ => .throw _
  | f + 1, i, ctx => by
    unfold chainCode
    refine .block_bind fun b hb => Records.visit_bind fun s _ => ?_
    refine Records.then_moves ?_ fun _ => ?_
    · -- the block just reached is a statement, or disabled and left out
      split
      · exact Records.visited s _
      · exact records_statementCode f b ctx s _ hb
    · split
      · exact .bind (records_chainCode f _ ctx) fun _ => .pure _
      · exact .pure _

theorem records_statementCode : ∀ (f : Nat) (b : Block) (ctx : Context) (s : Session) (i : Nat),
    ctx.workspace.get? i = some b →
    ctx.workspace.Records s ((statementCode f b).exec ctx { s with seen := i :: s.seen }).2
  | 0, _, _, s, i, _ => Records.visited s i
  | f + 1, b, ctx, s, i, hb => by
    unfold statementCode
    refine Records.then_moves (records_dispatch f b ctx s i hb) fun ⟨_, out⟩ => ?_
    cases out with
    | value => exact .throw _
    | statement => exact .bind .read fun _ => .pure _
    | hoisted => exact .pure _

theorem records_dispatch : ∀ (f : Nat) (b : Block) (ctx : Context) (s : Session) (i : Nat),
    ctx.workspace.get? i = some b →
    ctx.workspace.Records s ((dispatch f b).exec ctx { s with seen := i :: s.seen }).2
  | 0, _, _, s, i, _ => Records.visited s i
  | f + 1, b, ctx, s, i, hb => by
    unfold dispatch
    refine exec_bind_snd _ _ _ (fun _ t h => ?_) fun kind t h => ?_
    · -- an unknown kind: the block was reached, and goes to no rule
      have ht : t = _ := (congrArg Prod.snd h).symm.trans (exec_kindOf_snd _ _ b)
      rw [ht]
      exact Records.visited s i
    · have ht : t = _ := (congrArg Prod.snd h).symm.trans (exec_kindOf_snd _ _ b)
      subst ht
      -- the dispatch is recorded as the block just reached, then the rule records the rest
      rw [exec_bind, exec_emit]
      obtain ⟨_, hlock⟩ := kind.rule_lockstep ⟨valueCode f b, bodyCode f b⟩
        ⟨valueCode f b, bodyCode f b⟩ b
      have hrule : Moves Records ctx
          (withReader (fun c => { c with ancestors := b :: c.ancestors })
            (kind.rule ⟨valueCode f b, bodyCode f b⟩ b) >>= fun out => pure (kind, out)) :=
        .bind (.withReader rfl (Lockstep.moves (fun hm _ => Records.prim hm)
          (fun slot order ctx => records_valueCode f b slot order ctx)
          (fun slot ctx => records_bodyCode f b slot ctx) hlock _)) fun _ => .pure _
      exact SessionOrder.trans (Records.dispatch hb s kind) (hrule _)

end

theorem records_rootCode (f i : Nat) (ctx : Context) : Moves Records ctx (rootCode f i) := by
  unfold rootCode
  refine .block_bind fun b hb => .bind ?_ fun _ => ?_
  · split
    · exact .pure _
    · exact .map _ (.kindOf b)
  · split
    · exact records_chainCode f i ctx
    · -- a value root goes to its rule right after it is reached
      refine Records.visit_bind fun s _ =>
        Records.then_moves (records_dispatch f b ctx s i hb) fun ⟨_, out⟩ => ?_
      cases out with
      | value => exact .bind .read fun _ => .pure _
      | statement => exact .pure _
      | hoisted => exact .pure _

theorem records_program (f : Nat) (w : Workspace) (ctx : Context) :
    Moves Records ctx (program f w) := by
  unfold program body
  refine .bind (.bind (.mapM (fun i => records_rootCode f i ctx) _) fun _ => .pure _) fun _ => ?_
  exact .bind .get fun _ => .bind (Records.emit rfl) fun _ => .pure _

/-- The blocks a whole generation reaches are blocks of the workspace, each reached once. -/
theorem run_marked (w : Workspace) (c : Config) : w.Marked (run w c).2.seen :=
  (grows_program (fuel w) w (context w c) (start w c) ⟨List.nodup_nil, nofun⟩).1

/-- **A generation gives each block to its rule at most once.**  The ids that the events of a
generation record, in order, are those of blocks it reached, in the order it reached them. -/
theorem run_dispatched (w : Workspace) (c : Config) :
    ∃ ps : List Nat, ps.Sublist (run w c).2.seen.reverse ∧
      List.Forall₂ (fun i id => (w.get? i).map Block.id = some id) ps
        (dispatchedIds (run w c).2.events.toList) := by
  obtain ⟨new, ps, ids, hseen, hsub, hall, hids⟩ :=
    records_program (fuel w) w (context w c) (start w c)
  refine ⟨ps, ?_, ?_⟩
  · -- a generation starts with no block reached
    rw [run, hseen]
    simpa [start] using hsub
  · rw [run, hids]
    simpa [start, context, Event.dispatchedId?] using hall

/-- No block is given to its rule twice. -/
theorem run_dispatched_nodup (w : Workspace) (c : Config) :
    ∃ ps : List Nat, ps.Nodup ∧ ps.Sublist (run w c).2.seen.reverse ∧
      List.Forall₂ (fun i id => (w.get? i).map Block.id = some id) ps
        (dispatchedIds (run w c).2.events.toList) := by
  obtain ⟨ps, hsub, hall⟩ := run_dispatched w c
  exact ⟨ps, hsub.nodup (List.nodup_reverse.2 (run_marked w c).nodup), hsub, hall⟩

end Generation

end BlockScribe
