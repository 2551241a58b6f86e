import BlockScribe.Proofs.Generate.Rules
/-!
# Invariants of the sessions of a generation

Many facts about the sessions of a generation depend only on the name table and the registry,
and are kept by every primitive step of a rule and by opening a scope (`SessionInvariant`).
Such a fact stays true whatever a generation does from a session where it holds, whatever the
outcome (`GenM.Keeps`): the steps that change neither the table nor the registry keep it because
it depends on nothing else, the primitive steps and the child scopes by assumption, a rule
because it is made of those (`Lockstep.keeps`), and the functions of the traversal by induction
on the fuel (`Generation.keeps_dispatch` and its companions, down to `Generation.keeps_program`).

So each such fact needs only its own lemmas about the primitives: the traversal is taken apart
once, here.
-/

namespace BlockScribe

/-- A property of sessions that only their name table and registry decide, kept by every
primitive step of a rule and by opening a scope. -/
structure SessionInvariant where
  P : Session → Prop
  congr : ∀ {s t : Session}, t.names = s.names → t.registry = s.registry → P s → P t
  prim : ∀ {β : Type} {m : GenM β}, Prim m → ∀ ctx s, P s → P (m.exec ctx s).2
  openScope : ∀ s p, P s → P { s with names := (s.names.openScope p).2 }

namespace GenM

/-- A step that keeps an invariant: from every session where it holds it ends in such a
session, whatever its outcome. -/
def Keeps (I : SessionInvariant) {α : Type} (m : GenM α) : Prop :=
  ∀ ctx s, I.P s → I.P (m.exec ctx s).2

namespace Keeps

variable {I : SessionInvariant} {α β : Type}

/-- A step that leaves the table and the registry as they are. -/
theorem of_state {m : GenM α}
    (h : ∀ ctx s, (m.exec ctx s).2.names = s.names ∧ (m.exec ctx s).2.registry = s.registry) :
    Keeps I m := fun ctx s hs => I.congr (h ctx s).1 (h ctx s).2 hs

theorem pure (a : α) : Keeps I (Pure.pure a : GenM α) := of_state fun _ _ => ⟨rfl, rfl⟩

theorem throw (e : GenerateError) : Keeps I (MonadExcept.throw e : GenM α) :=
  of_state fun _ _ => ⟨rfl, rfl⟩

theorem read : Keeps I (read : GenM Context) := of_state fun _ _ => ⟨rfl, rfl⟩

theorem get : Keeps I (get : GenM Session) := of_state fun _ _ => ⟨rfl, rfl⟩

theorem emit (e : Event) : Keeps I (emit e) := of_state fun _ _ => ⟨rfl, rfl⟩

theorem kindOf (b : Block) : Keeps I (kindOf b) :=
  of_state fun ctx s => by rw [exec_kindOf_snd]; exact ⟨rfl, rfl⟩

theorem block (i : Nat) : Keeps I (block i) :=
  of_state fun ctx s => by rw [exec_block_snd]; exact ⟨rfl, rfl⟩

theorem visit (i : Nat) (b : Block) : Keeps I (visit i b) :=
  of_state fun ctx s => by
    rw [exec_visit]
    split <;> exact ⟨rfl, rfl⟩

theorem bind {m : GenM β} {k : β → GenM α} (hm : Keeps I m) (hk : ∀ x, Keeps I (k x)) :
    Keeps I (m >>= k) := by
  intro ctx s hs
  have hfirst := hm ctx s hs
  refine exec_bind_snd ctx s I.P (fun e t h => ?_) fun x t h => ?_
  · rw [h] at hfirst
    exact hfirst
  · rw [h] at hfirst
    exact hk x ctx t hfirst

theorem map {m : GenM β} (f : β → α) (hm : Keeps I m) : Keeps I (f <$> m) := by
  rw [← bind_pure_comp]
  exact .bind hm fun _ => .pure _

theorem mapM {γ : Type} {f : γ → GenM α} (hf : ∀ x, Keeps I (f x)) :
    ∀ xs : List γ, Keeps I (xs.mapM f)
  | [] => .pure _
  | x :: xs => by
    rw [List.mapM_cons]
    exact .bind (hf x) fun _ => .bind (mapM hf xs) fun _ => .pure _

theorem withReader {f : Context → Context} {m : GenM α} (hm : Keeps I m) :
    Keeps I (withReader f m) := fun ctx s hs => by
  rw [exec_withReader]
  exact hm (f ctx) s hs

theorem inChildScope {m : GenM α} (hm : Keeps I m) : Keeps I (inChildScope m) :=
  fun ctx s hs => by
    rw [exec_inChildScope]
    exact hm _ _ (I.openScope s ctx.scope hs)

theorem prim {m : GenM α} (hm : Prim m) : Keeps I m := I.prim hm

/-- The outcome of a step that keeps an invariant, as `Lockstep.agree` reads it. -/
theorem holds {m : GenM α} (hm : Keeps I m) {ctx : Context} {s : Session} (hs : I.P s)
    (B : List Slot) :
    Holds (fun _ _ t => I.P t) (fun _ t => I.P t) B ctx (m.exec ctx s) := by
  have h := hm ctx s hs
  revert h
  rcases m.exec ctx s with ⟨_ | _, t⟩ <;> exact id

end Keeps

end GenM

open GenM

/-- **A rule keeps an invariant where its children do.** -/
theorem Lockstep.keeps {I : SessionInvariant} {ch : Children} {α : Type} {A B : List Slot}
    {m₁ m₂ : GenM α} (h : Lockstep ch ch A m₁ m₂ B) (hv : ∀ slot order, Keeps I (ch.value slot order))
    (hb : ∀ slot, Keeps I (ch.body slot)) : Keeps I m₁ := by
  let J : Invariant ch ch :=
    { P := fun _ _ s => I.P s
      E := fun _ s => I.P s
      mono := fun _ hs => hs
      prim := @fun _ _ hm _ _ _ hs => (Keeps.prim hm).holds hs _
      value := fun slot order _ _ _ hs => ⟨rfl, (hv slot order).holds hs _⟩
      body := fun slot _ _ _ hs => ⟨rfl, (hb slot).holds hs _⟩
      enter := fun hs => I.openScope _ _ hs
      leave := fun _ hs => hs }
  intro ctx s hs
  have hholds := (h.agree J ctx s hs).2
  revert hholds
  rcases m₁.exec ctx s with ⟨_ | _, t⟩ <;> exact id

namespace Generation

variable {I : SessionInvariant}

mutual

theorem keeps_valueCode : ∀ (f : Nat) (parent : Block) (slot : String) (outer : Order),
    Keeps I (valueCode f parent slot outer)
  | 0, _, _, _ => .throw _
  | f + 1, parent, slot, outer => by
    unfold valueCode
    split
    · exact .pure _
    · refine .bind (.block _) fun b => .bind (.visit _ b) fun _ => ?_
      split
      · exact .pure _
      · refine .bind (keeps_dispatch f b) fun p => ?_
        obtain ⟨_, out⟩ := p
        cases out with
        | value => exact .pure _
        | statement => exact .throw _
        | hoisted => exact .pure _

theorem keeps_bodyCode : ∀ (f : Nat) (parent : Block) (slot : String),
    Keeps I (bodyCode f parent slot)
  | 0, _, _ => .throw _
  | f + 1, parent, slot => by
    unfold bodyCode
    split
    · exact .pure _
    · exact .bind (keeps_chainCode f _) fun _ => .bind .read fun _ => .pure _

theorem keeps_chainCode : ∀ (f : Nat) (i : Nat), Keeps I (chainCode f i)
  | 0, _ => .throw _
  | f + 1, i => by
    unfold chainCode
    refine .bind (.block i) fun b => .bind (.visit i b) fun _ => ?_
    refine .bind (?_ : Keeps I (if b.disabled then _ else _)) fun _ => ?_
    · split
      · exact .pure _
      · exact keeps_statementCode f b
    · split
      · exact .bind (keeps_chainCode f _) fun _ => .pure _
      · exact .pure _

theorem keeps_statementCode : ∀ (f : Nat) (b : Block), Keeps I (statementCode f b)
  | 0, _ => .throw _
  | f + 1, b => by
    unfold statementCode
    refine .bind (keeps_dispatch f b) fun p => ?_
    obtain ⟨_, out⟩ := p
    cases out with
    | value => exact .throw _
    | statement => exact .bind .read fun _ => .pure _
    | hoisted => exact .pure _

theorem keeps_dispatch : ∀ (f : Nat) (b : Block), Keeps I (dispatch f b)
  | 0, _ => .throw _
  | f + 1, b => by
    unfold dispatch
    refine .bind (.kindOf b) fun kind => .bind (.emit _) fun _ => .bind ?_ fun _ => .pure _
    obtain ⟨_, hlock⟩ :=
      kind.rule_lockstep ⟨valueCode f b, bodyCode f b⟩ ⟨valueCode f b, bodyCode f b⟩ b
    exact .withReader (hlock.keeps (keeps_valueCode f b) (keeps_bodyCode f b))

end

theorem keeps_rootCode (f i : Nat) : Keeps I (rootCode f i) := by
  unfold rootCode
  refine .bind (.block i) fun b => .bind ?_ fun _ => ?_
  · split
    · exact .pure _
    · exact .map _ (.kindOf b)
  · split
    · exact keeps_chainCode f i
    · refine .bind (.visit i b) fun _ => .bind (keeps_dispatch f b) fun p => ?_
      obtain ⟨_, out⟩ := p
      cases out with
      | value => exact .bind .read fun _ => .pure _
      | statement => exact .pure _
      | hoisted => exact .pure _

/-- **A whole generation keeps every invariant of its sessions**, whatever its outcome. -/
theorem keeps_program (f : Nat) (w : Workspace) : Keeps I (program f w) := by
  unfold program body
  refine .bind (.bind (.mapM (keeps_rootCode f) w.roots) fun _ => .pure _) fun _ => ?_
  exact .bind .get fun _ => .bind (.emit _) fun _ => .pure _

end Generation

end BlockScribe
