import BlockScribe.Proofs.Generate.Rules
import BlockScribe.Proofs.Generate.IndentUnit
/-!
# Names given to keys stay inline

The names a table has given its keys are inline (`NameTable.KeysInline`): not empty, with no
blank at the start of a line and no line break.  A generation starts with such a table (its
variables are named before anything else), and every step keeps it so, whatever its outcome
(`GenM.KeepsKeysInline`): naming a key records a fresh name, which is inline; a temporary or a
helper takes a name for no key; a child scope opens with no keys.  A rule keeps the names
inline where its children do (`Lockstep.keepsKeysInline`), and the functions of the traversal
do by induction on the fuel (`Generation.keepsKeysInline_dispatch` and its companions).

So every session a generation passes through has its keys' names inline, down to the last one
(`Generation.keysInline_run`).  This is what makes the code of a variable block nonempty.
-/

namespace BlockScribe

namespace GenM

/-- A step that keeps every name the table has given a key inline, whatever its outcome. -/
def KeepsKeysInline {α : Type} (m : GenM α) : Prop :=
  ∀ ctx s, s.names.KeysInline → (m.exec ctx s).2.names.KeysInline

namespace KeepsKeysInline

variable {α β : Type}

/-- A step that leaves the table as it is. -/
theorem of_names {m : GenM α} (h : ∀ ctx s, (m.exec ctx s).2.names = s.names) :
    KeepsKeysInline m := fun ctx s hs => by
  rw [h ctx s]
  exact hs

theorem pure (a : α) : KeepsKeysInline (Pure.pure a : GenM α) := of_names fun _ _ => rfl

theorem throw (e : GenerateError) : KeepsKeysInline (MonadExcept.throw e : GenM α) :=
  of_names fun _ _ => rfl

theorem read : KeepsKeysInline (read : GenM Context) := of_names fun _ _ => rfl

theorem get : KeepsKeysInline (get : GenM Session) := of_names fun _ _ => rfl

theorem emit (e : Event) : KeepsKeysInline (emit e) := of_names fun _ _ => rfl

theorem kindOf (b : Block) : KeepsKeysInline (kindOf b) :=
  of_names fun ctx s => by rw [exec_kindOf_snd]

theorem block (i : Nat) : KeepsKeysInline (block i) :=
  of_names fun ctx s => by rw [exec_block_snd]

theorem visit (i : Nat) (b : Block) : KeepsKeysInline (visit i b) :=
  of_names fun ctx s => by
    rw [exec_visit]
    split <;> rfl

theorem bind {m : GenM β} {k : β → GenM α} (hm : KeepsKeysInline m)
    (hk : ∀ x, KeepsKeysInline (k x)) : KeepsKeysInline (m >>= k) := by
  intro ctx s hs
  have hfirst := hm ctx s hs
  refine exec_bind_snd ctx s (fun t => t.names.KeysInline) (fun e t h => ?_) fun x t h => ?_
  · rw [h] at hfirst
    exact hfirst
  · rw [h] at hfirst
    exact hk x ctx t hfirst

theorem map {m : GenM β} (f : β → α) (hm : KeepsKeysInline m) : KeepsKeysInline (f <$> m) := by
  rw [← bind_pure_comp]
  exact .bind hm fun _ => .pure _

theorem mapM {γ : Type} {f : γ → GenM α} (hf : ∀ x, KeepsKeysInline (f x)) :
    ∀ xs : List γ, KeepsKeysInline (xs.mapM f)
  | [] => .pure _
  | x :: xs => by
    rw [List.mapM_cons]
    exact .bind (hf x) fun _ => .bind (mapM hf xs) fun _ => .pure _

theorem withReader {f : Context → Context} {m : GenM α} (hm : KeepsKeysInline m) :
    KeepsKeysInline (withReader f m) := fun ctx s hs => by
  rw [exec_withReader]
  exact hm (f ctx) s hs

/-- A child scope opens with no keys. -/
theorem inChildScope {m : GenM α} (hm : KeepsKeysInline m) : KeepsKeysInline (inChildScope m) :=
  fun ctx s hs => by
    rw [exec_inChildScope]
    exact hm _ _ (hs.openScope _)

/-! Naming: a key gets an inline name; a temporary or a helper takes a name for no key. -/

theorem temporary (base : String) : KeepsKeysInline (temporary base) := fun ctx s hs => by
  rw [exec_temporary]
  exact hs.take _ _

theorem variableName (key : String) : KeepsKeysInline (variableName key) := fun ctx s hs => by
  rw [exec_variableName]
  exact (hs.nameFor _ _ _).2

theorem procedureName (key : String) : KeepsKeysInline (procedureName key) := fun ctx s hs => by
  rw [exec_procedureName]
  exact (hs.nameFor _ _ _).2

theorem provide (desired : String) (lines : List String) : KeepsKeysInline (provide desired lines) :=
  fun ctx s hs => by
    rw [exec_provide]
    unfold Registry.provide
    rcases s.registry.find? (.helper desired) with _ | d
    · exact hs.take _ _
    · exact hs

theorem defineProcedure (name code : String) : KeepsKeysInline (defineProcedure name code) :=
  of_names fun _ _ => rfl

theorem prim {m : GenM α} (hm : Prim m) : KeepsKeysInline m := by
  cases hm with
  | read => exact .read
  | temporary base => exact .temporary base
  | variableName key => exact .variableName key
  | procedureName key => exact .procedureName key
  | provide desired lines => exact .provide desired lines
  | defineProcedure name code => exact .defineProcedure name code
  | choose b field options =>
    refine of_names fun ctx s => ?_
    rw [exec_choose]
    split
    · rfl
    · split <;> rfl
  | surroundingLoop => exact of_names fun _ _ => rfl
  | invalidField node kind field value => exact .throw _

/-- The outcome of a step that keeps the names inline, as `Lockstep.agree` reads it. -/
theorem holds {m : GenM α} (hm : KeepsKeysInline m) {ctx : Context} {s : Session}
    (hs : s.names.KeysInline) (B : List Slot) :
    Holds (fun _ _ t => t.names.KeysInline) (fun _ t => t.names.KeysInline) B ctx (m.exec ctx s) := by
  have h := hm ctx s hs
  revert h
  rcases m.exec ctx s with ⟨_ | _, t⟩ <;> exact id

end KeepsKeysInline

end GenM

open GenM

/-- **A rule keeps the names of keys inline where its children do.** -/
theorem Lockstep.keepsKeysInline {ch : Children} {α : Type} {A B : List Slot} {m₁ m₂ : GenM α}
    (h : Lockstep ch ch A m₁ m₂ B) (hv : ∀ slot order, KeepsKeysInline (ch.value slot order))
    (hb : ∀ slot, KeepsKeysInline (ch.body slot)) : KeepsKeysInline m₁ := by
  let I : Invariant ch ch :=
    { P := fun _ _ s => s.names.KeysInline
      E := fun _ s => s.names.KeysInline
      mono := fun _ hs => hs
      prim := @fun _ _ hm _ _ _ hs => (KeepsKeysInline.prim hm).holds hs _
      value := fun slot order _ _ _ hs => ⟨rfl, (hv slot order).holds hs _⟩
      body := fun slot _ _ _ hs => ⟨rfl, (hb slot).holds hs _⟩
      enter := fun hs => hs.openScope _
      leave := fun _ hs => hs }
  intro ctx s hs
  have hholds := (h.agree I ctx s hs).2
  revert hholds
  rcases m₁.exec ctx s with ⟨_ | _, t⟩ <;> exact id

namespace Generation

mutual

theorem keepsKeysInline_valueCode : ∀ (f : Nat) (parent : Block) (slot : String) (outer : Order),
    KeepsKeysInline (valueCode f parent slot outer)
  | 0, _, _, _ => .throw _
  | f + 1, parent, slot, outer => by
    unfold valueCode
    split
    · exact .pure _
    · refine .bind (.block _) fun b => .bind (.visit _ b) fun _ => ?_
      split
      · exact .pure _
      · refine .bind (keepsKeysInline_dispatch f b) fun p => ?_
        obtain ⟨_, out⟩ := p
        cases out with
        | value => exact .pure _
        | statement => exact .throw _
        | hoisted => exact .pure _

theorem keepsKeysInline_bodyCode : ∀ (f : Nat) (parent : Block) (slot : String),
    KeepsKeysInline (bodyCode f parent slot)
  | 0, _, _ => .throw _
  | f + 1, parent, slot => by
    unfold bodyCode
    split
    · exact .pure _
    · exact .bind (keepsKeysInline_chainCode f _) fun _ => .bind .read fun _ => .pure _

theorem keepsKeysInline_chainCode : ∀ (f : Nat) (i : Nat), KeepsKeysInline (chainCode f i)
  | 0, _ => .throw _
  | f + 1, i => by
    unfold chainCode
    refine .bind (.block i) fun b => .bind (.visit i b) fun _ => ?_
    refine .bind (?_ : KeepsKeysInline (if b.disabled then _ else _)) fun _ => ?_
    · split
      · exact .pure _
      · exact keepsKeysInline_statementCode f b
    · split
      · exact .bind (keepsKeysInline_chainCode f _) fun _ => .pure _
      · exact .pure _

theorem keepsKeysInline_statementCode : ∀ (f : Nat) (b : Block),
    KeepsKeysInline (statementCode f b)
  | 0, _ => .throw _
  | f + 1, b => by
    unfold statementCode
    refine .bind (keepsKeysInline_dispatch f b) fun p => ?_
    obtain ⟨_, out⟩ := p
    cases out with
    | value => exact .throw _
    | statement => exact .bind .read fun _ => .pure _
    | hoisted => exact .pure _

theorem keepsKeysInline_dispatch : ∀ (f : Nat) (b : Block), KeepsKeysInline (dispatch f b)
  | 0, _ => .throw _
  | f + 1, b => by
    unfold dispatch
    refine .bind (.kindOf b) fun kind => .bind (.emit _) fun _ => .bind ?_ fun _ => .pure _
    obtain ⟨_, hlock⟩ :=
      kind.rule_lockstep ⟨valueCode f b, bodyCode f b⟩ ⟨valueCode f b, bodyCode f b⟩ b
    exact .withReader (hlock.keepsKeysInline (keepsKeysInline_valueCode f b)
      (keepsKeysInline_bodyCode f b))

end

theorem keepsKeysInline_rootCode (f i : Nat) : KeepsKeysInline (rootCode f i) := by
  unfold rootCode
  refine .bind (.block i) fun b => .bind ?_ fun _ => ?_
  · split
    · exact .pure _
    · exact .map _ (.kindOf b)
  · split
    · exact keepsKeysInline_chainCode f i
    · refine .bind (.visit i b) fun _ => .bind (keepsKeysInline_dispatch f b) fun p => ?_
      obtain ⟨_, out⟩ := p
      cases out with
      | value => exact .bind .read fun _ => .pure _
      | statement => exact .pure _
      | hoisted => exact .pure _

theorem keepsKeysInline_program (f : Nat) (w : Workspace) : KeepsKeysInline (program f w) := by
  unfold program body
  refine .bind (.bind (.mapM (keepsKeysInline_rootCode f) w.roots) fun _ => .pure _) fun _ => ?_
  exact .bind .get fun _ => .bind (.emit _) fun _ => .pure _

/-- A generation starts with the workspace's variables named, each by an inline name. -/
theorem keysInline_start (w : Workspace) (c : Config) : (start w c).names.KeysInline :=
  (start_reindented (u := "  ") w c).keys_inline

/-- **The names of keys are inline in the session a generation ends with**, whatever its
outcome, and so in every session it passes through. -/
theorem keysInline_run (w : Workspace) (c : Config) : (run w c).2.names.KeysInline :=
  keepsKeysInline_program (fuel w) w (context w c) (start w c) (keysInline_start w c)

end Generation

end BlockScribe
