import BlockScribe.Generate.Traverse
/-!
# Running a step of generation

`GenM.exec m ctx s` runs a step `m` in a context `ctx` from a session `s`: its outcome (a value,
or the error it stopped with) and the session after it.  A bound step runs its second part from
the session the first part left, unless the first part stopped (`GenM.exec_bind`).

Every step of the generator is built from a handful of primitives.  Each has an equation here
that says what it returns and which parts of the session it changes, so that later proofs take a
primitive apart by rewriting and never unfold it: marking a block reached is the only primitive
that touches the reached blocks (`GenM.exec_visit`), naming goes through the name table, helpers
and procedures through the registry, and every other primitive leaves the session as it is.
-/

namespace BlockScribe

namespace GenM

section Monad

variable {α β : Type} (ctx : Context) (s : Session)

@[simp] theorem exec_pure (a : α) : (pure a : GenM α).exec ctx s = (.ok a, s) := rfl

@[simp] theorem exec_throw (e : GenerateError) : (throw e : GenM α).exec ctx s = (.error e, s) :=
  rfl

@[simp] theorem exec_read : (read : GenM Context).exec ctx s = (.ok ctx, s) := rfl

@[simp] theorem exec_get : (get : GenM Session).exec ctx s = (.ok s, s) := rfl

@[simp] theorem exec_set (t : Session) : (set t : GenM PUnit).exec ctx s = (.ok ⟨⟩, t) := rfl

@[simp] theorem exec_modifyGet (f : Session → α × Session) :
    (modifyGet f : GenM α).exec ctx s = (.ok (f s).1, (f s).2) := rfl

@[simp] theorem exec_withReader (f : Context → Context) (m : GenM α) :
    (withReader f m).exec ctx s = m.exec (f ctx) s := rfl

theorem exec_bind (m : GenM β) (k : β → GenM α) :
    (m >>= k).exec ctx s = match m.exec ctx s with
      | (.ok a, t) => (k a).exec ctx t
      | (.error e, t) => (.error e, t) := by
  simp only [exec, bind, ReaderT.run, ReaderT.bind, ExceptT.run, ExceptT.bind, ExceptT.mk,
    StateT.run, StateT.bind, ExceptT.bindCont]
  rcases m ctx s with ⟨_ | _, t⟩ <;> rfl

/-- Two binds have the same outcome when their first steps do, and so do their continuations
after every value and session the first step can end with. -/
theorem exec_bind_congr {m₁ m₂ : GenM β} {k₁ k₂ : β → GenM α} (hm : m₁.exec ctx s = m₂.exec ctx s)
    (hk : ∀ b t, m₁.exec ctx s = (.ok b, t) → (k₁ b).exec ctx t = (k₂ b).exec ctx t) :
    (m₁ >>= k₁).exec ctx s = (m₂ >>= k₂).exec ctx s := by
  rw [exec_bind, exec_bind, ← hm]
  rcases hrun : m₁.exec ctx s with ⟨_ | b, t⟩
  · rfl
  · exact hk b t hrun

/-- What holds of the session a bind ends with: it holds of the session its first step stops
with on an error, and of the session every continuation ends with. -/
theorem exec_bind_snd (Φ : Session → Prop) {m : GenM β} {k : β → GenM α}
    (hm : ∀ e t, m.exec ctx s = (.error e, t) → Φ t)
    (hk : ∀ b t, m.exec ctx s = (.ok b, t) → Φ ((k b).exec ctx t).2) :
    Φ ((m >>= k).exec ctx s).2 := by
  rw [exec_bind]
  rcases hrun : m.exec ctx s with ⟨_ | b, t⟩
  · exact hm _ t hrun
  · exact hk b t hrun

theorem exec_map (f : β → α) (m : GenM β) :
    (f <$> m).exec ctx s = match m.exec ctx s with
      | (.ok a, t) => (.ok (f a), t)
      | (.error e, t) => (.error e, t) := by
  rw [← bind_pure_comp, exec_bind]
  rcases m.exec ctx s with ⟨_ | _, t⟩ <;> rfl

end Monad

section Primitives

variable {α : Type} (ctx : Context) (s : Session)

@[simp] theorem exec_emit (e : Event) :
    (emit e).exec ctx s = (.ok ⟨⟩, { s with events := s.events.push e }) := rfl

@[simp] theorem exec_variableName (key : String) :
    (variableName key).exec ctx s =
      (.ok (s.names.nameFor key .variable NameTable.global).1,
        { s with names := (s.names.nameFor key .variable NameTable.global).2 }) := rfl

@[simp] theorem exec_procedureName (key : String) :
    (procedureName key).exec ctx s =
      (.ok (s.names.nameFor key .procedure NameTable.global).1,
        { s with names := (s.names.nameFor key .procedure NameTable.global).2 }) := rfl

@[simp] theorem exec_temporary (base : String) :
    (temporary base).exec ctx s =
      (.ok (s.names.distinct base ctx.scope).1,
        { s with names := (s.names.distinct base ctx.scope).2 }) := rfl

/-- A child scope is opened inside the current one, and the step runs with it as the scope of
its temporaries; the scope of the context around it is untouched. -/
theorem exec_inChildScope (m : GenM α) :
    (inChildScope m).exec ctx s =
      m.exec { ctx with scope := (s.names.openScope ctx.scope).1 }
        { s with names := (s.names.openScope ctx.scope).2 } := rfl

theorem exec_provide (desired : String) (lines : List String) :
    (provide desired lines).exec ctx s =
      match s.registry.provide s.names ctx.config.indent desired lines with
      | (name, registry, names, fresh) =>
        (.ok name, { s with
          registry := registry
          names := names
          events := if fresh then s.events.push (.helperRegistered desired name) else s.events }) := by
  unfold provide
  simp only [exec_bind, exec_read, exec_get]
  rcases s.registry.provide s.names ctx.config.indent desired lines with
    ⟨name, registry, names, fresh⟩
  cases fresh <;> rfl

@[simp] theorem exec_defineProcedure (name code : String) :
    (defineProcedure name code).exec ctx s =
      (.ok ⟨⟩, { s with
        registry := (s.registry.defineProcedure name code).1
        events := s.events.push (.procedureDefined name (s.registry.defineProcedure name code).2) }) :=
  rfl

/-- Marking a block reached fails, naming it, exactly when it was reached before. -/
theorem exec_visit (i : Nat) (b : Block) :
    (visit i b).exec ctx s =
      if i ∈ s.seen then (.error (.malformedLinkage b.id), s)
      else (.ok ⟨⟩, { s with seen := i :: s.seen }) := by
  unfold visit
  by_cases h : i ∈ s.seen <;> simp [exec_bind, h]

theorem exec_block (i : Nat) :
    (block i).exec ctx s =
      match ctx.workspace.get? i with
      | some b => (.ok b, s)
      | none => (.error (.missingNode i), s) := by
  unfold block
  simp only [exec_bind, exec_read]
  cases ctx.workspace.get? i <;> rfl

@[simp] theorem exec_block_snd (i : Nat) : ((block i).exec ctx s).2 = s := by
  rw [exec_block]
  split <;> rfl

theorem exec_kindOf (b : Block) :
    (kindOf b).exec ctx s =
      match BlockKind.ofName? b.kind with
      | some k => (.ok k, s)
      | none => (.error (.unknownKind b.id b.kind), s) := by
  unfold kindOf
  cases BlockKind.ofName? b.kind <;> rfl

@[simp] theorem exec_kindOf_snd (b : Block) : ((kindOf b).exec ctx s).2 = s := by
  rw [exec_kindOf]
  split <;> rfl

@[simp] theorem exec_surroundingLoop :
    surroundingLoop.exec ctx s =
      (.ok ((ctx.ancestors.drop 1).find? fun b =>
        match BlockKind.ofName? b.kind with
        | some k => k.isLoop
        | none => false), s) := rfl

end Primitives

section Inversion

variable {ctx : Context} {s : Session}

theorem exec_visit_eq_ok {i : Nat} {b : Block} {u : Unit} {t : Session} :
    (visit i b).exec ctx s = (.ok u, t) ↔ i ∉ s.seen ∧ t = { s with seen := i :: s.seen } := by
  rw [exec_visit]
  by_cases h : i ∈ s.seen <;> simp [h, eq_comm]

theorem exec_block_eq_ok {i : Nat} {b : Block} {t : Session} :
    (block i).exec ctx s = (.ok b, t) ↔ ctx.workspace.get? i = some b ∧ t = s := by
  rw [exec_block]
  cases ctx.workspace.get? i <;> simp [eq_comm]

theorem exec_kindOf_eq_ok {b : Block} {k : BlockKind} {t : Session} :
    (kindOf b).exec ctx s = (.ok k, t) ↔ BlockKind.ofName? b.kind = some k ∧ t = s := by
  rw [exec_kindOf]
  cases BlockKind.ofName? b.kind <;> simp [eq_comm]

end Inversion

end GenM

/-- A choice field's option, or the error naming the field when it holds none of them. -/
theorem exec_choose {α : Type} [Inhabited α] (b : Block) (field : String)
    (options : List (String × α)) (ctx : Context) (s : Session) :
    (choose b field options).exec ctx s =
      match b.field? field with
      | none => (.ok ((options.head?.map (·.2)).getD default), s)
      | some v =>
        match options.find? (·.1 == v) with
        | some (_, a) => (.ok a, s)
        | none => (.error (.invalidField b.id b.kind field v), s) := by
  unfold choose
  cases b.field? field with
  | none => rfl
  | some v =>
    dsimp only
    cases options.find? (·.1 == v) <;> rfl

end BlockScribe
