import BlockScribe.Proofs.Generate.Exec
/-!
# What a rule may do

A rule gets the code of its children through `Children` and does everything else through a few
primitive steps (`Prim`): it reads the context, names variables, procedures and temporaries,
registers helpers and procedures, reads choice fields, looks for the loop around it, and
rejects a field.  None of these touches the blocks reached so far; only the children do.

`Lockstep ch₁ ch₂ A m₁ m₂ B` says that two steps are the same program run with two ways of
getting the children's code: they do the same primitive steps and ask for the same slots in the
same order, each slot at most once.  `A` lists the slots read before, `B` bounds the slots read
after.  Every rule is in lockstep with itself for any two `Children`
(`BlockKind.rule_lockstep`, in `BlockScribe.Proofs.Generate.Rules`).

`Lockstep.agree` is what follows: for a family of session properties `P` indexed by the slots
read so far (an `Invariant`), if the two ways of getting the children agree and keep `P`, so do
the two steps.  With equal children this says that a rule keeps an invariant of the generation;
with the children of two amounts of fuel it says that the rule does not notice the fuel.
-/

namespace BlockScribe

/-- A slot of a block: a value input or a statement input, by name. -/
inductive Slot where
  | value (name : String)
  | body (name : String)
  deriving DecidableEq

/-- The primitive steps a rule takes besides asking for its children's code. -/
inductive Prim : {β : Type} → GenM β → Prop
  | read : Prim (read : GenM Context)
  | temporary (base : String) : Prim (GenM.temporary base)
  | variableName (key : String) : Prim (GenM.variableName key)
  | procedureName (key : String) : Prim (GenM.procedureName key)
  | provide (desired : String) (lines : List String) : Prim (GenM.provide desired lines)
  | defineProcedure (name code : String) : Prim (GenM.defineProcedure name code)
  | choose {α : Type} [Inhabited α] (b : Block) (field : String) (options : List (String × α)) :
      Prim (choose b field options)
  | surroundingLoop : Prim GenM.surroundingLoop
  | invalidField {α : Type} (node kind field value : String) :
      Prim (throw (.invalidField node kind field value) : GenM α)

namespace Prim

variable {β : Type} {m : GenM β}

/-- A primitive step leaves the reached blocks as they are. -/
theorem exec_seen (h : Prim m) (ctx : Context) (s : Session) : (m.exec ctx s).2.seen = s.seen := by
  cases h with
  | provide desired lines => rw [GenM.exec_provide]
  | choose b field options =>
    rw [exec_choose]
    split
    · rfl
    · split <;> rfl
  | _ => rfl

/-- A primitive step stops only to reject a field. -/
theorem exec_error (h : Prim m) {ctx : Context} {s : Session} {e : GenerateError}
    (he : (m.exec ctx s).1 = .error e) : ∃ node kind field value, e = .invalidField node kind field value := by
  cases h with
  | provide desired lines =>
    rw [GenM.exec_provide] at he
    rcases s.registry.provide s.names ctx.config.indent desired lines with ⟨_, _, _, _⟩
    cases he
  | choose b field options =>
    rw [exec_choose] at he
    split at he
    · cases he
    · split at he
      · cases he
      · cases he
        exact ⟨_, _, _, _, rfl⟩
  | invalidField node kind field value =>
    cases he
    exact ⟨_, _, _, _, rfl⟩
  | _ => cases he

end Prim

/-- Two steps that run the same program with two ways of getting the children's code, reading
each slot at most once: `A` lists the slots read before them, `B` bounds those read after. -/
inductive Lockstep (ch₁ ch₂ : Children) :
    {α : Type} → List Slot → GenM α → GenM α → List Slot → Prop
  | pure {α : Type} {A B : List Slot} (a : α) (h : A ⊆ B) :
      Lockstep ch₁ ch₂ A (Pure.pure a) (Pure.pure a) B
  | prim {α : Type} {A : List Slot} {m : GenM α} (hm : Prim m) : Lockstep ch₁ ch₂ A m m A
  | value {A : List Slot} (slot : String) (order : Order) (hA : Slot.value slot ∉ A) :
      Lockstep ch₁ ch₂ A (ch₁.value slot order) (ch₂.value slot order) (.value slot :: A)
  | body {A : List Slot} (slot : String) (hA : Slot.body slot ∉ A) :
      Lockstep ch₁ ch₂ A (ch₁.body slot) (ch₂.body slot) (.body slot :: A)
  | bind {α β : Type} {A B C : List Slot} {m₁ m₂ : GenM β} {k₁ k₂ : β → GenM α} :
      Lockstep ch₁ ch₂ A m₁ m₂ B → (∀ x, Lockstep ch₁ ch₂ B (k₁ x) (k₂ x) C) →
      Lockstep ch₁ ch₂ A (m₁ >>= k₁) (m₂ >>= k₂) C
  | scope {α : Type} {A B : List Slot} {m₁ m₂ : GenM α} :
      Lockstep ch₁ ch₂ A m₁ m₂ B →
      Lockstep ch₁ ch₂ A (GenM.inChildScope m₁) (GenM.inChildScope m₂) B
  | mono {α : Type} {A B C : List Slot} {m₁ m₂ : GenM α} :
      Lockstep ch₁ ch₂ A m₁ m₂ B → B ⊆ C → Lockstep ch₁ ch₂ A m₁ m₂ C

namespace Lockstep

variable {ch₁ ch₂ : Children} {α β : Type} {A B : List Slot}

theorem valueOr (slot : String) (order : Order) (d : String) (hA : Slot.value slot ∉ A) :
    Lockstep ch₁ ch₂ A (ch₁.valueOr slot order d) (ch₂.valueOr slot order d) (.value slot :: A) :=
  .bind (.value slot order hA) fun _ => .pure _ (List.Subset.refl _)

theorem ite (c : Prop) [Decidable c] {x₁ x₂ y₁ y₂ : GenM α}
    (hx : c → Lockstep ch₁ ch₂ A x₁ x₂ B) (hy : ¬c → Lockstep ch₁ ch₂ A y₁ y₂ B) :
    Lockstep ch₁ ch₂ A (if c then x₁ else y₁) (if c then x₂ else y₂) B := by
  by_cases h : c
  · simpa [h] using hx h
  · simpa [h] using hy h

theorem map (f : β → α) {m₁ m₂ : GenM β} (h : Lockstep ch₁ ch₂ A m₁ m₂ B) :
    Lockstep ch₁ ch₂ A (f <$> m₁) (f <$> m₂) B := by
  rw [← bind_pure_comp, ← bind_pure_comp]
  exact .bind h fun _ => .pure _ (List.Subset.refl _)

/-- Steps over the elements of a list, each reading slots of its own that were not read before. -/
theorem mapM {γ : Type} (xs : List γ) (reads : γ → List Slot) {f₁ f₂ : γ → GenM α}
    (hf : ∀ x ∈ xs, ∀ A', (∀ t ∈ reads x, t ∉ A') →
      Lockstep ch₁ ch₂ A' (f₁ x) (f₂ x) (reads x ++ A'))
    (hnodup : (xs.flatMap reads).Nodup) (hA : ∀ t ∈ xs.flatMap reads, t ∉ A) :
    Lockstep ch₁ ch₂ A (xs.mapM f₁) (xs.mapM f₂) (xs.flatMap reads ++ A) := by
  induction xs generalizing A with
  | nil => exact .pure _ (List.Subset.refl _)
  | cons x xs ih =>
    simp only [List.flatMap_cons, List.nodup_append, List.mem_append] at hnodup hA
    have hx := hf x List.mem_cons_self A fun t ht => hA t (.inl ht)
    have hxs := ih (fun y hy => hf y (List.mem_cons_of_mem x hy)) hnodup.2.1 (A := reads x ++ A)
      fun t ht hmem => (List.mem_append.1 hmem).elim (hnodup.2.2 t · t ht rfl) (hA t (.inr ht))
    rw [List.mapM_cons, List.mapM_cons]
    refine .bind hx fun _ => .bind hxs fun _ => .pure _ ?_
    intro t ht
    simp only [List.flatMap_cons, List.mem_append] at ht ⊢
    rcases ht with ht | ht | ht <;> simp [ht]

/-- A loop over the elements of a list, each turn reading slots of its own that were not read
before. -/
theorem forIn {σ γ : Type} (xs : List γ) (init : σ) (reads : γ → List Slot)
    {f₁ f₂ : γ → σ → GenM (ForInStep σ)}
    (hf : ∀ x ∈ xs, ∀ r A', (∀ t ∈ reads x, t ∉ A') →
      Lockstep ch₁ ch₂ A' (f₁ x r) (f₂ x r) (reads x ++ A'))
    (hnodup : (xs.flatMap reads).Nodup) (hA : ∀ t ∈ xs.flatMap reads, t ∉ A) :
    Lockstep ch₁ ch₂ A (ForIn.forIn xs init f₁) (ForIn.forIn xs init f₂) (xs.flatMap reads ++ A) := by
  induction xs generalizing A init with
  | nil => exact .pure _ (List.Subset.refl _)
  | cons x xs ih =>
    simp only [List.flatMap_cons, List.nodup_append, List.mem_append] at hnodup hA
    have hx := hf x List.mem_cons_self init A fun t ht => hA t (.inl ht)
    rw [List.forIn_cons, List.forIn_cons]
    refine .bind hx fun step => ?_
    have hsub : reads x ++ A ⊆ (x :: xs).flatMap reads ++ A := by
      intro t ht
      simp only [List.flatMap_cons, List.mem_append] at ht ⊢
      rcases ht with ht | ht <;> simp [ht]
    cases step with
    | done r => exact .pure _ hsub
    | yield r =>
      refine .mono (ih r (fun y hy => hf y (List.mem_cons_of_mem x hy)) hnodup.2.1
        fun t ht hmem => (List.mem_append.1 hmem).elim (hnodup.2.2 t · t ht rfl) (hA t (.inr ht))) ?_
      intro t ht
      simp only [List.flatMap_cons, List.mem_append] at ht ⊢
      rcases ht with ht | ht | ht <;> simp [ht]

end Lockstep

/-- The outcome of a step satisfies `P B` when it is a value, and `E` when it is an error. -/
def Holds {α : Type} (P : List Slot → Context → Session → Prop) (E : GenerateError → Session → Prop)
    (B : List Slot) (ctx : Context) : Except GenerateError α × Session → Prop
  | (.ok _, t) => P B ctx t
  | (.error e, t) => E e t

/-- From every session where `P A` holds, two steps have the same outcome, and it satisfies `P B`
or `E`. -/
def Agree {α : Type} (P : List Slot → Context → Session → Prop) (E : GenerateError → Session → Prop)
    (A B : List Slot) (m₁ m₂ : GenM α) : Prop :=
  ∀ ctx s, P A ctx s → m₁.exec ctx s = m₂.exec ctx s ∧ Holds P E B ctx (m₁.exec ctx s)

/-- A family of session properties, indexed by the slots read so far, that two ways of getting the
children's code keep alike and that every primitive step keeps. -/
structure Invariant (ch₁ ch₂ : Children) where
  /-- The property, once some slots are read. -/
  P : List Slot → Context → Session → Prop
  /-- What holds of a step that stops with an error, and of the session it leaves. -/
  E : GenerateError → Session → Prop
  mono : ∀ {A B ctx s}, A ⊆ B → P A ctx s → P B ctx s
  prim : ∀ {β : Type} {m : GenM β}, Prim m → ∀ {A ctx s}, P A ctx s → Holds P E A ctx (m.exec ctx s)
  value : ∀ {A} (slot : String) (order : Order), Slot.value slot ∉ A →
    Agree P E A (.value slot :: A) (ch₁.value slot order) (ch₂.value slot order)
  body : ∀ {A} (slot : String), Slot.body slot ∉ A →
    Agree P E A (.body slot :: A) (ch₁.body slot) (ch₂.body slot)
  /-- Opening a child scope and making it current keeps the property. -/
  enter : ∀ {A ctx s}, P A ctx s →
    P A { ctx with scope := (s.names.openScope ctx.scope).1 }
      { s with names := (s.names.openScope ctx.scope).2 }
  /-- Leaving a child scope keeps the property. -/
  leave : ∀ {A B ctx s t}, P A ctx s →
    P B { ctx with scope := (s.names.openScope ctx.scope).1 } t → P B ctx t

/-- **Steps in lockstep agree.**  Two steps that run one program with two ways of getting the
children's code have the same outcome from every session where the invariant holds, and keep
it, as long as the two ways of getting the children's code do. -/
theorem Lockstep.agree {ch₁ ch₂ : Children} (I : Invariant ch₁ ch₂) {α : Type} {A B : List Slot}
    {m₁ m₂ : GenM α} (h : Lockstep ch₁ ch₂ A m₁ m₂ B) : Agree I.P I.E A B m₁ m₂ := by
  induction h with
  | pure a hsub => exact fun ctx s hs => ⟨rfl, I.mono hsub hs⟩
  | prim hm => exact fun ctx s hs => ⟨rfl, I.prim hm hs⟩
  | value slot order hA => exact I.value slot order hA
  | body slot hA => exact I.body slot hA
  | @bind _ _ _ _ _ m₁ _ _ _ _ _ ih₁ ih₂ =>
    intro ctx s hs
    obtain ⟨heq, hholds⟩ := ih₁ ctx s hs
    rw [GenM.exec_bind, GenM.exec_bind, ← heq]
    rcases hrun : m₁.exec ctx s with ⟨_ | x, t⟩
    · rw [hrun] at hholds
      exact ⟨rfl, hholds⟩
    · rw [hrun] at hholds
      exact ih₂ x ctx t hholds
  | @scope _ _ _ m₁ _ _ ih =>
    intro ctx s hs
    simp only [GenM.exec_inChildScope]
    obtain ⟨heq, hholds⟩ := ih _ _ (I.enter hs)
    refine ⟨heq, ?_⟩
    revert hholds
    rcases m₁.exec _ _ with ⟨_ | _, t⟩
    · exact id
    · exact I.leave hs
  | @mono _ _ _ _ m₁ _ _ hsub ih =>
    intro ctx s hs
    obtain ⟨heq, hholds⟩ := ih ctx s hs
    refine ⟨heq, ?_⟩
    revert hholds
    rcases m₁.exec ctx s with ⟨_ | _, t⟩
    · exact id
    · exact I.mono hsub

end BlockScribe
