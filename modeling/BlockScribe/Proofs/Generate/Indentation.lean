import BlockScribe.Proofs.Text.Tidy
import BlockScribe.Proofs.Text.Inline
import BlockScribe.Proofs.Naming.Registry
/-!
# Two generations that differ in their unit of indentation

The unit of indentation is read in few places: where a body is indented (`bodyCode`,
`Text.prefixLines`), where instrumentation is indented around loop bodies and early exits
(`Config.addLoopTrap`, `Config.earlyExitSuffix`), where a rule writes a line of its own one level
in, and where a helper's lines are re-indented as it is registered (`Registry.provide`).

A step is run twice (`Reindents`): in a context that indents by two spaces, and in the same
context indenting by `u`, from sessions alike (`SessionsReindented`): the same names and reached
blocks, and the same definitions, whose codes in the second run are those of the first
re-indented to `u` (`Registry.reindented`).  The two runs stop with the same error or end in
sessions alike with related values.  Each primitive step runs alike in both (`Reindents.block`,
`Reindents.provide`, …), and binds of steps that run alike run alike (`Reindents.bind`).

The contexts in which this holds are `Context.Reindentable`: each instrumentation snippet that is
set starts no line with a space and ends its last line (`Config.SnippetsFlush`), and the id and
field values of every block start no line with a space (`Block.TextFlush`).  Since snippets
are statements, both runs place them alike (`Config.reindented_addLoopTrap`,
`Config.reindented_wrapStatement`).
-/

namespace BlockScribe

/-- The context with another unit of indentation. -/
def Context.withIndent (ctx : Context) (u : String) : Context :=
  { ctx with config := { ctx.config with indent := u } }

namespace Context

variable (ctx : Context) (u : String)

@[simp] theorem withIndent_workspace : (ctx.withIndent u).workspace = ctx.workspace := rfl

@[simp] theorem withIndent_oneBased : (ctx.withIndent u).oneBased = ctx.oneBased := rfl

@[simp] theorem withIndent_scope : (ctx.withIndent u).scope = ctx.scope := rfl

@[simp] theorem withIndent_ancestors : (ctx.withIndent u).ancestors = ctx.ancestors := rfl

@[simp] theorem withIndent_reach : (ctx.withIndent u).reach = ctx.reach := rfl

@[simp] theorem withIndent_config : (ctx.withIndent u).config = { ctx.config with indent := u } := rfl

theorem withIndent_indent : (ctx.withIndent u).config.indent = u := rfl

end Context

/-- Each instrumentation snippet that is set starts no line with a space and ends its last line. -/
structure Config.SnippetsFlush (c : Config) : Prop where
  statementPrefix : ∀ s ∈ c.statementPrefix, Text.Flush s ∧ Text.Closed s
  statementSuffix : ∀ s ∈ c.statementSuffix, Text.Flush s ∧ Text.Closed s
  loopTrap : ∀ s ∈ c.loopTrap, Text.Flush s ∧ Text.Closed s

/-- A block whose id and field values start no line with a space. -/
structure Block.TextFlush (b : Block) : Prop where
  id : Text.Flush b.id
  fields : ∀ v ∈ b.fields.contents, Text.Flush v

/-- A context in which a generation indenting by two spaces is the template of one indenting by
any other unit: its snippets and the texts of its blocks start no line with a space, and its
snippets end their last lines. -/
structure Context.Reindentable (ctx : Context) : Prop where
  indent : ctx.config.indent = "  "
  snippets : ctx.config.SnippetsFlush
  blocks : ∀ i b, ctx.workspace.get? i = some b → b.TextFlush
  ancestors : ∀ a ∈ ctx.ancestors, a.TextFlush

/-- The two-space unit is the one `reindent` leaves alone. -/
theorem reindent_twoSpaces (s : String) : reindent s "  " = s := by
  simp [reindent]

namespace Registry

/-- The registry with every code re-indented to `u`. -/
def reindented (r : Registry) (u : String) : Registry :=
  ⟨r.entries.map fun e => (e.1, { e.2 with code := reindent e.2.code u })⟩

variable {u : String}

theorem find?_reindented (r : Registry) (k : DefinitionKey) :
    (r.reindented u).find? k = (r.find? k).map fun d => { d with code := reindent d.code u } := by
  unfold find? reindented
  rw [Array.find?_map, Option.map_map, Option.map_map]
  rfl

theorem codes_reindented (r : Registry) : (r.reindented u).codes = r.codes.map (reindent · u) := by
  unfold codes reindented
  simp

/-- Registering commutes with re-indenting the codes. -/
theorem insert_reindented (r : Registry) (k : DefinitionKey) (d : Definition) :
    (r.insert k d).1.reindented u = ((r.reindented u).insert k { d with code := reindent d.code u }).1 := by
  have hidx : (r.entries.map fun e => (e.1, { e.2 with code := reindent e.2.code u })).findIdx?
      (·.1 == k) = r.entries.findIdx? (·.1 == k) := by
    rw [Array.findIdx?_map]
    rfl
  unfold insert reindented
  rw [hidx]
  split
  · congr 1
    apply Array.ext'
    simp
  · simp [Array.map_push]

/-- A helper registered in the run that indents by two spaces keeps its lines as they are; in
the run that indents by `u` it is registered under the same name, re-indented. -/
theorem provide_reindented (r : Registry) (names : NameTable) (desired : String)
    (lines : List String) :
    (r.reindented u).provide names u desired lines =
      ((r.provide names "  " desired lines).1, (r.provide names "  " desired lines).2.1.reindented u,
        (r.provide names "  " desired lines).2.2) := by
  unfold provide
  rw [find?_reindented]
  cases r.find? (.helper desired) with
  | some d => rfl
  | none =>
    simp only [Option.map_none]
    rw [insert_reindented, reindent_twoSpaces]

theorem defineProcedure_reindented (r : Registry) (name code : String) :
    ((r.reindented u).defineProcedure name (reindent code u)).1 = (r.defineProcedure name code).1.reindented u := by
  unfold defineProcedure
  rw [insert_reindented]

/-- Every helper of the registry has an inline name. -/
def HelpersInline (r : Registry) : Prop :=
  ∀ desired d, r.find? (.helper desired) = some d → Text.Inline d.name

/-- Providing a helper hands back an inline name and keeps the names of the helpers and of the
table inline. -/
theorem provide_inline {r : Registry} {t : NameTable} (hr : r.HelpersInline) (ht : t.KeysInline)
    (unit desired : String) (lines : List String) :
    Text.Inline (r.provide t unit desired lines).1 ∧ (r.provide t unit desired lines).2.1.HelpersInline ∧
      (r.provide t unit desired lines).2.2.1.KeysInline := by
  rcases hfind : r.find? (.helper desired) with _ | d
  · unfold provide
    rw [hfind]
    refine ⟨NameTable.inline_distinct _ _ _, fun desired' d' hd' => ?_, ht.take _ _⟩
    by_cases hkey : desired' = desired
    · subst hkey
      rw [find?_insert_self] at hd'
      cases hd'
      exact NameTable.inline_distinct _ _ _
    · rw [find?_insert_of_ne (by simpa [eq_comm] using hkey)] at hd'
      exact hr _ _ hd'
  · rw [provide_of_find? hfind]
    exact ⟨hr _ _ hfind, hr, ht⟩

theorem HelpersInline.defineProcedure {r : Registry} (hr : r.HelpersInline) (name code : String) :
    (r.defineProcedure name code).1.HelpersInline := by
  intro desired d hd
  rw [Registry.defineProcedure, find?_insert_of_ne (by simp)] at hd
  exact hr _ _ hd

end Registry

section Runs

variable (u : String)

/-- Two sessions of two generations, the first indenting by two spaces and the second by `u`:
the same names and reached blocks, and the same definitions, those of the second re-indented; and
every name that the table or the registry holds is inline. -/
structure SessionsReindented (s t : Session) : Prop where
  names : t.names = s.names
  seen : t.seen = s.seen
  registry : t.registry = s.registry.reindented u
  keys_inline : s.names.KeysInline
  helpers_inline : s.registry.HelpersInline

/-- Both runs give the same value, and it has `P`. -/
abbrev Same {α : Type} (P : α → Prop) (a b : α) : Prop := b = a ∧ P a

/-- Two outcomes: the same error, or related values and sessions alike. -/
def OutcomesReindented {α β : Type} (R : α → β → Prop) :
    Except GenerateError α × Session → Except GenerateError β × Session → Prop
  | (.ok a, s), (.ok b, t) => R a b ∧ SessionsReindented u s t
  | (.error e, _), (.error e', _) => e = e'
  | _, _ => False

/-- Two steps, run in a context and in the same context indenting by `u`, from sessions alike,
stop with the same error or give related values and end in sessions alike. -/
def Reindents {α β : Type} (ctx : Context) (R : α → β → Prop) (m₁ : GenM α) (m₂ : GenM β) : Prop :=
  ∀ s t, SessionsReindented u s t →
    OutcomesReindented u R (m₁.exec ctx s) (m₂.exec (ctx.withIndent u) t)

namespace Reindents

variable {u} {ctx : Context} {α β γ δ : Type}

theorem pure {R : α → β → Prop} {a : α} {b : β} (h : R a b) :
    Reindents u ctx R (Pure.pure a : GenM α) (Pure.pure b : GenM β) :=
  fun _ _ hst => ⟨h, hst⟩

/-- Two binds run alike when their first steps do and their continuations do after every pair of
related values. -/
theorem bind {R : α → β → Prop} {Q : γ → δ → Prop} {m₁ : GenM α} {m₂ : GenM β}
    {k₁ : α → GenM γ} {k₂ : β → GenM δ} (hm : Reindents u ctx R m₁ m₂)
    (hk : ∀ a b, R a b → Reindents u ctx Q (k₁ a) (k₂ b)) :
    Reindents u ctx Q (m₁ >>= k₁) (m₂ >>= k₂) := by
  intro s t hst
  have h := hm s t hst
  rw [GenM.exec_bind, GenM.exec_bind]
  revert h
  rcases m₁.exec ctx s with ⟨e₁ | a, s'⟩ <;> rcases m₂.exec (ctx.withIndent u) t with ⟨e₂ | b, t'⟩
  · exact id
  · exact False.elim
  · exact False.elim
  · rintro ⟨hab, hst'⟩
    exact hk a b hab s' t' hst'

/-- A bind whose first steps give the same value, with a property, runs alike when its
continuations do after every such value. -/
theorem bind_same {P : α → Prop} {Q : γ → δ → Prop} {m₁ m₂ : GenM α} {k₁ : α → GenM γ}
    {k₂ : α → GenM δ} (hm : Reindents u ctx (Same P) m₁ m₂)
    (hk : ∀ a, P a → Reindents u ctx Q (k₁ a) (k₂ a)) :
    Reindents u ctx Q (m₁ >>= k₁) (m₂ >>= k₂) :=
  hm.bind fun a _ ⟨hb, ha⟩ => hb ▸ hk a ha

theorem bind_eq {Q : γ → δ → Prop} {m₁ m₂ : GenM α} {k₁ : α → GenM γ} {k₂ : α → GenM δ}
    (hm : Reindents u ctx (· = ·) m₁ m₂) (hk : ∀ a, Reindents u ctx Q (k₁ a) (k₂ a)) :
    Reindents u ctx Q (m₁ >>= k₁) (m₂ >>= k₂) :=
  hm.bind fun a _ h => h ▸ hk a

theorem map {R : α → β → Prop} {Q : γ → δ → Prop} {m₁ : GenM α} {m₂ : GenM β} {f : α → γ}
    {g : β → δ} (hm : Reindents u ctx R m₁ m₂) (hf : ∀ a b, R a b → Q (f a) (g b)) :
    Reindents u ctx Q (f <$> m₁) (g <$> m₂) := by
  rw [← bind_pure_comp, ← bind_pure_comp]
  exact hm.bind fun a b hab => pure (hf a b hab)

theorem ite (c : Prop) [Decidable c] {R : α → β → Prop} {x₁ y₁ : GenM α} {x₂ y₂ : GenM β}
    (hx : c → Reindents u ctx R x₁ x₂) (hy : ¬c → Reindents u ctx R y₁ y₂) :
    Reindents u ctx R (if c then x₁ else y₁) (if c then x₂ else y₂) := by
  by_cases h : c
  · rw [if_pos h, if_pos h]
    exact hx h
  · rw [if_neg h, if_neg h]
    exact hy h

theorem throw (e : GenerateError) {R : α → β → Prop} :
    Reindents u ctx R (MonadExcept.throw e : GenM α) (MonadExcept.throw e : GenM β) :=
  fun _ _ _ => rfl

theorem read : Reindents u ctx (fun c₁ c₂ => c₁ = ctx ∧ c₂ = ctx.withIndent u)
    (MonadReader.read : GenM Context) (MonadReader.read : GenM Context) :=
  fun _ _ hst => ⟨⟨rfl, rfl⟩, hst⟩

/-- Both runs read the same block, whose texts start no line with a space. -/
theorem block (hctx : ctx.Reindentable) (i : Nat) :
    Reindents u ctx (Same Block.TextFlush) (GenM.block i) (GenM.block i) := by
  intro s t hst
  rw [GenM.exec_block, GenM.exec_block, Context.withIndent_workspace]
  cases hb : ctx.workspace.get? i with
  | none => rfl
  | some b => exact ⟨⟨rfl, hctx.blocks i b hb⟩, hst⟩

theorem visit (i : Nat) (b : Block) : Reindents u ctx (· = ·) (GenM.visit i b) (GenM.visit i b) := by
  intro s t hst
  rw [GenM.exec_visit, GenM.exec_visit, hst.seen]
  split
  · rfl
  · exact ⟨rfl, hst.names, rfl, hst.registry, hst.keys_inline, hst.helpers_inline⟩

theorem emit (e : Event) : Reindents u ctx (· = ·) (GenM.emit e) (GenM.emit e) :=
  fun _ _ hst => ⟨rfl, hst.names, hst.seen, hst.registry, hst.keys_inline, hst.helpers_inline⟩

theorem kindOf (b : Block) : Reindents u ctx (· = ·) (GenM.kindOf b) (GenM.kindOf b) := by
  intro s t hst
  rw [GenM.exec_kindOf, GenM.exec_kindOf]
  cases BlockKind.ofName? b.kind with
  | none => rfl
  | some k => exact ⟨rfl, hst⟩

theorem choose {ε : Type} [Inhabited ε] (b : Block) (field : String) (options : List (String × ε)) :
    Reindents u ctx (· = ·) (BlockScribe.choose b field options) (BlockScribe.choose b field options) := by
  intro s t hst
  rw [exec_choose, exec_choose]
  cases b.field? field with
  | none => exact ⟨rfl, hst⟩
  | some v =>
    dsimp only
    cases options.find? (·.1 == v) with
    | none => rfl
    | some o => exact ⟨rfl, hst⟩

/-- Both runs choose the same option: one of those listed, or the default when there are none. -/
theorem choose_mem {ε : Type} [Inhabited ε] (b : Block) (field : String) (options : List (String × ε)) :
    Reindents u ctx (Same fun a => a ∈ options.map (·.2) ∨ a = default)
      (BlockScribe.choose b field options) (BlockScribe.choose b field options) := by
  intro s t hst
  rw [exec_choose, exec_choose]
  cases b.field? field with
  | none =>
    refine ⟨⟨rfl, ?_⟩, hst⟩
    cases options with
    | nil => exact .inr rfl
    | cons o os => exact .inl (List.mem_map.2 ⟨o, List.mem_cons_self, rfl⟩)
  | some v =>
    dsimp only
    cases hfind : options.find? (·.1 == v) with
    | none => rfl
    | some o => exact ⟨⟨rfl, .inl (List.mem_map.2 ⟨o, List.mem_of_find?_eq_some hfind, rfl⟩)⟩, hst⟩

/-- Both runs find the same loop around the block, among its ancestors. -/
theorem surroundingLoop :
    Reindents u ctx (Same fun o => ∀ l ∈ o, l ∈ ctx.ancestors) GenM.surroundingLoop GenM.surroundingLoop :=
  fun _ _ hst => ⟨⟨rfl, fun _ hl => List.mem_of_mem_drop (List.mem_of_find?_eq_some hl)⟩, hst⟩

theorem variableName (key : String) :
    Reindents u ctx (Same Text.Inline) (GenM.variableName key) (GenM.variableName key) := by
  intro s t hst
  rw [GenM.exec_variableName, GenM.exec_variableName, hst.names]
  have h := hst.keys_inline.nameFor key .variable NameTable.global
  exact ⟨⟨rfl, h.1⟩, rfl, hst.seen, hst.registry, h.2, hst.helpers_inline⟩

theorem procedureName (key : String) :
    Reindents u ctx (Same Text.Inline) (GenM.procedureName key) (GenM.procedureName key) := by
  intro s t hst
  rw [GenM.exec_procedureName, GenM.exec_procedureName, hst.names]
  have h := hst.keys_inline.nameFor key .procedure NameTable.global
  exact ⟨⟨rfl, h.1⟩, rfl, hst.seen, hst.registry, h.2, hst.helpers_inline⟩

theorem temporary (base : String) :
    Reindents u ctx (Same Text.Inline) (GenM.temporary base) (GenM.temporary base) := by
  intro s t hst
  rw [GenM.exec_temporary, GenM.exec_temporary, hst.names, Context.withIndent_scope]
  exact ⟨⟨rfl, NameTable.inline_distinct _ _ _⟩, rfl, hst.seen, hst.registry,
    hst.keys_inline.take _ _, hst.helpers_inline⟩

/-- A helper gets the same name in both runs: registered as it is written in the first, and
re-indented to `u` in the second. -/
theorem provide (hindent : ctx.config.indent = "  ") (desired : String) (lines : List String) :
    Reindents u ctx (Same Text.Inline) (GenM.provide desired lines) (GenM.provide desired lines) := by
  intro s t hst
  rw [GenM.exec_provide, GenM.exec_provide, Context.withIndent_indent, hst.registry, hst.names,
    Registry.provide_reindented, hindent]
  obtain ⟨h₁, h₂, h₃⟩ := Registry.provide_inline hst.helpers_inline hst.keys_inline "  " desired lines
  exact ⟨⟨rfl, h₁⟩, rfl, hst.seen, rfl, h₃, h₂⟩

/-- A procedure is registered in the second run with its code re-indented. -/
theorem defineProcedure (name : String) {code₁ code₂ : String} (h : code₂ = reindent code₁ u) :
    Reindents u ctx (· = ·) (GenM.defineProcedure name code₁) (GenM.defineProcedure name code₂) := by
  intro s t hst
  rw [GenM.exec_defineProcedure, GenM.exec_defineProcedure, hst.registry, h,
    Registry.defineProcedure_reindented]
  exact ⟨rfl, hst.names, hst.seen, rfl, hst.keys_inline, hst.helpers_inline.defineProcedure _ _⟩

theorem inChildScope {R : α → β → Prop} {m₁ : GenM α} {m₂ : GenM β}
    (h : ∀ sc, Reindents u { ctx with scope := sc } R m₁ m₂) :
    Reindents u ctx R (GenM.inChildScope m₁) (GenM.inChildScope m₂) := by
  intro s t hst
  rw [GenM.exec_inChildScope, GenM.exec_inChildScope, hst.names]
  exact h _ _ _ ⟨rfl, hst.seen, hst.registry, hst.keys_inline.openScope _, hst.helpers_inline⟩

theorem withReader {f : Context → Context} (hf : ∀ c, f (c.withIndent u) = (f c).withIndent u)
    {R : α → β → Prop} {m₁ : GenM α} {m₂ : GenM β} (h : Reindents u (f ctx) R m₁ m₂) :
    Reindents u ctx R (MonadWithReader.withReader f m₁) (MonadWithReader.withReader f m₂) := by
  intro s t hst
  rw [GenM.exec_withReader, GenM.exec_withReader, hf]
  exact h s t hst

/-- A step after reading the context runs alike when it does for the two contexts read. -/
theorem read_bind {R : α → β → Prop} {k₁ : Context → GenM α} {k₂ : Context → GenM β}
    (h : Reindents u ctx R (k₁ ctx) (k₂ (ctx.withIndent u))) :
    Reindents u ctx R (MonadReader.read >>= k₁) (MonadReader.read >>= k₂) :=
  read.bind fun _ _ hc => by
    obtain ⟨rfl, rfl⟩ := hc
    exact h

/-- Two turns of two loops: both go on, or both stop, with related states. -/
def StepsAlike {σ₁ σ₂ : Type} (I : σ₁ → σ₂ → Prop) : ForInStep σ₁ → ForInStep σ₂ → Prop
  | .yield a, .yield b => I a b
  | .done a, .done b => I a b
  | _, _ => False

/-- Two loops over one list run alike from related states when their turns do. -/
theorem forIn {σ₁ σ₂ : Type} (I : σ₁ → σ₂ → Prop) (xs : List γ) {init₁ : σ₁} {init₂ : σ₂}
    (hinit : I init₁ init₂) {f₁ : γ → σ₁ → GenM (ForInStep σ₁)} {f₂ : γ → σ₂ → GenM (ForInStep σ₂)}
    (hf : ∀ x a b, I a b → Reindents u ctx (StepsAlike I) (f₁ x a) (f₂ x b)) :
    Reindents u ctx I (ForIn.forIn xs init₁ f₁) (ForIn.forIn xs init₂ f₂) := by
  induction xs generalizing init₁ init₂ with
  | nil => exact pure hinit
  | cons x xs ih =>
    rw [List.forIn_cons, List.forIn_cons]
    refine (hf x _ _ hinit).bind fun s₁ s₂ hs => ?_
    cases s₁ <;> cases s₂
    · exact pure hs
    · exact hs.elim
    · exact hs.elim
    · exact ih hs

/-- Steps that give the same value in both runs, mapped over a list. -/
theorem mapM {P : α → Prop} {f₁ f₂ : γ → GenM α} (hf : ∀ x, Reindents u ctx (Same P) (f₁ x) (f₂ x)) :
    ∀ xs : List γ, Reindents u ctx (Same fun as => ∀ a ∈ as, P a) (xs.mapM f₁) (xs.mapM f₂)
  | [] => pure ⟨rfl, by simp⟩
  | x :: xs => by
    rw [List.mapM_cons, List.mapM_cons]
    exact (hf x).bind_same fun a ha => (mapM hf xs).bind_same fun as has =>
      pure ⟨rfl, List.forall_mem_cons.2 ⟨ha, has⟩⟩

end Reindents

end Runs

/-! ### Texts re-indented -/

/-- The second text is the first re-indented to `u`, and the first ends its last line. -/
def Reindented (u a b : String) : Prop := b = reindent a u ∧ Text.Closed a

namespace Reindented

variable {u a b c d : String}

theorem of_unindented (h : Text.Unindented a) : Reindented u a a :=
  ⟨(reindent_of_unindented h).symm, h.2⟩

theorem empty : Reindented u "" "" := of_unindented Text.unindented_empty

/-- Texts re-indented, one after the other, are re-indented. -/
theorem append (h₁ : Reindented u a b) (h₂ : Reindented u c d) : Reindented u (a ++ c) (b ++ d) :=
  ⟨by rw [reindent_append_of_closed h₁.2, ← h₁.1, ← h₂.1], h₁.2.append h₂.2⟩

/-- An unindented text indented by two spaces, re-indented, is the text indented by `u`. -/
theorem indented (hu : '\n' ∉ u.toList) (h : Text.Unindented a) :
    Reindented u (Text.prefixLines a "  ") (Text.prefixLines a u) :=
  ⟨by rw [reindent_prefixLines hu h.2, reindent_of_unindented h], Text.closed_prefixLines h.2 _⟩

/-- A line of its own indented one level. -/
theorem line (h : Text.Unindented a) (hne : a ≠ "") : Reindented u ("  " ++ a) (u ++ a) :=
  ⟨by rw [reindent_twoSpaces_append, reindent_of_unindented h], h.2.append_of_ne hne _⟩

/-- A line of its own that a rule indents by the unit of its configuration. -/
theorem indentLine {c : Config} (hind : c.indent = "  ") (h : Text.Unindented a) (hne : a ≠ "") :
    Reindented u (c.indent ++ a) ({ c with indent := u }.indent ++ a) := by
  rw [hind]
  exact line h hne

/-- A header line, a body, and the closing brace of a block of statements. -/
theorem braced (hp : Text.Unindented a) (h : Reindented u b c) :
    Reindented u (a ++ b ++ "\x7d\n") (a ++ c ++ "\x7d\n") :=
  ((of_unindented hp).append h).append (of_unindented (by decide))

/-- Texts re-indented, and a closing brace after them. -/
theorem append_brace (h : Reindented u a b) : b ++ "\x7d" = reindent (a ++ "\x7d") u := by
  rw [reindent_append_of_closed h.2, ← h.1, reindent_of_flush (by decide)]

end Reindented

/-! ### Instrumentation -/

namespace Config

theorem getD_map_prefixLines (o : Option String) (pre : String) :
    (o.map (Text.prefixLines · pre)).getD "" = Text.prefixLines (o.getD "") pre := by
  cases o with
  | none => simp [Text.prefixLines, Text.prefixList]
  | some s => rfl

/-- The loop trap, the suffix and the prefix around a loop body, each indented one level. -/
theorem addLoopTrap_eq (c : Config) (branch : String) (b : Block) :
    c.addLoopTrap branch b = Text.prefixLines ((c.suffixFor b).getD "") c.indent ++
      (Text.prefixLines ((c.loopTrap.map (injectId · b)).getD "") c.indent ++ branch) ++
      Text.prefixLines ((c.prefixFor b).getD "") c.indent := by
  rw [← getD_map_prefixLines, ← getD_map_prefixLines, ← getD_map_prefixLines, Option.map_map]
  unfold addLoopTrap indentedLoopTrap
  cases c.loopTrap <;> cases c.suffixFor b <;> cases c.prefixFor b <;> simp [Function.comp_def]

theorem earlyExitSuffix_eq (c : Config) (b : Block) :
    c.earlyExitSuffix b = Text.prefixLines ((c.suffixFor b).getD "") c.indent :=
  getD_map_prefixLines _ _

theorem indentedLoopTrap_getD (c : Config) (b : Block) :
    (c.indentedLoopTrap b).getD "" = Text.prefixLines ((c.loopTrap.map (injectId · b)).getD "") c.indent := by
  rw [← getD_map_prefixLines, Option.map_map]
  rfl

variable {u : String} {c : Config} {b : Block}

/-- The snippets of a block do not depend on the unit of indentation. -/
@[simp] theorem prefixFor_withIndent : ({ c with indent := u }).prefixFor b = c.prefixFor b := rfl

@[simp] theorem suffixFor_withIndent : ({ c with indent := u }).suffixFor b = c.suffixFor b := rfl

/-- A snippet that is set, with the block's id in it, is whole unindented lines. -/
theorem unindented_injected {o : Option String} (h : ∀ s ∈ o, Text.Flush s ∧ Text.Closed s)
    (hb : b.TextFlush) : Text.Unindented ((o.map (injectId · b)).getD "") := by
  cases o with
  | none => exact Text.unindented_empty
  | some s => exact injectId_flush (h s rfl).1 (h s rfl).2 hb.id

theorem SnippetsFlush.prefixFor (hc : c.SnippetsFlush) (hb : b.TextFlush) :
    Text.Unindented ((c.prefixFor b).getD "") :=
  unindented_injected hc.statementPrefix hb

theorem SnippetsFlush.suffixFor (hc : c.SnippetsFlush) (hb : b.TextFlush) :
    Text.Unindented ((c.suffixFor b).getD "") :=
  unindented_injected hc.statementSuffix hb

theorem SnippetsFlush.trap (hc : c.SnippetsFlush) (hb : b.TextFlush) :
    Text.Unindented ((c.loopTrap.map (injectId · b)).getD "") :=
  unindented_injected hc.loopTrap hb

section Reindented

variable (hu : '\n' ∉ u.toList) (hc : c.SnippetsFlush) (hb : b.TextFlush) (hind : c.indent = "  ")
include hu hc hb hind

/-- **The instrumentation of a loop body is re-indented with it.** -/
theorem reindented_addLoopTrap {a a' : String} (h : Reindented u a a') :
    Reindented u (c.addLoopTrap a b) ({ c with indent := u }.addLoopTrap a' b) := by
  rw [addLoopTrap_eq, addLoopTrap_eq, hind]
  exact ((Reindented.indented hu (hc.suffixFor hb)).append
    ((Reindented.indented hu (hc.trap hb)).append h)).append (Reindented.indented hu (hc.prefixFor hb))

theorem reindented_earlyExitSuffix :
    Reindented u (c.earlyExitSuffix b) ({ c with indent := u }.earlyExitSuffix b) := by
  rw [earlyExitSuffix_eq, earlyExitSuffix_eq, hind]
  exact Reindented.indented hu (hc.suffixFor hb)

theorem reindented_indentedLoopTrap :
    Reindented u ((c.indentedLoopTrap b).getD "") (({ c with indent := u }.indentedLoopTrap b).getD "") := by
  rw [indentedLoopTrap_getD, indentedLoopTrap_getD, hind]
  exact Reindented.indented hu (hc.trap hb)

end Reindented

/-- A statement between its prefix and suffix is re-indented with them. -/
theorem reindented_wrapStatement (hc : c.SnippetsFlush) (hb : b.TextFlush) (kind : BlockKind)
    {a a' : String} (h : Reindented u a a') :
    Reindented u (c.wrapStatement kind b a) ({ c with indent := u }.wrapStatement kind b a') := by
  unfold wrapStatement
  by_cases hk : kind.placesOwnSnippets = true
  · rw [if_pos hk, if_pos hk]
    exact h
  · rw [if_neg hk, if_neg hk]
    exact ((Reindented.of_unindented (hc.prefixFor hb)).append h).append
      (Reindented.of_unindented (hc.suffixFor hb))

end Config

namespace Context.Reindentable

variable {ctx : Context}

theorem withAncestor (h : ctx.Reindentable) {b : Block} (hb : b.TextFlush) :
    ({ ctx with ancestors := b :: ctx.ancestors } : Context).Reindentable :=
  ⟨h.indent, h.snippets, h.blocks, List.forall_mem_cons.2 ⟨hb, h.ancestors⟩⟩

theorem withScope (h : ctx.Reindentable) (sc : Nat) : ({ ctx with scope := sc } : Context).Reindentable :=
  ⟨h.indent, h.snippets, h.blocks, h.ancestors⟩

end Context.Reindentable

/-! ### Children and outputs -/

/-- What a rule makes of a block in both runs: the same inline value, statements re-indented, or
nothing in place. -/
def OutputsReindented (u : String) : Output → Output → Prop
  | .value c o, .value c' o' => c' = c ∧ o' = o ∧ Text.Inline c
  | .statement c, .statement c' => Reindented u c c'
  | .hoisted, .hoisted => True
  | _, _ => False

/-- The children of a block in both runs, in every context that can be re-indented: the same
inline value in a slot, and a body that is the first run's re-indented. -/
structure ChildrenReindent (u : String) (ch : Children) : Prop where
  value : ∀ ctx : Context, ctx.Reindentable → ∀ slot order,
    Reindents u ctx (Same fun o => ∀ v ∈ o, Text.Inline v) (ch.value slot order) (ch.value slot order)
  body : ∀ ctx : Context, ctx.Reindentable → ∀ slot,
    Reindents u ctx (Reindented u) (ch.body slot) (ch.body slot)

end BlockScribe
