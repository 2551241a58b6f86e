import BlockScribe.Proofs.Generate.Names
import BlockScribe.Proofs.Workspace.Reachable
import BlockScribe.Proofs.Workspace.ReadBack
/-!
# Which variables a generation declares

A generation starts by naming the variables of the workspace (`Workspace.usedVariables`: the
declared ones, then the names brought into scope by the blocks reachable from the roots, one per
spelling up to case), one after the other in the global scope, and declares these names in the
leading `var` line (`Generation.declaredNames`).  Later, the rules of variable blocks, of loops
over a variable, of `text_append` and of procedure definitions name variables by key
(`BlockKind.variableKeys`): the text of the `VAR` field, the empty text when there is none, or
the parameters.

Three facts meet.  A generation reaches only blocks under its roots, and every key named at the
start keeps its name to the end (`Generation.run_widens`).  The start names each used variable
once, by names that differ (`Generation.start_named`).  And in a table whose keys are named
once, two keys with one name are one key (`NameTable.Keyed.key_eq_iff`).  So a key of a reached
block has a name declared once exactly when it is a used variable up to case
(`Generation.declared_once_iff_used`).  A key read from a field the block has is one; the only
key that can be missing is the empty one, of a block without a `VAR` field
(`variables_declared_once_iff`).
-/

namespace BlockScribe

/-! ### The keys of the global scope -/

namespace NameTable

variable {t : NameTable} {helpers : List String}

theorem named_subset_addKey (t : NameTable) (s : Nat) (entry : (NameKind × String) × String) :
    t.named ⊆ (t.addKey s entry).named := by
  unfold named addKey
  rw [scope_eq, scope_eq, Array.getElem?_modify]
  split
  · cases t.scopes[global]? <;> simp
  · exact List.Subset.refl _

/-- Naming a key keeps every key named, with its name. -/
theorem named_subset_nameFor (t : NameTable) (key : String) (kind : NameKind) (s : Nat) :
    t.named ⊆ (t.nameFor key kind s).2.named := by
  rw [nameFor_eq]
  split
  · exact List.Subset.refl _
  · rw [← named_distinct t key s]
    exact named_subset_addKey _ s _

/-- A key that has no name yet gets the next entry of the global scope. -/
theorem named_nameFor_of_lookup (hs : global < t.scopes.size) {key : String} {kind : NameKind}
    (hnone : t.lookup key kind global = none) :
    (t.nameFor key kind global).2.named =
      t.named ++ [((kind, Text.lower key), (t.nameFor key kind global).1)] := by
  simp only [nameFor_eq, hnone]
  unfold named
  rw [scope_addKey (by rw [size_distinct]; exact hs), if_pos rfl, scope_distinct hs]

/-- A key looked up in the global scope has the name of its entry there. -/
theorem Shaped.lookup_eq_some (ht : t.Shaped) {key : String} {kind : NameKind} {n : String}
    (h : t.lookup key kind global = some n) :
    ∃ e ∈ t.named, e.1 = (kind, Text.lower key) ∧ e.2 = n := by
  rw [ht.lookup_global] at h
  obtain ⟨e, hfind, rfl⟩ := Option.map_eq_some_iff.1 h
  exact ⟨e, List.mem_of_find?_eq_some hfind, by simpa using List.find?_some hfind, rfl⟩

/-- In a table whose keys are named once, the name of a key is that of its entry. -/
theorem Keyed.lookup_eq (h : t.Keyed helpers) (ht : t.Shaped) {e : (NameKind × String) × String}
    (he : e ∈ t.named) {key : String} {kind : NameKind} (hkey : e.1 = (kind, Text.lower key)) :
    t.lookup key kind global = some e.2 := by
  rw [ht.lookup_global]
  cases hfind : (t.scope global).keys.find? (·.1 == (kind, Text.lower key)) with
  | none =>
    exact absurd (by simpa using hkey) (List.find?_eq_none.1 hfind e he)
  | some e' =>
    -- the entry found has the key of `e`, and keys are named once
    have he' : e' ∈ t.named := List.mem_of_find?_eq_some hfind
    have hkey' : e'.1 = e.1 := by
      rw [hkey]
      simpa using List.find?_some hfind
    rw [List.inj_on_of_nodup_map h.keys_nodup he' he hkey']
    rfl

end NameTable

/-! ### The names a generation starts with -/

namespace Text

theorem lowerChar_ne_nil (before after : Bool) (c : Char) : lowerChar before after c ≠ [] := by
  unfold lowerChar
  split
  · simp
  · split
    · simp
    · split <;> simp

/-- Only the empty text is empty once lowered. -/
theorem eq_empty_of_lower {s : String} (h : lower s = "") : s = "" := by
  rw [lower, String.ofList_eq_empty_iff] at h
  rw [← String.toList_eq_nil_iff]
  cases hs : s.toList with
  | nil => rfl
  | cons c rest =>
    rw [hs, lowerList, List.append_eq_nil_iff] at h
    exact absurd h.1 (lowerChar_ne_nil _ _ c)

end Text

namespace Generation

/-- Names variables one after the other in the global scope, collecting their names. -/
def nameVariables (vs : List String) (init : List String × NameTable) : List String × NameTable :=
  vs.foldl (fun p v => (p.1 ++ [(p.2.nameFor v .variable NameTable.global).1],
    (p.2.nameFor v .variable NameTable.global).2)) init

/-- The names that the leading `var` line of a generation declares: those the start gives to the
used variables, in their order. -/
def declaredNames (w : Workspace) (c : Config) : List String :=
  (nameVariables w.usedVariables ([], NameTable.create c.reservedWords)).1

/-- The start declares exactly the names it gives. -/
theorem start_registry (w : Workspace) (c : Config) :
    (start w c).registry = Registry.empty.declareVariables (declaredNames w c) := rfl

theorem nameVariables_cons (v : String) (vs : List String) (init : List String × NameTable) :
    nameVariables (v :: vs) init =
      nameVariables vs (init.1 ++ [(init.2.nameFor v .variable NameTable.global).1],
        (init.2.nameFor v .variable NameTable.global).2) := rfl

/-- Naming variables that differ up to case, each gets a new entry of the global scope, in
order, and the names collected are those of the entries. -/
theorem nameVariables_named : ∀ (vs done acc : List String) (t : NameTable), t.Apart →
    ((done ++ vs).map Text.lower).Nodup →
    t.named.map (·.1) = done.map (fun u => (NameKind.variable, Text.lower u)) →
    t.named.map (·.2) = acc →
    (nameVariables vs (acc, t)).2.named.map (·.1) =
        (done ++ vs).map (fun u => (NameKind.variable, Text.lower u)) ∧
      (nameVariables vs (acc, t)).2.named.map (·.2) = (nameVariables vs (acc, t)).1
  | [], done, _, _, _, _, hkeys, hnames => by
    rw [List.append_nil]
    exact ⟨hkeys, hnames⟩
  | v :: vs, done, acc, t, ht, hnodup, hkeys, hnames => by
    -- `v` has no name yet: its spelling up to case is none of those named
    have hfresh : Text.lower v ∉ done.map Text.lower := by
      rw [List.map_append, List.nodup_append] at hnodup
      exact fun hv => hnodup.2.2 _ hv _ List.mem_cons_self rfl
    have hnone : t.lookup v .variable NameTable.global = none := by
      rw [ht.shaped.lookup_global, Option.map_eq_none_iff, List.find?_eq_none]
      intro e he hkey
      have hmem : e.1 ∈ done.map (fun u => (NameKind.variable, Text.lower u)) := by
        rw [← hkeys]
        exact List.mem_map_of_mem he
      obtain ⟨u, hu, hu'⟩ := List.mem_map.1 hmem
      have hlow : Text.lower u = Text.lower v := by
        have := hu'.trans (beq_iff_eq.1 hkey)
        simpa using this
      exact hfresh (hlow ▸ List.mem_map_of_mem hu)
    have hstep := NameTable.named_nameFor_of_lookup ht.shaped.global_lt hnone
    rw [nameVariables_cons]
    have hrest := nameVariables_named vs (done ++ [v])
      (acc ++ [(t.nameFor v .variable NameTable.global).1])
      (t.nameFor v .variable NameTable.global).2 (ht.nameFor ht.shaped.global_lt v .variable)
      (by simpa using hnodup) (by simp [hstep, hkeys]) (by simp [hstep, hnames])
    simpa using hrest

/-- **The start names each used variable, in order, and declares their names.**  The keys of
the global scope are the used variables by spelling without case, and their names are the
declared ones. -/
theorem start_named (w : Workspace) (c : Config) :
    (start w c).names.named.map (·.1) =
        w.usedVariables.map (fun u => (NameKind.variable, Text.lower u)) ∧
      (start w c).names.named.map (·.2) = declaredNames w c :=
  nameVariables_named w.usedVariables [] [] (NameTable.create c.reservedWords)
    (NameTable.create_apart c.reservedWords) (by simpa using w.usedVariables_nodup) rfl rfl

/-- The declared names differ. -/
theorem declaredNames_nodup (w : Workspace) (c : Config) : (declaredNames w c).Nodup := by
  have hkeyed := (start_namesApart w c).keyed
  rw [start_registry, Registry.helperNames_declareVariables, Registry.helperNames_empty] at hkeyed
  have hnodup := hkeyed.names_nodup
  rw [List.append_nil, (start_named w c).2] at hnodup
  exact hnodup

end Generation

/-! ### What a generation adds to its session -/

namespace Workspace

variable {w : Workspace}

/-- A position under a root: a root, or a position one links to through any number of links. -/
def UnderRoots (w : Workspace) (p : Nat) : Prop := ∃ r ∈ w.roots, w.Reaches r p

theorem UnderRoots.root {r : Nat} (hr : r ∈ w.roots) : w.UnderRoots r := ⟨r, hr, .refl⟩

theorem UnderRoots.link {p j : Nat} (hp : w.UnderRoots p) (hl : w.Link p j) : w.UnderRoots j := by
  obtain ⟨r, hr, hreach⟩ := hp
  exact ⟨r, hr, hreach.tail hl⟩

/-- From session `s` to session `t` of a generation of `w`: every key named in `s` is named in
`t`, by the same name, and the blocks reached in between lie under the roots. -/
structure Widens (w : Workspace) (s t : Session) : Prop where
  named : s.names.named ⊆ t.names.named
  seen : ∀ p ∈ t.seen, p ∈ s.seen ∨ w.UnderRoots p

namespace Widens

variable {s t u : Session}

theorem refl (s : Session) : w.Widens s s := ⟨List.Subset.refl _, fun _ hp => .inl hp⟩

theorem trans (h₁ : w.Widens s t) (h₂ : w.Widens t u) : w.Widens s u :=
  ⟨List.Subset.trans h₁.named h₂.named, fun p hp => (h₂.seen p hp).elim (h₁.seen p) .inr⟩

/-- A step that names no key and reaches no block. -/
theorem of_eq (hnamed : t.names.named = s.names.named) (hseen : t.seen = s.seen) :
    w.Widens s t :=
  ⟨hnamed ▸ List.Subset.refl _, fun _ hp => .inl (hseen ▸ hp)⟩

end Widens

end Workspace

/-- A primitive step keeps every key named, with its name. -/
theorem Prim.exec_named {β : Type} {m : GenM β} (h : Prim m) (ctx : Context) (s : Session) :
    s.names.named ⊆ (m.exec ctx s).2.names.named := by
  cases h with
  | temporary base =>
    rw [GenM.exec_temporary, NameTable.named_distinct]
    exact List.Subset.refl _
  | variableName key => exact NameTable.named_subset_nameFor _ _ _ _
  | procedureName key => exact NameTable.named_subset_nameFor _ _ _ _
  | provide desired lines =>
    rw [GenM.exec_provide]
    unfold Registry.provide
    cases s.registry.find? (.helper desired) with
    | some d => exact List.Subset.refl _
    | none =>
      intro e he
      show e ∈ (s.names.distinct desired NameTable.global).2.named
      rwa [NameTable.named_distinct]
  | choose b field options =>
    rw [exec_choose]
    split
    · exact List.Subset.refl _
    · split <;> exact List.Subset.refl _
  | _ => exact List.Subset.refl _

namespace GenM

/-- A step that widens the session it starts from, whatever its outcome. -/
def Widens {α : Type} (ctx : Context) (m : GenM α) : Prop :=
  ∀ s, ctx.workspace.Widens s (m.exec ctx s).2

namespace Widens

variable {α β : Type} {ctx : Context}

theorem of_eq {m : GenM α} (hnamed : ∀ s, (m.exec ctx s).2.names.named = s.names.named)
    (hseen : ∀ s, (m.exec ctx s).2.seen = s.seen) : Widens ctx m := fun s =>
  .of_eq (hnamed s) (hseen s)

theorem pure (a : α) : Widens ctx (Pure.pure a) := of_eq (fun _ => rfl) fun _ => rfl

theorem throw (e : GenerateError) : Widens ctx (MonadExcept.throw e : GenM α) :=
  of_eq (fun _ => rfl) fun _ => rfl

theorem read : Widens ctx (read : GenM Context) := of_eq (fun _ => rfl) fun _ => rfl

theorem get : Widens ctx (get : GenM Session) := of_eq (fun _ => rfl) fun _ => rfl

theorem emit (e : Event) : Widens ctx (emit e) := of_eq (fun _ => rfl) fun _ => rfl

theorem kindOf (b : Block) : Widens ctx (kindOf b) :=
  of_eq (fun s => by rw [exec_kindOf_snd]) fun s => by rw [exec_kindOf_snd]

theorem prim {m : GenM α} (hm : Prim m) : Widens ctx m := fun s =>
  ⟨hm.exec_named ctx s, fun _ hp => .inl (hm.exec_seen ctx s ▸ hp)⟩

/-- Reaching a block under the roots. -/
theorem visit {i : Nat} (b : Block) (hi : ctx.workspace.UnderRoots i) : Widens ctx (visit i b) :=
  fun s => by
    rw [exec_visit]
    split
    · exact .refl s
    · refine ⟨List.Subset.refl _, fun p hp => ?_⟩
      rcases List.mem_cons.1 hp with rfl | hp
      · exact .inr hi
      · exact .inl hp

theorem bind {m : GenM β} {k : β → GenM α} (hm : Widens ctx m) (hk : ∀ b, Widens ctx (k b)) :
    Widens ctx (m >>= k) := fun s => by
  have h := hm s
  rw [exec_bind]
  rcases hrun : m.exec ctx s with ⟨_ | b, t⟩
  · rw [hrun] at h
    exact h
  · rw [hrun] at h
    exact h.trans (hk b t)

theorem block_bind {i : Nat} {k : Block → GenM α}
    (hk : ∀ b, ctx.workspace.get? i = some b → Widens ctx (k b)) : Widens ctx (block i >>= k) :=
  fun s => by
    rw [exec_bind, exec_block]
    rcases hb : ctx.workspace.get? i with _ | b
    · exact .refl s
    · exact hk b hb s

theorem map {m : GenM β} (f : β → α) (hm : Widens ctx m) : Widens ctx (f <$> m) := by
  rw [← bind_pure_comp]
  exact .bind hm fun _ => .pure _

theorem mapM {γ : Type} {f : γ → GenM α} :
    ∀ {xs : List γ}, (∀ x ∈ xs, Widens ctx (f x)) → Widens ctx (xs.mapM f)
  | [], _ => .pure _
  | x :: xs, hf => by
    rw [List.mapM_cons]
    exact .bind (hf x List.mem_cons_self) fun _ =>
      .bind (mapM fun y hy => hf y (List.mem_cons_of_mem _ hy)) fun _ => .pure _

theorem withReader {f : Context → Context} {m : GenM α} (hf : (f ctx).workspace = ctx.workspace)
    (hm : Widens (f ctx) m) : Widens ctx (withReader f m) := fun s => by
  rw [exec_withReader, ← hf]
  exact hm s

/-- The outcome of a step that widens its session, run in `w` from a session that widens
`s₀`. -/
theorem holds {w : Workspace} {s₀ s : Session} {ctx' : Context} {m : GenM α}
    (hm : Widens ctx' m) (hw : ctx'.workspace = w) (hs : w.Widens s₀ s) (B : List Slot) :
    Holds (fun _ ctx'' t => ctx''.workspace = w ∧ w.Widens s₀ t) (fun _ t => w.Widens s₀ t) B
      ctx' (m.exec ctx' s) := by
  have h := hs.trans (hw ▸ hm s)
  rcases hrun : m.exec ctx' s with ⟨_ | _, t⟩
  · rw [hrun] at h
    exact h
  · rw [hrun] at h
    exact ⟨hw, h⟩

end Widens

end GenM

open GenM

/-- **A rule widens its session where its children do**, in the workspace of its context. -/
theorem Lockstep.widens {ch : Children} {ctx : Context}
    (hv : ∀ slot order ctx', ctx'.workspace = ctx.workspace → Widens ctx' (ch.value slot order))
    (hb : ∀ slot ctx', ctx'.workspace = ctx.workspace → Widens ctx' (ch.body slot))
    {α : Type} {A B : List Slot} {m₁ m₂ : GenM α} (h : Lockstep ch ch A m₁ m₂ B) :
    Widens ctx m₁ := by
  intro s₀
  -- the invariant: the workspace is that of `ctx`, and the session widens `s₀`
  let I : Invariant ch ch :=
    { P := fun _ ctx' t => ctx'.workspace = ctx.workspace ∧ ctx.workspace.Widens s₀ t
      E := fun _ t => ctx.workspace.Widens s₀ t
      mono := fun _ h => h
      prim := @fun _ _ hm _ _ _ hP => Widens.holds (.prim hm) hP.1 hP.2 _
      value := fun slot order _ ctx' _ hP =>
        ⟨rfl, Widens.holds (hv slot order ctx' hP.1) hP.1 hP.2 _⟩
      body := fun slot _ ctx' _ hP => ⟨rfl, Widens.holds (hb slot ctx' hP.1) hP.1 hP.2 _⟩
      -- opening a scope names no key and reaches no block
      enter := fun hP => ⟨hP.1, hP.2.trans (.of_eq (NameTable.named_openScope _ _) rfl)⟩
      leave := fun hP hQ => ⟨hP.1, hQ.2⟩ }
  have hholds := (h.agree I ctx s₀ ⟨rfl, .refl s₀⟩).2
  revert hholds
  rcases m₁.exec ctx s₀ with ⟨_ | _, t⟩
  · exact id
  · exact fun hP => hP.2

namespace Generation

/-- `b` is a block at a position under the roots of the workspace of `ctx`. -/
def Placed (ctx : Context) (b : Block) : Prop :=
  ∃ p, ctx.workspace.get? p = some b ∧ ctx.workspace.UnderRoots p

mutual

theorem widens_valueCode : ∀ (f : Nat) (parent : Block) (slot : String) (outer : Order)
    (ctx : Context), Placed ctx parent → Widens ctx (valueCode f parent slot outer)
  | 0, _, _, _, _, _ => .throw _
  | f + 1, parent, slot, outer, ctx, ⟨p, hp, hunder⟩ => by
    unfold valueCode
    split
    · exact .pure _
    · rename_i i hi
      have hi' := hunder.link (Workspace.link_of_get hp (Block.value?_mem_children hi))
      refine .block_bind fun b hb => .bind (.visit b hi') fun _ => ?_
      split
      · exact .pure _
      · refine .bind (widens_dispatch f b ctx ⟨i, hb, hi'⟩) fun r => ?_
        obtain ⟨_, out⟩ := r
        cases out with
        | value => exact .pure _
        | statement => exact .throw _
        | hoisted => exact .pure _

theorem widens_bodyCode : ∀ (f : Nat) (parent : Block) (slot : String) (ctx : Context),
    Placed ctx parent → Widens ctx (bodyCode f parent slot)
  | 0, _, _, _, _ => .throw _
  | f + 1, parent, slot, ctx, ⟨p, hp, hunder⟩ => by
    unfold bodyCode
    split
    · exact .pure _
    · rename_i j hj
      have hj' := hunder.link (Workspace.link_of_get hp (Block.statement?_mem_children hj))
      exact .bind (widens_chainCode f j ctx hj') fun _ => .bind .read fun _ => .pure _

theorem widens_chainCode : ∀ (f : Nat) (i : Nat) (ctx : Context), ctx.workspace.UnderRoots i →
    Widens ctx (chainCode f i)
  | 0, _, _, _ => .throw _
  | f + 1, i, ctx, hi => by
    unfold chainCode
    refine .block_bind fun b hb => .bind (.visit b hi) fun _ => ?_
    refine .bind (?_ : Widens ctx (if b.disabled then _ else _)) fun _ => ?_
    · split
      · exact .pure _
      · exact widens_statementCode f b ctx ⟨i, hb, hi⟩
    · split
      · rename_i j hj
        have hj' := hi.link (Workspace.link_of_get hb (Block.next_mem_children hj))
        exact .bind (widens_chainCode f j ctx hj') fun _ => .pure _
      · exact .pure _

theorem widens_statementCode : ∀ (f : Nat) (b : Block) (ctx : Context), Placed ctx b →
    Widens ctx (statementCode f b)
  | 0, _, _, _ => .throw _
  | f + 1, b, ctx, hb => by
    unfold statementCode
    refine .bind (widens_dispatch f b ctx hb) fun r => ?_
    obtain ⟨_, out⟩ := r
    cases out with
    | value => exact .throw _
    | statement => exact .bind .read fun _ => .pure _
    | hoisted => exact .pure _

theorem widens_dispatch : ∀ (f : Nat) (b : Block) (ctx : Context), Placed ctx b →
    Widens ctx (dispatch f b)
  | 0, _, _, _ => .throw _
  | f + 1, b, ctx, ⟨p, hp, hunder⟩ => by
    unfold dispatch
    refine .bind (.kindOf b) fun kind => .bind (.emit _) fun _ => .bind ?_ fun _ => .pure _
    obtain ⟨_, hlock⟩ :=
      kind.rule_lockstep ⟨valueCode f b, bodyCode f b⟩ ⟨valueCode f b, bodyCode f b⟩ b
    -- the rule runs with `b` among the ancestors, in the same workspace
    refine .withReader rfl (Lockstep.widens (fun slot order ctx' hw => ?_)
      (fun slot ctx' hw => ?_) hlock)
    · exact widens_valueCode f b slot order ctx' ⟨p, hw ▸ hp, hw ▸ hunder⟩
    · exact widens_bodyCode f b slot ctx' ⟨p, hw ▸ hp, hw ▸ hunder⟩

end

theorem widens_rootCode (f i : Nat) (ctx : Context) (hi : i ∈ ctx.workspace.roots) :
    Widens ctx (rootCode f i) := by
  have hunder : ctx.workspace.UnderRoots i := .root hi
  unfold rootCode
  refine .block_bind fun b hb => .bind ?_ fun _ => ?_
  · split
    · exact .pure _
    · exact .map _ (.kindOf b)
  · split
    · exact widens_chainCode f i ctx hunder
    · refine .bind (.visit b hunder) fun _ => ?_
      refine .bind (widens_dispatch f b ctx ⟨i, hb, hunder⟩) fun r => ?_
      obtain ⟨_, out⟩ := r
      cases out with
      | value => exact .bind .read fun _ => .pure _
      | statement => exact .pure _
      | hoisted => exact .pure _

theorem widens_program (f : Nat) (ctx : Context) : Widens ctx (program f ctx.workspace) := by
  unfold program body
  refine .bind (.bind (.mapM fun i hi => widens_rootCode f i ctx hi) fun _ => .pure _)
    fun _ => ?_
  exact .bind .get fun _ => .bind (.emit _) fun _ => .pure _

/-- **A generation keeps the names it starts with and reaches only blocks under its roots.** -/
theorem run_widens (w : Workspace) (c : Config) : w.Widens (start w c) (run w c).2 :=
  widens_program (fuel w) (context w c) (start w c)

theorem run_seen_underRoots (w : Workspace) (c : Config) :
    ∀ p ∈ (run w c).2.seen, w.UnderRoots p := fun p hp =>
  ((run_widens w c).seen p hp).resolve_left List.not_mem_nil

/-- **A key has a name declared once exactly when it is a used variable up to case**, in the
table a generation ends with, whatever its outcome. -/
theorem declared_once_iff_used (w : Workspace) (c : Config) (key : String) :
    (∃ name, (run w c).2.names.lookup key .variable NameTable.global = some name ∧
        (declaredNames w c).count name = 1) ↔
      ∃ u ∈ w.usedVariables, Text.lower u = Text.lower key := by
  have hapart := run_namesApart w c
  have hsub := (run_widens w c).named
  obtain ⟨hkeys, hnames⟩ := start_named w c
  constructor
  · rintro ⟨name, hlookup, hcount⟩
    -- the name is that of an entry the start made for some used variable
    obtain ⟨e, he, hkey, rfl⟩ := hapart.table.shaped.lookup_eq_some hlookup
    have hdecl : e.2 ∈ (start w c).names.named.map (·.2) := by
      rw [hnames]
      exact List.count_pos_iff.1 (by omega)
    obtain ⟨e', he', hname⟩ := List.mem_map.1 hdecl
    have hkey' : e'.1 ∈ w.usedVariables.map (fun u => (NameKind.variable, Text.lower u)) := by
      rw [← hkeys]
      exact List.mem_map_of_mem he'
    obtain ⟨u, hu, hu'⟩ := List.mem_map.1 hkey'
    -- both entries are in the end table with one name, so they have one key
    have hsame : e'.1 = e.1 := (hapart.keyed.key_eq_iff (hsub he') he).2 hname
    refine ⟨u, hu, ?_⟩
    have := hu'.trans (hsame.trans hkey)
    simpa using this
  · rintro ⟨u, hu, hlow⟩
    have hkey : (NameKind.variable, Text.lower u) ∈ (start w c).names.named.map (·.1) := by
      rw [hkeys]
      exact List.mem_map_of_mem hu
    obtain ⟨e, he, hkey'⟩ := List.mem_map.1 hkey
    refine ⟨e.2, hapart.keyed.lookup_eq hapart.table.shaped (hsub he) ?_, ?_⟩
    · rw [hkey', hlow]
    · apply List.count_eq_one_of_mem (declaredNames_nodup w c)
      rw [← hnames]
      exact List.mem_map_of_mem he

end Generation

/-! ### The variables a rule names -/

namespace BlockKind

/-- Whether the rule of a kind names the variable of the block's `VAR` field. -/
def namesVar : BlockKind → Bool
  | forRange | forEach | variablesGet | variablesSet | variablesGetDynamic
  | variablesSetDynamic | textAppend => true
  | _ => false

/-- Whether the rule of a kind names the block's parameters as variables: a procedure
definition. -/
def namesParams : BlockKind → Bool
  | defineReturn | defineNoReturn => true
  | _ => false

/-- The keys of the variables that the rule of a kind names for a block: the text of its `VAR`
field, empty when it has none, and its parameters. -/
def variableKeys (kind : BlockKind) (b : Block) : List String :=
  (if kind.namesVar then [textField b "VAR"] else []) ++
    (if kind.namesParams then b.extra.params else [])

theorem mem_variableKeys {kind : BlockKind} {b : Block} {key : String}
    (h : key ∈ kind.variableKeys b) :
    (kind.namesVar = true ∧ key = textField b "VAR") ∨ key ∈ b.extra.params := by
  unfold variableKeys at h
  rcases List.mem_append.1 h with h | h
  · split at h
    · exact .inl ⟨‹_›, List.mem_singleton.1 h⟩
    · cases h
  · split at h
    · exact .inr h
    · cases h

end BlockKind

/-- **Every variable a rule names is declared once, unless it has no name.**  For every
workspace and options, whatever the outcome of the generation: every key of a variable named by
the rule of a block reached and not disabled (`BlockKind.variableKeys`) has a name in the table
the generation ends with, and that name occurs exactly once among the names of the leading `var`
line, exactly when every such block of a kind that names its `VAR` variable, but without a
`VAR` field, finds the empty name among the used variables.  A key read from a field is always
a used variable; an absent `VAR` field is read as the empty key, which no used variable need
match. -/
theorem variables_declared_once_iff (w : Workspace) (c : Config) :
    (∀ p ∈ (Generation.run w c).2.seen, ∀ b, w.get? p = some b → b.disabled = false →
      ∀ kind, BlockKind.ofName? b.kind = some kind → ∀ key ∈ kind.variableKeys b,
        ∃ name, (Generation.run w c).2.names.lookup key .variable NameTable.global = some name ∧
          (Generation.declaredNames w c).count name = 1) ↔
    (∀ p ∈ (Generation.run w c).2.seen, ∀ b, w.get? p = some b → b.disabled = false →
      ∀ kind, BlockKind.ofName? b.kind = some kind → kind.namesVar = true →
        b.field? "VAR" = none → "" ∈ w.usedVariables) := by
  simp only [Generation.declared_once_iff_used]
  constructor
  · intro h p hp b hb hen kind hkind hvar hnone
    -- the empty key of the block is a used variable up to case, so the empty name is one
    have hkey : "" ∈ kind.variableKeys b := by
      simp [BlockKind.variableKeys, hvar, textField, hnone]
    obtain ⟨u, hu, hlow⟩ := h p hp b hb hen kind hkind "" hkey
    have hempty : Text.lower "" = "" := rfl
    rw [Text.eq_empty_of_lower (hlow.trans hempty)] at hu
    exact hu
  · intro h p hp b hb hen kind hkind key hkey
    obtain ⟨r, hr, hreach⟩ := Generation.run_seen_underRoots w c p hp
    rcases BlockKind.mem_variableKeys hkey with ⟨hvar, rfl⟩ | hparam
    · cases hfield : b.field? "VAR" with
      | none =>
        -- an absent field is read as the empty key
        exact ⟨"", h p hp b hb hen kind hkind hvar hfield, by simp [textField, hfield]⟩
      | some v =>
        exact w.usedVariables_cover hr hreach hb (by simp [Block.namesUsed, textField, hfield])
    · exact w.usedVariables_cover hr hreach hb (List.mem_append_right _ hparam)

/-- A variable block without a `VAR` field reads a variable that the output never declares: the
workspace `{"blocks": [{"type": "variables_get"}]}` generates `unnamed;`, its only block read as
the empty key, named `unnamed`, and no variable declared. -/
theorem unnamed_variable_undeclared :
    let w : Workspace := ⟨#[{ id := "b0", kind := "variables_get" }], [0], [], false⟩
    Workspace.ofJson "\x7b\"blocks\": [\x7b\"type\": \"variables_get\"\x7d]\x7d" = .ok w ∧
      (generate w {}).result = .ok "unnamed;\n" ∧ 0 ∈ (Generation.run w {}).2.seen ∧
      (Generation.run w {}).2.names.lookup "" .variable NameTable.global = some "unnamed" ∧
      "unnamed" ∉ Generation.declaredNames w {} := by
  intro w
  exact ⟨Except.eq_ok_of_toOption (by decide +kernel), by decide +kernel⟩

end BlockScribe
