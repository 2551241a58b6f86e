import BlockScribe.Proofs.Generate.Rules
import BlockScribe.Proofs.Naming.Fresh
/-!
# Generated names never collide

A generation gives out four kinds of names: those of the workspace's variables and procedures,
each named once in the global scope under its kind and its spelling without case
(`NameTable.nameFor`), those of helpers, named once in the global scope and registered
(`Registry.provide`), and those of temporaries, named in the scope of the procedure being
generated (`GenM.temporary`).  Every name given out is taken in the table, and none is ever
dropped, so the table at the end of a generation records every name it gave out.

The names of a session are apart (`Session.NamesApart`) when no reserved word is taken, no name
is taken twice in one scope or in two scopes one of which lies inside the other, and the names
of the keys and the helpers are distinct names taken in the global scope.  Every step of a
generation keeps that, on success and on failure alike (`GenM.KeepsNames`): the primitive steps
because they take only fresh names (`NameTable.isTaken_distinct`), a child scope because it is
a scope of the table inside the current one, and the rules because they are made of such steps
(`Lockstep.keepsNames`).  So the names of every generation are apart
(`generated_names_never_collide`).
-/

namespace BlockScribe

/-- Replacing an element that a partial map drops by another it drops changes nothing. -/
theorem List.filterMap_set_of_none {α β : Type} {f : α → Option β} {x : α} (hx : f x = none) :
    ∀ (l : List α) (i : Nat), (∀ h : i < l.length, f l[i] = none) →
      (l.set i x).filterMap f = l.filterMap f
  | [], _, _ => rfl
  | a :: l, 0, h => by
    have ha : f a = none := h (Nat.zero_lt_succ _)
    simp [hx, ha]
  | a :: l, i + 1, h => by
    rw [List.set_cons_succ, List.filterMap_cons, List.filterMap_cons,
      filterMap_set_of_none hx l i fun hi => h (Nat.succ_lt_succ hi)]

namespace Registry

variable {r : Registry} {key : DefinitionKey} {d : Definition}

/-- The name of a helper's definition; none for the other definitions. -/
def helperName (e : DefinitionKey × Definition) : Option String :=
  match e.1 with
  | .helper _ => some e.2.name
  | _ => none

/-- The names of the helpers, in the order of their registration. -/
def helperNames (r : Registry) : List String := r.entries.toList.filterMap helperName

theorem helperName_eq_none {e : DefinitionKey × Definition}
    (hkey : ∀ desired, e.1 ≠ .helper desired) : helperName e = none := by
  unfold helperName
  split
  · rename_i desired hdesired
    exact absurd hdesired (hkey desired)
  · rfl

/-- Registering under a key that is no helper's leaves the helpers' names. -/
theorem helperNames_insert (hkey : ∀ desired, key ≠ .helper desired) :
    (r.insert key d).1.helperNames = r.helperNames := by
  unfold insert
  split
  · -- the entry replaced is registered under the same key
    rename_i i hi
    obtain ⟨hlt, hkeyi, _⟩ := Array.findIdx?_eq_some_iff_getElem.1 hi
    have hi' : r.entries[i].1 = key := by simpa using hkeyi
    unfold helperNames
    rw [Array.toList_set!]
    refine List.filterMap_set_of_none (helperName_eq_none hkey) _ i fun h => ?_
    refine helperName_eq_none fun desired => ?_
    simpa only [Array.getElem_toList, hi'] using hkey desired
  · simp [helperNames, helperName_eq_none (e := (key, d)) hkey]

/-- Registering a helper that is not there yet adds its name last. -/
theorem helperNames_insert_helper {desired : String} (h : r.find? (.helper desired) = none) :
    (r.insert (.helper desired) d).1.helperNames = r.helperNames ++ [d.name] := by
  have hidx : r.entries.findIdx? (·.1 == DefinitionKey.helper desired) = none := by
    rw [Array.findIdx?_eq_none_iff]
    intro e he
    have hnone := Array.find?_eq_none.1 (Option.map_eq_none_iff.1 h) e he
    simpa using hnone
  simp [insert, hidx, helperNames, helperName]

@[simp] theorem helperNames_empty : Registry.empty.helperNames = [] := rfl

theorem helperNames_declareVariables (names : List String) :
    (r.declareVariables names).helperNames = r.helperNames := by
  unfold declareVariables
  split
  · rfl
  · exact helperNames_insert nofun

theorem helperNames_defineProcedure (name code : String) :
    (r.defineProcedure name code).1.helperNames = r.helperNames :=
  helperNames_insert nofun

end Registry

namespace NameTable

variable {t : NameTable} {s : Nat} {n : String} {helpers : List String}

/-- The keys named so far, each by kind and spelling without case, with its name: those of the
global scope. -/
def named (t : NameTable) : List ((NameKind × String) × String) := (t.scope global).keys

/-- Changing the scopes by a map that keeps their keys keeps the keys named. -/
theorem named_modify (f : Scope → Scope) (hf : ∀ sc, (f sc).keys = sc.keys) (s : Nat) :
    ({ t with scopes := t.scopes.modify s f } : NameTable).named = t.named := by
  unfold named
  rw [scope_eq, scope_eq, Array.getElem?_modify]
  split
  · cases t.scopes[global]? <;> simp [hf]
  · rfl

@[simp] theorem named_take (t : NameTable) (n : String) (s : Nat) :
    (t.take n s).named = t.named :=
  named_modify (fun sc => { sc with taken := sc.taken ++ [n] }) (fun _ => rfl) s

@[simp] theorem named_distinct (t : NameTable) (base : String) (s : Nat) :
    (t.distinct base s).2.named = t.named :=
  named_take t _ s

@[simp] theorem named_openScope (t : NameTable) (p : Nat) :
    (t.openScope p).2.named = t.named := by
  unfold named
  rw [scope_openScope]
  split
  · -- the new scope is the global one only when the table had no scope at all
    rename_i h
    rw [scope_of_le (Nat.le_of_eq h.symm)]
    rfl
  · rfl

/-- The keys named so far and the helpers: each key named once, and every name, of a key or of a
helper, taken in the global scope and given to nothing else. -/
structure Keyed (t : NameTable) (helpers : List String) : Prop where
  keys_nodup : (t.named.map (·.1)).Nodup
  names_nodup : (t.named.map (·.2) ++ helpers).Nodup
  names_taken : ∀ n ∈ t.named.map (·.2) ++ helpers, n ∈ (t.scope global).taken

/-- Keys and helpers stay named where the keys and the global names stay, or grow. -/
theorem Keyed.mono {t' : NameTable} (h : t.Keyed helpers) (hnamed : t'.named = t.named)
    (htaken : (t.scope global).taken ⊆ (t'.scope global).taken) : t'.Keyed helpers := by
  refine ⟨hnamed ▸ h.keys_nodup, hnamed ▸ h.names_nodup, fun n hn => ?_⟩
  rw [hnamed] at hn
  exact htaken (h.names_taken n hn)

theorem Keyed.take (h : t.Keyed helpers) (hs : s < t.scopes.size) : (t.take n s).Keyed helpers := by
  refine h.mono ?_ fun m hm => ?_
  · unfold named
    rw [scope_take hs]
    split <;> rfl
  · rw [scope_take hs]
    split
    · exact List.mem_append_left _ hm
    · exact hm

theorem Keyed.openScope (h : t.Keyed helpers) (ht : t.Shaped) (p : Nat) :
    (t.openScope p).2.Keyed helpers := by
  have hscope : (t.openScope p).2.scope global = t.scope global := by
    rw [scope_openScope, if_neg (Nat.ne_of_lt ht.global_lt)]
  refine h.mono ?_ ?_
  · unfold named
    rw [hscope]
  · rw [hscope]
    exact List.Subset.refl _

/-- The name a key gets: the one it was given, or a fresh one, recorded with the key. -/
theorem Keyed.nameFor (h : t.Keyed helpers) (ht : t.Apart) (key : String) (kind : NameKind) :
    (t.nameFor key kind global).2.Keyed helpers := by
  rw [nameFor_eq]
  split
  · exact h
  · rename_i hlookup
    -- the key has no name yet, and the fresh name is held by no scope
    rw [ht.shaped.lookup_global] at hlookup
    have hfind := List.find?_eq_none.1 (Option.map_eq_none_iff.1 hlookup)
    have hfree := distinct_not_mem t key global
    have hs := ht.shaped.global_lt
    have hs' : global < (t.distinct key global).2.scopes.size := by
      rw [size_distinct]
      exact hs
    -- the global scope after: the fresh name taken, the key recorded with it
    have hscope : ((t.distinct key global).2.addKey global
        ((kind, Text.lower key), (t.distinct key global).1)).scope global =
        { t.scope global with
          taken := (t.scope global).taken ++ [(t.distinct key global).1]
          keys := (t.scope global).keys ++ [((kind, Text.lower key), (t.distinct key global).1)] } := by
      rw [scope_addKey hs', if_pos rfl, scope_distinct hs]
    have hnew : (t.distinct key global).1 ∉ t.named.map (·.2) ++ helpers := fun hm =>
      hfree (h.names_taken _ hm)
    refine ⟨?_, ?_, fun m hm => ?_⟩
    · unfold named
      rw [hscope, List.map_append, List.nodup_append]
      refine ⟨h.keys_nodup, List.nodup_singleton _, fun a ha b hb hab => ?_⟩
      rw [List.mem_singleton.1 hb] at hab
      obtain ⟨e, he, rfl⟩ := List.mem_map.1 ha
      exact hfind e he (by simpa using hab)
    · unfold named
      rw [hscope, List.map_append, List.map_cons, List.map_nil, List.append_assoc,
        List.singleton_append, List.nodup_middle]
      exact List.nodup_cons.2 ⟨hnew, h.names_nodup⟩
    · unfold named at hm
      rw [hscope] at hm ⊢
      simp only [List.map_append, List.map_cons, List.map_nil, List.mem_append,
        List.mem_singleton] at hm ⊢
      rcases hm with (hm | rfl) | hm
      · exact .inl (h.names_taken m (List.mem_append_left _ hm))
      · exact .inr rfl
      · exact .inl (h.names_taken m (List.mem_append_right _ hm))

/-- Two keys named so far are the same key exactly when they have the same name. -/
theorem Keyed.key_eq_iff (h : t.Keyed helpers) {e₁ e₂ : (NameKind × String) × String}
    (he₁ : e₁ ∈ t.named) (he₂ : e₂ ∈ t.named) : e₁.1 = e₂.1 ↔ e₁.2 = e₂.2 := by
  have hnames : (t.named.map (·.2)).Nodup := List.Nodup.of_append_left h.names_nodup
  constructor
  · intro hkey
    rw [List.inj_on_of_nodup_map h.keys_nodup he₁ he₂ hkey]
  · intro hname
    rw [List.inj_on_of_nodup_map hnames he₁ he₂ hname]

/-- A fresh global name for a new helper. -/
theorem Keyed.addHelper (h : t.Keyed helpers) (ht : t.Apart) (desired : String) :
    (t.distinct desired global).2.Keyed (helpers ++ [(t.distinct desired global).1]) := by
  have hs := ht.shaped.global_lt
  have hfree := distinct_not_mem t desired global
  have hscope := scope_distinct hs desired
  have hnamed : (t.distinct desired global).2.named = t.named := by
    unfold named
    rw [hscope]
  refine ⟨hnamed ▸ h.keys_nodup, ?_, fun m hm => ?_⟩
  · rw [hnamed, ← List.append_assoc, List.nodup_append]
    refine ⟨h.names_nodup, List.nodup_singleton _, fun a ha b hb hab => ?_⟩
    rw [List.mem_singleton.1 hb] at hab
    exact hfree (hab ▸ h.names_taken a ha)
  · rw [hnamed, ← List.append_assoc, List.mem_append] at hm
    rw [hscope, List.mem_append]
    rcases hm with hm | hm
    · exact .inl (h.names_taken m hm)
    · exact .inr hm

end NameTable

/-- The names a session has given out are apart: the reserved words are `R`, none of them is
taken, no name is taken twice in one scope or in two scopes one of which lies inside the other,
and the keys and the helpers are named by distinct names of the global scope. -/
structure Session.NamesApart (R : List String) (s : Session) : Prop where
  reserved : s.names.reserved = R
  table : s.names.Apart
  keyed : s.names.Keyed s.registry.helperNames

theorem Session.NamesApart.of_eq {R : List String} {s t : Session} (h : s.NamesApart R)
    (hnames : t.names = s.names) (hregistry : t.registry = s.registry) : t.NamesApart R := by
  refine ⟨?_, ?_, ?_⟩
  · rw [hnames]
    exact h.reserved
  · rw [hnames]
    exact h.table
  · rw [hnames, hregistry]
    exact h.keyed

namespace GenM

/-- A step that keeps the names apart: from every session whose names are apart, in a scope of
its table, it ends in such a session, whatever its outcome. -/
def KeepsNames (R : List String) {α : Type} (ctx : Context) (m : GenM α) : Prop :=
  ∀ s, s.NamesApart R → ctx.scope < s.names.scopes.size →
    (m.exec ctx s).2.NamesApart R ∧ ctx.scope < (m.exec ctx s).2.names.scopes.size

namespace KeepsNames

variable {R : List String} {α β : Type} {ctx : Context}

/-- A step that changes neither the names nor the registry. -/
theorem of_eq {m : GenM α} (hnames : ∀ s, (m.exec ctx s).2.names = s.names)
    (hregistry : ∀ s, (m.exec ctx s).2.registry = s.registry) : KeepsNames R ctx m :=
  fun s hs hscope => ⟨hs.of_eq (hnames s) (hregistry s), hnames s ▸ hscope⟩

theorem pure (a : α) : KeepsNames R ctx (Pure.pure a) := of_eq (fun _ => rfl) fun _ => rfl

theorem throw (e : GenerateError) : KeepsNames R ctx (MonadExcept.throw e : GenM α) :=
  of_eq (fun _ => rfl) fun _ => rfl

theorem read : KeepsNames R ctx (read : GenM Context) := of_eq (fun _ => rfl) fun _ => rfl

theorem get : KeepsNames R ctx (get : GenM Session) := of_eq (fun _ => rfl) fun _ => rfl

theorem emit (e : Event) : KeepsNames R ctx (emit e) := of_eq (fun _ => rfl) fun _ => rfl

theorem kindOf (b : Block) : KeepsNames R ctx (kindOf b) :=
  of_eq (fun s => by rw [exec_kindOf_snd]) fun s => by rw [exec_kindOf_snd]

theorem visit (i : Nat) (b : Block) : KeepsNames R ctx (visit i b) :=
  of_eq (fun s => by rw [exec_visit]; split <;> rfl) fun s => by rw [exec_visit]; split <;> rfl

theorem bind {m : GenM β} {k : β → GenM α} (hm : KeepsNames R ctx m)
    (hk : ∀ b, KeepsNames R ctx (k b)) : KeepsNames R ctx (m >>= k) := fun s hs hscope => by
  rw [exec_bind]
  rcases hrun : m.exec ctx s with ⟨_ | b, t⟩
  · have h := hm s hs hscope
    rw [hrun] at h
    exact h
  · have h := hm s hs hscope
    rw [hrun] at h
    exact hk b t h.1 h.2

theorem block_bind {i : Nat} {k : Block → GenM α} (hk : ∀ b, KeepsNames R ctx (k b)) :
    KeepsNames R ctx (block i >>= k) :=
  .bind (of_eq (fun s => by rw [exec_block_snd]) fun s => by rw [exec_block_snd]) hk

theorem map {m : GenM β} (f : β → α) (hm : KeepsNames R ctx m) : KeepsNames R ctx (f <$> m) := by
  rw [← bind_pure_comp]
  exact .bind hm fun _ => .pure _

theorem mapM {γ : Type} {f : γ → GenM α} (hf : ∀ x, KeepsNames R ctx (f x)) :
    ∀ xs : List γ, KeepsNames R ctx (xs.mapM f)
  | [] => .pure _
  | x :: xs => by
    rw [List.mapM_cons]
    exact .bind (hf x) fun _ => .bind (mapM hf xs) fun _ => .pure _

theorem withReader {f : Context → Context} {m : GenM α} (hf : (f ctx).scope = ctx.scope)
    (hm : KeepsNames R (f ctx) m) : KeepsNames R ctx (withReader f m) := fun s hs hscope => by
  rw [exec_withReader]
  rw [← hf] at hscope ⊢
  exact hm s hs hscope

/-- Opening a child scope: the table gets a new scope inside the current one, empty. -/
theorem openScope {s : Session} (hs : s.NamesApart R) (hscope : ctx.scope < s.names.scopes.size) :
    ({ s with names := (s.names.openScope ctx.scope).2 } : Session).NamesApart R :=
  ⟨hs.reserved, hs.table.openScope hscope, hs.keyed.openScope hs.table.shaped ctx.scope⟩

theorem temporary (base : String) : KeepsNames R ctx (temporary base) := fun s hs hscope => by
  rw [exec_temporary]
  refine ⟨⟨hs.reserved, hs.table.distinct hscope base, hs.keyed.take hscope⟩, ?_⟩
  rw [NameTable.size_distinct]
  exact hscope

theorem nameFor (key : String) (kind : NameKind) {s : Session} (hs : s.NamesApart R) :
    ({ s with names := (s.names.nameFor key kind NameTable.global).2 } : Session).NamesApart R := by
  refine ⟨?_, hs.table.nameFor hs.table.shaped.global_lt key kind,
    hs.keyed.nameFor hs.table key kind⟩
  rw [← hs.reserved, NameTable.nameFor_eq]
  split <;> rfl

theorem size_nameFor (t : NameTable) (key : String) (kind : NameKind) (s : Nat) :
    (t.nameFor key kind s).2.scopes.size = t.scopes.size := by
  rw [NameTable.nameFor_eq]
  split
  · rfl
  · rw [NameTable.size_addKey, NameTable.size_distinct]

theorem variableName (key : String) : KeepsNames R ctx (variableName key) := fun s hs hscope => by
  rw [exec_variableName]
  exact ⟨nameFor key .variable hs, by rw [size_nameFor]; exact hscope⟩

theorem procedureName (key : String) : KeepsNames R ctx (procedureName key) := fun s hs hscope => by
  rw [exec_procedureName]
  exact ⟨nameFor key .procedure hs, by rw [size_nameFor]; exact hscope⟩

/-- A helper is named once, by a fresh global name, and registered with it. -/
theorem provide (desired : String) (lines : List String) :
    KeepsNames R ctx (provide desired lines) := fun s hs hscope => by
  rw [exec_provide]
  unfold Registry.provide
  rcases hfind : s.registry.find? (.helper desired) with _ | d
  · dsimp only
    have hhelpers := Registry.helperNames_insert_helper
      (d := ⟨(s.names.distinct desired NameTable.global).1, reindent (Text.replace
        ("\n".intercalate lines) helperNamePlaceholder (s.names.distinct desired NameTable.global).1)
        ctx.config.indent⟩) hfind
    refine ⟨⟨hs.reserved, hs.table.distinct hs.table.shaped.global_lt desired, ?_⟩, ?_⟩
    · dsimp only
      rw [hhelpers]
      exact hs.keyed.addHelper hs.table desired
    · rw [NameTable.size_distinct]
      exact hscope
  · exact ⟨hs.of_eq rfl rfl, hscope⟩

theorem defineProcedure (name code : String) : KeepsNames R ctx (defineProcedure name code) :=
  fun s hs hscope => by
    rw [exec_defineProcedure]
    refine ⟨⟨hs.reserved, hs.table, ?_⟩, hscope⟩
    dsimp only
    rw [Registry.helperNames_defineProcedure]
    exact hs.keyed

theorem prim {m : GenM α} (hm : Prim m) : KeepsNames R ctx m := by
  cases hm with
  | read => exact .read
  | temporary base => exact .temporary base
  | variableName key => exact .variableName key
  | procedureName key => exact .procedureName key
  | provide desired lines => exact .provide desired lines
  | defineProcedure name code => exact .defineProcedure name code
  | choose b field options =>
    refine of_eq (fun s => ?_) fun s => ?_ <;>
    · rw [exec_choose]
      split
      · rfl
      · split <;> rfl
  | surroundingLoop => exact of_eq (fun _ => rfl) fun _ => rfl
  | invalidField node kind field value => exact .throw _

end KeepsNames

end GenM

open GenM

/-- The outcome of a step that keeps the names, run in a scope no outer than that of `ctx`: on
success the names are apart in that scope, on failure in the scope of `ctx`. -/
theorem KeepsNames.holds {R : List String} {ctx ctx' : Context} {α : Type} {m : GenM α}
    (hm : KeepsNames R ctx' m) {s : Session} (hs : s.NamesApart R)
    (hscope : ctx'.scope < s.names.scopes.size) (hle : ctx.scope ≤ ctx'.scope) (B : List Slot) :
    Holds (fun _ ctx'' t => t.NamesApart R ∧ ctx''.scope < t.names.scopes.size ∧
        ctx.scope ≤ ctx''.scope)
      (fun _ t => t.NamesApart R ∧ ctx.scope < t.names.scopes.size) B ctx' (m.exec ctx' s) := by
  have hkeep := hm s hs hscope
  rcases hrun : m.exec ctx' s with ⟨_ | _, t⟩
  · rw [hrun] at hkeep
    exact ⟨hkeep.1, Nat.lt_of_le_of_lt hle hkeep.2⟩
  · rw [hrun] at hkeep
    exact ⟨hkeep.1, hkeep.2, hle⟩

/-- **A rule keeps the names apart where its children do.** -/
theorem Lockstep.keepsNames {R : List String} {ch : Children} {ctx : Context}
    (hv : ∀ slot order ctx', KeepsNames R ctx' (ch.value slot order))
    (hb : ∀ slot ctx', KeepsNames R ctx' (ch.body slot))
    {α : Type} {A B : List Slot} {m₁ m₂ : GenM α} (h : Lockstep ch ch A m₁ m₂ B) :
    KeepsNames R ctx m₁ := by
  -- the invariant: the names are apart, in a scope of the table no outer than that of `ctx`
  let I : Invariant ch ch :=
    { P := fun _ ctx' s => s.NamesApart R ∧ ctx'.scope < s.names.scopes.size ∧
        ctx.scope ≤ ctx'.scope
      E := fun _ t => t.NamesApart R ∧ ctx.scope < t.names.scopes.size
      mono := fun _ h => h
      prim := @fun _ _ hm _ _ _ hP => KeepsNames.holds (.prim hm) hP.1 hP.2.1 hP.2.2 _
      value := fun slot order _ ctx' _ hP =>
        ⟨rfl, KeepsNames.holds (hv slot order ctx') hP.1 hP.2.1 hP.2.2 _⟩
      body := fun slot _ ctx' _ hP => ⟨rfl, KeepsNames.holds (hb slot ctx') hP.1 hP.2.1 hP.2.2 _⟩
      -- the child scope is the newest of the table, inside the current one
      enter := fun hP => by
        refine ⟨KeepsNames.openScope hP.1 hP.2.1, ?_, ?_⟩
        · simp [NameTable.openScope]
        · have hle := hP.2.2
          have hscope := hP.2.1
          simp only [NameTable.openScope]
          omega
      leave := fun hP hQ => by
        refine ⟨hQ.1, ?_, hP.2.2⟩
        have hscope := hP.2.1
        have hinner := hQ.2.1
        simp only [NameTable.openScope] at hinner
        omega }
  intro s hs hscope
  have hholds := (h.agree I ctx s ⟨hs, hscope, Nat.le_refl _⟩).2
  revert hholds
  rcases m₁.exec ctx s with ⟨_ | _, t⟩
  · exact id
  · exact fun hP => ⟨hP.1, hP.2.1⟩

namespace Generation

variable {R : List String}

mutual

theorem keepsNames_valueCode : ∀ (f : Nat) (parent : Block) (slot : String) (outer : Order)
    (ctx : Context), KeepsNames R ctx (valueCode f parent slot outer)
  | 0, _, _, _, _ => .throw _
  | f + 1, parent, slot, outer, ctx => by
    unfold valueCode
    split
    · exact .pure _
    · rename_i i _
      refine .block_bind fun b => .bind (.visit i b) fun _ => ?_
      split
      · exact .pure _
      · refine .bind (keepsNames_dispatch f b ctx) fun ⟨_, out⟩ => ?_
        cases out with
        | value => exact .pure _
        | statement => exact .throw _
        | hoisted => exact .pure _

theorem keepsNames_bodyCode : ∀ (f : Nat) (parent : Block) (slot : String) (ctx : Context),
    KeepsNames R ctx (bodyCode f parent slot)
  | 0, _, _, _ => .throw _
  | f + 1, parent, slot, ctx => by
    unfold bodyCode
    split
    · exact .pure _
    · rename_i j _
      exact .bind (keepsNames_chainCode f j ctx) fun _ => .bind .read fun _ => .pure _

theorem keepsNames_chainCode : ∀ (f : Nat) (i : Nat) (ctx : Context),
    KeepsNames R ctx (chainCode f i)
  | 0, _, _ => .throw _
  | f + 1, i, ctx => by
    unfold chainCode
    refine .block_bind fun b => .bind (.visit i b) fun _ => ?_
    refine .bind (?_ : KeepsNames R ctx (if b.disabled then _ else _)) fun _ => ?_
    · split
      · exact .pure _
      · exact keepsNames_statementCode f b ctx
    · split
      · rename_i j _
        exact .bind (keepsNames_chainCode f j ctx) fun _ => .pure _
      · exact .pure _

theorem keepsNames_statementCode : ∀ (f : Nat) (b : Block) (ctx : Context),
    KeepsNames R ctx (statementCode f b)
  | 0, _, _ => .throw _
  | f + 1, b, ctx => by
    unfold statementCode
    refine .bind (keepsNames_dispatch f b ctx) fun ⟨_, out⟩ => ?_
    cases out with
    | value => exact .throw _
    | statement => exact .bind .read fun _ => .pure _
    | hoisted => exact .pure _

theorem keepsNames_dispatch : ∀ (f : Nat) (b : Block) (ctx : Context),
    KeepsNames R ctx (dispatch f b)
  | 0, _, _ => .throw _
  | f + 1, b, ctx => by
    unfold dispatch
    refine .bind (.kindOf b) fun kind => .bind (.emit _) fun _ => .bind ?_ fun _ => .pure _
    obtain ⟨_, hlock⟩ :=
      kind.rule_lockstep ⟨valueCode f b, bodyCode f b⟩ ⟨valueCode f b, bodyCode f b⟩ b
    -- the rule runs with `b` among the ancestors, in the same scope
    exact .withReader rfl (Lockstep.keepsNames (fun slot order ctx' =>
      keepsNames_valueCode f b slot order ctx') (fun slot ctx' =>
      keepsNames_bodyCode f b slot ctx') hlock)

end

theorem keepsNames_rootCode (f i : Nat) (ctx : Context) : KeepsNames R ctx (rootCode f i) := by
  unfold rootCode
  refine .block_bind fun b => .bind ?_ fun _ => ?_
  · split
    · exact .pure _
    · exact .map _ (.kindOf b)
  · split
    · exact keepsNames_chainCode f i ctx
    · refine .bind (.visit i b) fun _ => ?_
      refine .bind (keepsNames_dispatch f b ctx) fun ⟨_, out⟩ => ?_
      cases out with
      | value => exact .bind .read fun _ => .pure _
      | statement => exact .pure _
      | hoisted => exact .pure _

theorem keepsNames_program (f : Nat) (w : Workspace) (ctx : Context) :
    KeepsNames R ctx (program f w) := by
  unfold program body
  refine .bind (.bind (.mapM (fun i => keepsNames_rootCode f i ctx) w.roots) fun _ => .pure _) fun _ => ?_
  exact .bind .get fun _ => .bind (.emit _) fun _ => .pure _

/-- A generation starts with the workspace's variables named, and no helper. -/
theorem start_namesApart (w : Workspace) (c : Config) :
    (start w c).NamesApart (reservedWords ++ c.reservedWords) := by
  -- naming the variables one after the other keeps the names apart
  have hfold : ∀ (vs : List String) (acc : List String) (t : NameTable),
      t.reserved = reservedWords ++ c.reservedWords → t.Apart → t.Keyed [] →
      let r := vs.foldl (fun p v =>
        ((p.1 ++ [(p.2.nameFor v .variable NameTable.global).1]),
          (p.2.nameFor v .variable NameTable.global).2)) (acc, t)
      r.2.reserved = reservedWords ++ c.reservedWords ∧ r.2.Apart ∧ r.2.Keyed [] := by
    intro vs
    induction vs with
    | nil => exact fun _ _ hr ht hk => ⟨hr, ht, hk⟩
    | cons v vs ih =>
      intro acc t hr ht hk
      have hnamed := KeepsNames.nameFor (R := reservedWords ++ c.reservedWords) v .variable
        (s := ⟨t, Registry.empty, [], #[]⟩) ⟨hr, ht, hk⟩
      exact ih _ _ hnamed.reserved hnamed.table hnamed.keyed
  have hcreate : (NameTable.create c.reservedWords).Keyed [] :=
    ⟨List.nodup_nil, List.nodup_nil, fun _ hn => absurd hn List.not_mem_nil⟩
  obtain ⟨hr, ht, hk⟩ := hfold w.usedVariables [] _ rfl (NameTable.create_apart c.reservedWords) hcreate
  refine ⟨hr, ht, ?_⟩
  unfold start
  dsimp only
  rw [Registry.helperNames_declareVariables, Registry.helperNames_empty]
  exact hk

/-- The names of a whole generation are apart, whatever its outcome. -/
theorem run_namesApart (w : Workspace) (c : Config) :
    (run w c).2.NamesApart (reservedWords ++ c.reservedWords) :=
  (keepsNames_program (fuel w) w (context w c) (start w c) (start_namesApart w c)
    (start_namesApart w c).table.shaped.global_lt).1

end Generation

/-- **Generated names never collide.**  For every workspace and options, of the names that a
whole generation gave out, whatever its outcome: none is a reserved word, built in or of the
options; two keys of variables or procedures, by kind and spelling without case, have the same
name exactly when they are the same key; the keys and the helpers have names that differ from
each other, taken in the global scope; a name of a scope other than the global one, that of a
temporary, is no key's or helper's name; no scope takes a name twice; every scope lies inside
the global one; and a name taken in two scopes is taken in scopes neither of which lies inside
the other. -/
theorem generated_names_never_collide (w : Workspace) (c : Config) :
    let t := (Generation.run w c).2.names
    let helpers := (Generation.run w c).2.registry.helperNames
    (∀ d, ∀ n ∈ (t.scope d).taken, n ∉ reservedWords ++ c.reservedWords) ∧
      (∀ e₁ ∈ t.named, ∀ e₂ ∈ t.named, e₁.1 = e₂.1 ↔ e₁.2 = e₂.2) ∧
      (t.named.map (·.2) ++ helpers).Nodup ∧
      (∀ n ∈ t.named.map (·.2) ++ helpers, n ∈ (t.scope NameTable.global).taken) ∧
      (∀ d, d ≠ NameTable.global → ∀ n ∈ (t.scope d).taken, n ∉ t.named.map (·.2) ++ helpers) ∧
      (∀ d, ((t.scope d).taken).Nodup) ∧
      (∀ d < t.scopes.size, NameTable.global ∈ t.ancestors d) ∧
      ∀ d₁ d₂, d₁ ≠ d₂ → ∀ n ∈ (t.scope d₁).taken, n ∈ (t.scope d₂).taken →
        d₁ ∉ t.ancestors d₂ ∧ d₂ ∉ t.ancestors d₁ := by
  intro t helpers
  have h : (Generation.run w c).2.NamesApart (reservedWords ++ c.reservedWords) :=
    Generation.run_namesApart w c
  refine ⟨fun d n hn => ?_, fun e₁ he₁ e₂ he₂ => h.keyed.key_eq_iff he₁ he₂, h.keyed.names_nodup,
    h.keyed.names_taken, fun d hd n hn hnamed => ?_, h.table.taken_nodup,
    fun d hd => h.table.shaped.global_mem_ancestors hd,
    fun d₁ d₂ hne n hn₁ hn₂ => h.table.unrelated hne hn₁ hn₂⟩
  · rw [← h.reserved]
    exact h.table.not_reserved d n hn
  · -- a temporary of a procedure's scope is held apart from the global scope
    exact h.table.not_mem_global hd hn (h.keyed.names_taken n hnamed)

end BlockScribe
