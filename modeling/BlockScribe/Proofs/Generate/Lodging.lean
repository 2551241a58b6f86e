import BlockScribe.Proofs.Generate.Marks
import BlockScribe.Proofs.Generate.Names
import BlockScribe.Proofs.Naming.Registry
import BlockScribe.Proofs.Generate.InlineKeys
/-!
# Where the code of a reached block goes

The code of a block is placed in the code of the block around it, and so on outward, until it
reaches a root, or a procedure definition, whose code goes to the registry instead of standing
in place.  A step of generation is described by what it did with the blocks it reached: for each
such block `k`, with the blocks `τ` between the step and `k`, which a function `π` names with the
blocks around the step after them (`Workspace.Settled`),
* if no procedure definition is among `k` and `τ`, the instrumentation of `k` is held in one of
  the texts the step handed back (`Instrumented`);
* otherwise it is held in the registered code of the innermost one, `h`
  (`Workspace.Registered`), unless another definition of the same name registered after `h`
  (`Workspace.Overwrites`).

`Workspace.Kept` adds what a step does to the rest of the session: the reached blocks grow, the
names given to keys stay, and a procedure's registered code changes only when a definition
reached in the step registers the same name.  Steps that follow each other compose
(`Workspace.Kept.trans`), each giving the blocks around those it reached (`Workspace.joinPaths`):
a definition reached later that replaces a registered procedure registers after it, and the
procedure does not lie around it, since the blocks around it were reached before the later step
or in it.  No block is reached twice, which makes the steps that reached a block one.

`GenM.Lodges` is the Hoare-style form of this for the rules: from a context that fits the blocks
around and a session whose names are apart, a step that succeeds keeps its session `Kept` and
its result satisfies a postcondition that also constrains the texts it handed back.
-/

namespace BlockScribe

namespace NameTable

variable {t : NameTable}

/-- Naming a key in the global scope keeps the keys named so far, and names the key with the
name it hands back. -/
theorem named_nameFor (h : t.Shaped) (key : String) (kind : NameKind) :
    (∀ e ∈ t.named, e ∈ (t.nameFor key kind global).2.named) ∧
      ((kind, Text.lower key), (t.nameFor key kind global).1) ∈
        (t.nameFor key kind global).2.named := by
  rw [nameFor_eq]
  split
  · rename_i n hlookup
    -- the key has its name in the global scope already
    rw [h.lookup_global] at hlookup
    obtain ⟨⟨k, n'⟩, he, hn⟩ := Option.map_eq_some_iff.1 hlookup
    have hk : k = (kind, Text.lower key) := by simpa using List.find?_some he
    subst hk
    subst hn
    exact ⟨fun e he => he, List.mem_of_find?_eq_some he⟩
  · have hs : global < (t.distinct key global).2.scopes.size := by
      rw [size_distinct]
      exact h.global_lt
    have hadd : ((t.distinct key global).2.addKey global
        ((kind, Text.lower key), (t.distinct key global).1)).named =
        (t.distinct key global).2.named ++ [((kind, Text.lower key), (t.distinct key global).1)] := by
      unfold named
      rw [scope_addKey hs, if_pos rfl]
    rw [hadd, NameTable.distinct, named_take]
    exact ⟨fun e he => List.mem_append_left _ he, List.mem_append_right _ (List.mem_singleton_self _)⟩

end NameTable

namespace Workspace

variable (w : Workspace) (c : Config)

/-- The procedure of the definition at `h` is registered under the name of its key, with code in
which `M` holds. -/
def Registered (t : Session) (h : Nat) (M : List Char → Prop) : Prop :=
  ∃ bh N d, w.get? h = some bh ∧ (bh.procedureKey, N) ∈ t.names.named ∧
    t.registry.find? (.procedure N) = some d ∧ M d.code.toList

/-- Where the code of the block at `k` went, reached by a step from `s` to `t` run with the
blocks `σ` around it, and handing back `texts`: `π` gives the blocks around it, those `τ`
between the step and it, then `σ`. -/
def Settled (π : Nat → List Nat) (σ : List Nat) (s t : Session) (texts : List (List Char))
    (k : Nat) : Prop :=
  ∃ τ, π k = τ ++ σ ∧ w.Within k (τ ++ σ) ∧ (∀ j ∈ τ, j ∈ t.seen ∧ j ∉ s.seen) ∧
    ∀ b K, w.get? k = some b → b.disabled = false → BlockKind.ofName? b.kind = some K →
      (K.isValue = false ∨ τ ++ σ = []) →
      (w.home (k :: τ) = none → ∃ x ∈ texts, Instrumented c (w.blocksAt (τ ++ σ)) b K x) ∧
      ∀ h, w.home (k :: τ) = some h →
        w.Registered t h (Instrumented c (w.blocksAt (τ ++ σ)) b K) ∨ ∃ D, w.Overwrites π t.seen h D

/-- A step from `s` to `t` run with the blocks `σ` around it, handing back `texts`: the blocks it
reached are settled, with the blocks around them that `π` gives, the keys named stay named, and
a registered procedure changes only where a definition it reached registers the same name. -/
structure Kept (π : Nat → List Nat) (σ : List Nat) (s t : Session) (texts : List (List Char)) :
    Prop where
  grows : ∃ new, t.seen = new ++ s.seen
  settled : ∀ k ∈ t.seen, k ∉ s.seen → w.Settled c π σ s t texts k
  named : ∀ e ∈ s.names.named, e ∈ t.names.named
  frame : ∀ N d, s.registry.find? (.procedure N) = some d →
    t.registry.find? (.procedure N) = some d ∨ ∃ D bD, D ∈ t.seen ∧ D ∉ s.seen ∧
      w.get? D = some bD ∧ w.definesAt D = true ∧ (bD.procedureKey, N) ∈ t.names.named

variable {w c} {π π₁ π₂ : Nat → List Nat} {σ : List Nat} {s s₁ t : Session}
  {texts T₁ T₂ : List (List Char)}

theorem Registered.mono {h : Nat} {M M' : List Char → Prop} (hr : w.Registered t h M)
    (hM : ∀ x, M x → M' x) : w.Registered t h M' := by
  obtain ⟨bh, N, d, hget, hnamed, hfind, hd⟩ := hr
  exact ⟨bh, N, d, hget, hnamed, hfind, hM _ hd⟩

/-- An overwriting stays one as more blocks are reached. -/
theorem Overwrites.grow {seen seen' : List Nat} {h D : Nat} (ho : w.Overwrites π seen h D)
    (hgrow : ∃ new, seen' = new ++ seen) : w.Overwrites π seen' h D := by
  obtain ⟨new, rfl⟩ := hgrow
  obtain ⟨hne, hD, hdef, hkey, hafter⟩ := ho
  refine ⟨hne, List.mem_append_right _ hD, hdef, hkey, ?_⟩
  rcases hafter with hinside | ⟨hsub, hout⟩
  · exact .inl hinside
  · exact .inr ⟨hsub.trans (List.sublist_append_right new seen), hout⟩

/-- An overwriting read with other blocks around: the same around `h`, and, where `D` is reached
after `h`, still none around `D` that is `h`. -/
theorem Overwrites.congr {π' : Nat → List Nat} {seen : List Nat} {h D : Nat}
    (ho : w.Overwrites π seen h D) (hh : π' h = π h)
    (hD : [D, h].Sublist seen → h ∉ π D → h ∉ π' D) : w.Overwrites π' seen h D := by
  obtain ⟨hne, hDs, hdef, hkey, hafter⟩ := ho
  refine ⟨hne, hDs, hdef, hkey, ?_⟩
  rcases hafter with hinside | ⟨hsub, hout⟩
  · exact .inl (by rwa [hh])
  · exact .inr ⟨hsub, hD hsub hout⟩

/-- An overwriting of blocks reached under `i`, where `σ`, which holds neither, is put around
`i`. -/
theorem Overwrites.update {seen : List Nat} {h D i : Nat} (ho : w.Overwrites π seen h D)
    (hhi : h ≠ i) (hσ : h ∉ σ) : w.Overwrites (Function.update π i σ) seen h D :=
  ho.congr (Function.update_of_ne hhi σ π) fun _ hout => by
    by_cases hD : D = i
    · subst hD
      rwa [Function.update_self]
    · rwa [Function.update_of_ne hD]

/-- The blocks around each block reached in two steps, the first of which ends with the blocks
`seen` reached: those the first step gives for the blocks reached by then, and those the second
gives for the others. -/
def joinPaths (seen : List Nat) (π₁ π₂ : Nat → List Nat) (k : Nat) : List Nat :=
  if k ∈ seen then π₁ k else π₂ k

/-- Where no block is reached twice, a block reached after one that a step reached was reached
in that step too. -/
theorem not_mem_of_pair_sublist {A B : List Nat} {D h : Nat} (hnd : (A ++ B).Nodup)
    (hsub : [D, h].Sublist (A ++ B)) (hh : h ∉ B) : D ∉ B := by
  obtain ⟨l₁, l₂, heq, h₁, h₂⟩ := List.sublist_append_iff.1 hsub
  have hD : D ∈ A := by
    rcases l₁ with _ | ⟨x, _ | ⟨y, l₁⟩⟩
    · rw [List.nil_append] at heq
      exact absurd (h₂.subset (by rw [← heq]; simp)) hh
    · obtain ⟨-, rfl⟩ : D = x ∧ [h] = l₂ := by simpa using heq
      exact absurd (h₂.subset (by simp)) hh
    · obtain ⟨rfl, -⟩ : D = x ∧ h = y ∧ l₁ ++ l₂ = [] := by simpa using heq
      exact h₁.subset (by simp)
  exact List.disjoint_of_nodup_append hnd hD

namespace Kept

theorem refl (π : Nat → List Nat) (σ : List Nat) (s : Session) (texts : List (List Char)) :
    w.Kept c π σ s s texts where
  grows := ⟨[], rfl⟩
  settled _ hk hk' := absurd hk hk'
  named _ he := he
  frame _ _ hd := .inl hd

/-- A step that reaches nothing, names no key anew and registers no procedure. -/
theorem of_seen (hseen : t.seen = s.seen) (hnamed : ∀ e ∈ s.names.named, e ∈ t.names.named)
    (hreg : ∀ N, t.registry.find? (.procedure N) = s.registry.find? (.procedure N)) :
    w.Kept c π σ s t texts where
  grows := ⟨[], by rw [hseen, List.nil_append]⟩
  settled _ hk hk' := absurd (hseen ▸ hk) hk'
  named := hnamed
  frame N _ hd := .inl (by rw [hreg N, hd])

/-- **A procedure registered before a step stays registered, or is overwritten** by a
definition the step reached: that definition registers after it, since it is reached after it,
and the procedure does not lie around it, since the blocks around it were reached in the step or
are around the step. -/
theorem registered (h₂ : w.Kept c π₂ σ s₁ t texts) (π₁ : Nat → List Nat)
    (hkeyed : ∃ helpers, t.names.Keyed helpers) {h : Nat} {M : List Char → Prop}
    (hh : h ∈ s₁.seen) (hσ : h ∉ σ) (hr : w.Registered s₁ h M) :
    w.Registered t h M ∨ ∃ D, w.Overwrites (joinPaths s₁.seen π₁ π₂) t.seen h D := by
  obtain ⟨bh, N, d, hget, hnamed, hfind, hd⟩ := hr
  rcases h₂.frame N d hfind with hkept | ⟨D, bD, hDt, hDs, hgetD, hdef, hnamedD⟩
  · exact .inl ⟨bh, N, d, hget, h₂.named _ hnamed, hkept, hd⟩
  · refine .inr ⟨D, fun hDh => hDs (hDh ▸ hh), hDt, hdef, ⟨bh, bD, hget, hgetD, ?_⟩,
      .inr ⟨?_, ?_⟩⟩
    · -- one name, so one key
      obtain ⟨helpers, hk⟩ := hkeyed
      exact (hk.key_eq_iff hnamedD (h₂.named _ hnamed)).2 rfl
    · obtain ⟨new, hnew⟩ := h₂.grows
      rw [hnew] at hDt ⊢
      have hDnew : D ∈ new := (List.mem_append.1 hDt).resolve_right hDs
      exact (List.singleton_sublist.2 hDnew).append (List.singleton_sublist.2 hh)
    · -- the blocks around `D` are those between the step and `D`, and those around the step
      obtain ⟨τ, hπ, -, hτ, -⟩ := h₂.settled D hDt hDs
      rw [joinPaths, if_neg hDs, hπ]
      intro hhσ'
      rcases List.mem_append.1 hhσ' with hhτ | hhσ''
      · exact (hτ h hhτ).2 hh
      · exact hσ hhσ''

/-- **Steps compose.**  What the first step reached stays settled through the second, and what
the second reached was reached after the first began; each has the blocks around it that the
step which reached it gives. -/
theorem trans (hnd : t.seen.Nodup) (hσ : ∀ j ∈ σ, j ∈ s.seen)
    (hkeyed : ∃ helpers, t.names.Keyed helpers) (h₁ : w.Kept c π₁ σ s s₁ T₁)
    (h₂ : w.Kept c π₂ σ s₁ t T₂) : w.Kept c (joinPaths s₁.seen π₁ π₂) σ s t (T₁ ++ T₂) := by
  obtain ⟨new₁, hnew₁⟩ := h₁.grows
  obtain ⟨new₂, hnew₂⟩ := h₂.grows
  have hsub : ∀ j ∈ s.seen, j ∈ s₁.seen := fun j hj => by
    rw [hnew₁]
    exact List.mem_append_right _ hj
  have hsub₂ : ∀ j ∈ s₁.seen, j ∈ t.seen := fun j hj => by
    rw [hnew₂]
    exact List.mem_append_right _ hj
  refine ⟨⟨new₂ ++ new₁, by rw [hnew₂, hnew₁, List.append_assoc]⟩, fun k hk hks => ?_,
    fun e he => h₂.named _ (h₁.named _ he), fun N d hd => ?_⟩
  · by_cases hk₁ : k ∈ s₁.seen
    · -- reached in the first step
      obtain ⟨τ, hπ, hwithin, hτ, hsettled⟩ := h₁.settled k hk₁ hks
      refine ⟨τ, by rw [joinPaths, if_pos hk₁, hπ], hwithin,
        fun j hj => ⟨hsub₂ j (hτ j hj).1, (hτ j hj).2⟩, fun b K hb hen hK hv => ?_⟩
      obtain ⟨hnone, hsome⟩ := hsettled b K hb hen hK hv
      refine ⟨fun hh => ?_, fun h hh => ?_⟩
      · obtain ⟨x, hx, hm⟩ := hnone hh
        exact ⟨x, List.mem_append_left _ hx, hm⟩
      · -- the home is `k` or between the step and `k`, so reached in the first step
        have hh₁ : h ∈ s₁.seen ∧ h ∉ s.seen :=
          List.forall_mem_cons.2 ⟨⟨hk₁, hks⟩, hτ⟩ h (mem_of_home hh).1
        rcases hsome h hh with hr | ⟨D, ho⟩
        · exact h₂.registered π₁ hkeyed hh₁.1 (fun hhσ => hh₁.2 (hσ h hhσ)) hr
        · refine .inr ⟨D, (ho.grow h₂.grows).congr (by rw [joinPaths, if_pos hh₁.1]) ?_⟩
          intro _ hout
          rwa [joinPaths, if_pos ho.2.1]
    · -- reached in the second step
      obtain ⟨τ, hπ, hwithin, hτ, hsettled⟩ := h₂.settled k hk hk₁
      refine ⟨τ, by rw [joinPaths, if_neg hk₁, hπ], hwithin,
        fun j hj => ⟨(hτ j hj).1, fun hjs => (hτ j hj).2 (hsub j hjs)⟩,
        fun b K hb hen hK hv => ?_⟩
      obtain ⟨hnone, hsome⟩ := hsettled b K hb hen hK hv
      refine ⟨fun hh => ?_, fun h hh => ?_⟩
      · obtain ⟨x, hx, hm⟩ := hnone hh
        exact ⟨x, List.mem_append_right _ hx, hm⟩
      · -- the home was reached in the second step, and so was a definition reached after it
        have hh₂ : h ∉ s₁.seen := fun hh₁ => by
          rcases List.mem_cons.1 (mem_of_home hh).1 with rfl | hτh
          · exact hk₁ hh₁
          · exact (hτ h hτh).2 hh₁
        rcases hsome h hh with hr | ⟨D, ho⟩
        · exact .inl hr
        refine .inr ⟨D, ho.congr (by rw [joinPaths, if_neg hh₂]) fun hpair hout => ?_⟩
        rw [hnew₂] at hpair hnd
        rwa [joinPaths, if_neg (not_mem_of_pair_sublist hnd hpair hh₂)]
  · rcases h₁.frame N d hd with hd₁ | ⟨D, bD, hDt, hDs, hgetD, hdef, hnamedD⟩
    · rcases h₂.frame N d hd₁ with hd₂ | ⟨D, bD, hDt, hDs, hgetD, hdef, hnamedD⟩
      · exact .inl hd₂
      · exact .inr ⟨D, bD, hDt, fun hD => hDs (hsub D hD), hgetD, hdef, hnamedD⟩
    · exact .inr ⟨D, bD, hsub₂ D hDt, hDs, hgetD, hdef, h₂.named _ hnamedD⟩

end Kept

/-- A step that only names keys and reaches nothing keeps the session. -/
theorem Kept.of_names {s' : Session} (h : w.Kept c π σ s' t texts) (hseen : s'.seen = s.seen)
    (hnamed : ∀ e ∈ s.names.named, e ∈ s'.names.named) (hreg : s'.registry = s.registry) :
    w.Kept c π σ s t texts where
  grows := hseen ▸ h.grows
  settled k hk hks := by
    obtain ⟨τ, hπ, hwithin, hτ, hsettled⟩ := h.settled k hk (hseen ▸ hks)
    exact ⟨τ, hπ, hwithin, fun j hj => hseen ▸ hτ j hj, hsettled⟩
  named e he := h.named e (hnamed e he)
  frame N d hd := by
    rcases h.frame N d (hreg ▸ hd) with hd' | ⟨D, bD, hDt, hDs, hrest⟩
    · exact .inl hd'
    · exact .inr ⟨D, bD, hDt, hseen ▸ hDs, hrest⟩

/-! ### Steps run with the blocks around them -/

variable (w c) in
/-- A step run from `ctx` and `s` with the blocks at `σ` around it, innermost first: the context
reads the workspace and the options and lists those blocks as its ancestors, all of them reached,
no block is reached twice, and the names of the session are apart and inline, in a scope of its
table. -/
structure Around (R : List String) (ctx : Context) (σ : List Nat) (s : Session) : Prop where
  workspace : ctx.workspace = w
  config : ctx.config = c
  ancestors : ctx.ancestors = w.blocksAt σ
  reached : ∀ j ∈ σ, j ∈ s.seen
  nodup : s.seen.Nodup
  names : s.NamesApart R
  inline : s.names.KeysInline
  scope : ctx.scope < s.names.scopes.size

variable (w c) in
/-- A step that lodges the code of the blocks it reaches, run with the blocks at `σ` around it:
whenever it succeeds from a context and session around `σ`, its session ends around `σ` too and
is kept (`Kept`) with some texts and the blocks around those it reached, and its result and
those texts satisfy `Q`. -/
def Lodges (R : List String) (σ : List Nat) {α : Type} (m : GenM α)
    (Q : α → List (List Char) → Prop) : Prop :=
  ∀ ctx s a t, w.Around c R ctx σ s → m.exec ctx s = (.ok a, t) →
    w.Around c R ctx σ t ∧ ∃ T π, w.Kept c π σ s t T ∧ Q a T

variable {R : List String} {ctx : Context}

namespace Around

theorem keyed (h : w.Around c R ctx σ s) : ∃ helpers, s.names.Keyed helpers :=
  ⟨_, h.names.keyed⟩

/-- The same context around a later session whose names are still apart and inline. -/
theorem later (h : w.Around c R ctx σ s) (hseen : ∀ j ∈ s.seen, j ∈ t.seen) (hnd : t.seen.Nodup)
    (hn : t.NamesApart R) (hi : t.names.KeysInline) (hscope : ctx.scope < t.names.scopes.size) :
    w.Around c R ctx σ t :=
  ⟨h.workspace, h.config, h.ancestors, fun j hj => hseen j (h.reached j hj), hnd, hn, hi, hscope⟩

end Around

namespace Lodges

variable {α β γ : Type} {m : GenM β} {k : β → GenM α} {Q : α → List (List Char) → Prop}

theorem mono {Q' : α → List (List Char) → Prop} {m : GenM α} (h : w.Lodges c R σ m Q)
    (hQ : ∀ a T, Q a T → Q' a T) : w.Lodges c R σ m Q' := by
  intro ctx s a t hs hrun
  obtain ⟨ht, T, π, hkept, hq⟩ := h ctx s a t hs hrun
  exact ⟨ht, T, π, hkept, hQ a T hq⟩

/-- What a step returns whenever it succeeds around `σ`. -/
theorem and_returns {m : GenM α} {P : α → Prop} (h : w.Lodges c R σ m Q)
    (hP : ∀ ctx s a t, w.Around c R ctx σ s → m.exec ctx s = (.ok a, t) → P a) :
    w.Lodges c R σ m (fun a T => Q a T ∧ P a) := by
  intro ctx s a t hs hrun
  obtain ⟨ht, T, π, hkept, hq⟩ := h ctx s a t hs hrun
  exact ⟨ht, T, π, hkept, hq, hP ctx s a t hs hrun⟩

theorem pure {a : α} (h : Q a []) : w.Lodges c R σ (Pure.pure a) Q := by
  intro ctx s a' t hs hrun
  rw [GenM.exec_pure] at hrun
  cases hrun
  exact ⟨hs, [], fun _ => σ, Kept.refl _ σ s [], h⟩

theorem throw (e : GenerateError) : w.Lodges c R σ (MonadExcept.throw e : GenM α) Q := by
  intro ctx s a t _ hrun
  rw [GenM.exec_throw] at hrun
  cases hrun

/-- **Steps in sequence lodge what each of them lodges.** -/
theorem bind {Q₁ : β → List (List Char) → Prop} (hm : w.Lodges c R σ m Q₁)
    (hk : ∀ b T₁, Q₁ b T₁ → w.Lodges c R σ (k b) (fun a T₂ => Q a (T₁ ++ T₂))) :
    w.Lodges c R σ (m >>= k) Q := by
  intro ctx s a t hs hrun
  obtain ⟨b, u, hb, ha⟩ := GenM.exec_bind_eq_ok.1 hrun
  obtain ⟨hu, T₁, π₁, hkept₁, hq₁⟩ := hm ctx s b u hs hb
  obtain ⟨ht, T₂, π₂, hkept₂, hq⟩ := hk b T₁ hq₁ ctx u a t hu ha
  exact ⟨ht, T₁ ++ T₂, _, hkept₁.trans ht.nodup hs.reached ht.keyed hkept₂, hq⟩

/-- A first step that hands back no texts, and a result with `P`. -/
theorem bind_with {P : β → Prop}
    (hm : w.Lodges c R σ m (fun b T => T = [] ∧ P b)) (hk : ∀ b, P b → w.Lodges c R σ (k b) Q) :
    w.Lodges c R σ (m >>= k) Q :=
  bind hm fun b T₁ h₁ => (hk b h₁.2).mono fun a T₂ h => by rwa [h₁.1, List.nil_append]

/-- A first step that hands back no texts. -/
theorem bind_quiet (hm : w.Lodges c R σ m (fun _ T => T = []))
    (hk : ∀ b, w.Lodges c R σ (k b) Q) : w.Lodges c R σ (m >>= k) Q :=
  bind_with (P := fun _ => True) (hm.mono fun _ _ h => ⟨h, trivial⟩) fun b _ => hk b

theorem ite (p : Prop) [Decidable p] {x y : GenM α} (hx : p → w.Lodges c R σ x Q)
    (hy : ¬p → w.Lodges c R σ y Q) : w.Lodges c R σ (if p then x else y) Q := by
  by_cases h : p
  · rw [if_pos h]
    exact hx h
  · rw [if_neg h]
    exact hy h

/-- A step that reaches nothing, keeps the keys named and registers no procedure. -/
theorem of_frame {m : GenM α} (hn : ∀ ctx, GenM.KeepsNames R ctx m) (hi : GenM.KeepsKeysInline m)
    (hseen : ∀ ctx s, (m.exec ctx s).2.seen = s.seen)
    (hnamed : ∀ ctx s, w.Around c R ctx σ s → ∀ e ∈ s.names.named, e ∈ (m.exec ctx s).2.names.named)
    (hreg : ∀ ctx s N,
      (m.exec ctx s).2.registry.find? (.procedure N) = s.registry.find? (.procedure N)) :
    w.Lodges c R σ m (fun _ T => T = []) := by
  intro ctx s a t hs hrun
  have hkeep := hn ctx s hs.names hs.scope
  have hinline := hi ctx s hs.inline
  have hseen' := hseen ctx s
  have hnamed' := hnamed ctx s hs
  have hreg' := hreg ctx s
  rw [hrun] at hkeep hinline hseen' hnamed' hreg'
  exact ⟨hs.later (fun j hj => hseen' ▸ hj) (hseen' ▸ hs.nodup) hkeep.1 hinline hkeep.2, [],
    fun _ => σ, Kept.of_seen hseen' hnamed' hreg', rfl⟩

/-- A step that leaves the session as it is. -/
theorem of_same {m : GenM α} (h : ∀ ctx s, (m.exec ctx s).2 = s) :
    w.Lodges c R σ m (fun _ T => T = []) :=
  of_frame (fun ctx => GenM.KeepsNames.of_eq (fun s => by rw [h]) fun s => by rw [h])
    (GenM.KeepsKeysInline.of_names fun ctx s => by rw [h]) (fun ctx s => by rw [h])
    (fun ctx s _ e he => by rwa [h]) fun ctx s N => by rw [h]


/-! The primitive steps of the rules, besides registering a procedure, lodge nothing. -/

theorem read : w.Lodges c R σ (read : GenM Context)
    (fun a T => T = [] ∧ a.workspace = w ∧ a.config = c) :=
  (of_same fun _ _ => rfl).and_returns fun ctx s a t hs hrun => by
    rw [GenM.exec_read] at hrun
    cases hrun
    exact ⟨hs.workspace, hs.config⟩

theorem choose {δ : Type} [Inhabited δ] (b : Block) (field : String) (options : List (String × δ)) :
    w.Lodges c R σ (BlockScribe.choose b field options) (fun _ T => T = []) :=
  of_same fun ctx s => by
    rw [exec_choose]
    split
    · rfl
    · split <;> rfl

theorem temporary (base : String) :
    w.Lodges c R σ (GenM.temporary base) (fun _ T => T = []) :=
  of_frame (fun _ => .temporary base) (.temporary base) (fun _ _ => rfl)
    (fun ctx s hs e he => by
      rw [GenM.exec_temporary]
      dsimp only
      rw [NameTable.distinct, NameTable.named_take]
      exact he)
    fun _ _ _ => rfl

theorem variableName (key : String) :
    w.Lodges c R σ (GenM.variableName key) (fun _ T => T = []) :=
  of_frame (fun _ => .variableName key) (.variableName key) (fun _ _ => rfl)
    (fun ctx s hs e he => by
      rw [GenM.exec_variableName]
      exact (NameTable.named_nameFor hs.names.table.shaped key .variable).1 e he)
    fun _ _ _ => rfl

theorem procedureName (key : String) :
    w.Lodges c R σ (GenM.procedureName key) (fun _ T => T = []) :=
  of_frame (fun _ => .procedureName key) (.procedureName key) (fun _ _ => rfl)
    (fun ctx s hs e he => by
      rw [GenM.exec_procedureName]
      exact (NameTable.named_nameFor hs.names.table.shaped key .procedure).1 e he)
    fun _ _ _ => rfl

/-- A helper is registered under a key of its own, named in no key's place. -/
theorem provide (desired : String) (lines : List String) :
    w.Lodges c R σ (GenM.provide desired lines) (fun _ T => T = []) := by
  refine of_frame (fun _ => .provide desired lines) (.provide desired lines) ?_ ?_ ?_
  · intro ctx s
    rw [GenM.exec_provide]
  · intro ctx s hs e he
    rw [GenM.exec_provide]
    unfold Registry.provide
    rcases s.registry.find? (.helper desired) with _ | d
    · dsimp only
      rw [NameTable.distinct, NameTable.named_take]
      exact he
    · exact he
  · intro ctx s N
    rw [GenM.exec_provide]
    unfold Registry.provide
    rcases s.registry.find? (.helper desired) with _ | d
    · exact Registry.find?_insert_of_ne (by simp)
    · rfl

/-- The innermost loop among the blocks around, the block itself left out. -/
theorem surroundingLoop : w.Lodges c R σ GenM.surroundingLoop
    (fun a T => T = [] ∧ a = ((w.blocksAt σ).drop 1).find? Block.isLoop) :=
  (of_same fun _ _ => rfl).and_returns fun ctx s a t hs hrun => by
    rw [GenM.exec_surroundingLoop] at hrun
    cases hrun
    rw [hs.ancestors]
    congr 1
    funext b
    unfold Block.isLoop
    cases BlockKind.ofName? b.kind <;> rfl

theorem valueOr {ch : Children} {slot : String} {order : Order} {d : String}
    (hv : w.Lodges c R σ (ch.value slot order) (fun _ T => T = [])) :
    w.Lodges c R σ (ch.valueOr slot order d) (fun _ T => T = []) :=
  bind_quiet hv fun _ => pure rfl

/-- Steps over a list, none of which hands back texts. -/
theorem mapM_quiet {f : γ → GenM α} {xs : List γ}
    (h : ∀ x ∈ xs, w.Lodges c R σ (f x) (fun _ T => T = [])) :
    w.Lodges c R σ (xs.mapM f) (fun _ T => T = []) := by
  induction xs with
  | nil => exact pure rfl
  | cons x xs ih =>
    rw [List.mapM_cons]
    exact bind_quiet (h x List.mem_cons_self) fun _ =>
      bind_quiet (ih fun y hy => h y (List.mem_cons_of_mem x hy)) fun _ => pure rfl

/-- **A loop whose every turn goes on**, with an invariant of the elements done, the state, and
the texts handed back so far. -/
theorem forIn {xs : List γ} {init : β} {f : γ → β → GenM (ForInStep β)}
    (I : List γ → β → List (List Char) → Prop) (hinit : I [] init [])
    (hstep : ∀ done x rest, done ++ x :: rest = xs → ∀ r T, I done r T →
      w.Lodges c R σ (f x r) (fun step T' => ∃ r', step = .yield r' ∧ I (done ++ [x]) r' (T ++ T'))) :
    w.Lodges c R σ (ForIn.forIn xs init f) (fun r T => I xs r T) := by
  -- the turns still to run, after those done
  suffices h : ∀ rest done r T, done ++ rest = xs → I done r T →
      w.Lodges c R σ (ForIn.forIn rest r f) (fun r' T' => I xs r' (T ++ T')) from
    (h xs [] init [] rfl hinit).mono fun _ _ h => by rwa [List.nil_append] at h
  intro rest
  induction rest with
  | nil =>
    intro done r T hdone hI
    rw [List.append_nil] at hdone
    subst hdone
    exact pure (by rwa [List.append_nil])
  | cons x rest ih =>
    intro done r T hdone hI
    rw [List.forIn_cons]
    refine bind (hstep done x rest hdone r T hI) fun step T₁ h₁ => ?_
    obtain ⟨r', rfl, hI'⟩ := h₁
    exact (ih (done ++ [x]) r' (T ++ T₁) (by simpa using hdone) hI').mono
      fun _ _ h => by rwa [List.append_assoc] at h

/-- A step run in a child scope lodges what it lodges in the scope around. -/
theorem inChildScope {m : GenM α} (h : w.Lodges c R σ m Q) :
    w.Lodges c R σ (GenM.inChildScope m) Q := by
  intro ctx s a t hs hrun
  rw [GenM.exec_inChildScope] at hrun
  have hinner : w.Around c R { ctx with scope := (s.names.openScope ctx.scope).1 } σ
      { s with names := (s.names.openScope ctx.scope).2 } :=
    ⟨hs.workspace, hs.config, hs.ancestors, hs.reached, hs.nodup,
      GenM.KeepsNames.openScope hs.names hs.scope, hs.inline.openScope _,
      by simp [NameTable.openScope]⟩
  obtain ⟨ht, T, π, hkept, hq⟩ := h _ _ a t hinner hrun
  -- the child scope is newer than the scope around
  have hscope : ctx.scope < t.names.scopes.size := by
    have hs' := hs.scope
    have ht' := ht.scope
    simp only [NameTable.openScope] at ht'
    omega
  refine ⟨⟨hs.workspace, hs.config, hs.ancestors, ht.reached, ht.nodup, ht.names, ht.inline, hscope⟩,
    T, π, hkept.of_names rfl (fun e he => ?_) rfl, hq⟩
  rw [NameTable.named_openScope]
  exact he

end Lodges

/-! ### A block's rule seen from around the block -/

/-- The blocks between a block reached under `i` and the step that reached `i`: those between
the block and `i`, all reached under `i`, and then `i`. -/
theorem between_snoc {τ seen seen₀ : List Nat} {i : Nat}
    (hτ : ∀ j ∈ τ, j ∈ seen ∧ j ∉ i :: seen₀) (hit : i ∈ seen) (hi : i ∉ seen₀) :
    ∀ j ∈ τ ++ [i], j ∈ seen ∧ j ∉ seen₀ := by
  intro j hj
  rcases List.mem_append.1 hj with hj | hj
  · exact ⟨(hτ j hj).1, fun h => (hτ j hj).2 (List.mem_cons_of_mem i h)⟩
  · rw [List.mem_singleton.1 hj]
    exact ⟨hit, hi⟩

/-- A block listed with `k`, or between `k` and the step, where none of them had been reached
before, is not around the step, all of whose blocks had been. -/
theorem not_mem_around {h k : Nat} {τ σ seen : List Nat} (hh : h ∈ k :: τ) (hk : k ∉ seen)
    (hτ : ∀ j ∈ τ, j ∉ seen) (hσ : σ ⊆ seen) : h ∉ σ := by
  intro hmem
  rcases List.mem_cons.1 hh with rfl | hτ'
  · exact hk (hσ hmem)
  · exact hτ h hτ' (hσ hmem)

variable {i : Nat} {s₀ t₁ : Session} {T T' : List (List Char)} {b : Block}

/-- A block reached under `i` in a step from `s₀` with `i` just reached, with those between it
and `i`: none of them is `i` or around `i`. -/
theorem not_mem_of_settled {k h : Nat} {τ : List Nat} (hks : k ∉ i :: s₀.seen)
    (hτ : ∀ j ∈ τ, j ∈ t.seen ∧ j ∉ i :: s₀.seen) (hσ : ∀ j ∈ σ, j ∈ s₀.seen) (hh : h ∈ k :: τ) :
    h ∉ i :: σ :=
  not_mem_around hh hks (fun j hj => (hτ j hj).2)
    (List.cons_subset_cons i fun _ hj => hσ _ hj)

/-- **The rule of a block that defines no procedure, seen from around the block.**  Its caller
reached the block, and its rule reached blocks settled with the block among those around them;
from around the block, they are settled with the block among those between, and their code
lands where the block's own does, in the texts its caller hands back. -/
theorem Kept.lift (hwithin : w.Within i σ) (hi : i ∉ s₀.seen) (hσ : ∀ j ∈ σ, j ∈ s₀.seen)
    (hkept : w.Kept c π (i :: σ) { s₀ with seen := i :: s₀.seen } t T) (hdef : w.definesAt i = false)
    (hplace : ∀ x ∈ T, ∃ y ∈ T', Text.Held x y)
    (hown : ∀ b K, w.get? i = some b → b.disabled = false → BlockKind.ofName? b.kind = some K →
      (K.isValue = false ∨ σ = []) → ∃ x ∈ T', Instrumented c (w.blocksAt σ) b K x) :
    w.Kept c (Function.update π i σ) σ s₀ t T' := by
  obtain ⟨new, hnew⟩ := hkept.grows
  have hit : i ∈ t.seen := by
    rw [hnew]
    simp
  refine ⟨⟨new ++ [i], by rw [hnew]; simp⟩, fun k hk hks => ?_, hkept.named, fun N d hd => ?_⟩
  · by_cases hki : k = i
    · -- the block itself, with no block between
      subst hki
      refine ⟨[], by simp, hwithin, by simp,
        fun b K hb hen hK hv => ⟨fun _ => hown b K hb hen hK hv, ?_⟩⟩
      intro h hh
      rw [home_cons_of_not hdef] at hh
      cases hh
    · have hks' : k ∉ i :: s₀.seen := by simp [hki, hks]
      obtain ⟨τ, hπ, hw, hτ, hsettled⟩ := hkept.settled k hk hks'
      refine ⟨τ ++ [i], by rw [Function.update_of_ne hki, hπ]; simp, by simpa using hw,
        between_snoc hτ hit hi, fun b K hb hen hK hv => ?_⟩
      obtain ⟨hnone, hsome⟩ := hsettled b K hb hen hK (.inl (hv.resolve_right (by simp)))
      -- the block defines no procedure, so the innermost definition is the one below it
      have hblocks : τ ++ [i] ++ σ = τ ++ i :: σ := by simp
      rw [← List.cons_append, home_append_of_not hdef, hblocks]
      refine ⟨fun hh => ?_, fun h hh => ?_⟩
      · obtain ⟨x, hx, hm⟩ := hnone hh
        obtain ⟨y, hy, hxy⟩ := hplace x hx
        exact ⟨y, hy, hm.mono hxy⟩
      · have hout := not_mem_of_settled hks' hτ hσ (mem_of_home hh).1
        rcases hsome h hh with hr | ⟨D, ho⟩
        · exact .inl hr
        · exact .inr ⟨D, ho.update (fun he => hout (he ▸ List.mem_cons_self))
            fun hm => hout (List.mem_cons_of_mem i hm)⟩
  · rcases hkept.frame N d hd with hd' | ⟨D, bD, hDt, hDs, hrest⟩
    · exact .inl hd'
    · exact .inr ⟨D, bD, hDt, fun h => hDs (List.mem_cons_of_mem i h), hrest⟩

/-- **The rule of a procedure definition, seen from around it.**  Its rule reached the blocks of
its body, and then registered its code under the name of its key, in place of any procedure of
that name: the code holds the texts of the body and the definition's own instrumentation.  From
around the definition, the blocks reached have their code in its registered code, or in that of
a definition inside it, unless another definition overwrote that one: the one registered before
under the same name, if it lies inside this definition. -/
theorem Kept.lift_defined (hwithin : w.Within i σ) (hi : i ∉ s₀.seen) (hσ : ∀ j ∈ σ, j ∈ s₀.seen)
    (hkept : w.Kept c π (i :: σ) { s₀ with seen := i :: s₀.seen } t₁ T)
    (hb : w.get? i = some b) (hdef : w.definesAt i = true) {N code : String}
    (hseen : t.seen = t₁.seen) (hnames : t.names = t₁.names)
    (hreg : t.registry = (t₁.registry.defineProcedure N code).1)
    (hN : (b.procedureKey, N) ∈ t.names.named) (hkeyed : ∃ helpers, t.names.Keyed helpers)
    (hheld : ∀ x ∈ T, Text.Held x code.toList)
    (hown : ∀ K, BlockKind.ofName? b.kind = some K → Instrumented c (w.blocksAt σ) b K code.toList) :
    w.Kept c (Function.update π i σ) σ s₀ t T' := by
  obtain ⟨new, hnew⟩ := hkept.grows
  have hit : i ∈ t.seen := by
    rw [hseen, hnew]
    simp
  have hfind : t.registry.find? (.procedure N) = some ⟨N, code⟩ := by
    rw [hreg]
    exact Registry.find?_defineProcedure N code
  have hother : ∀ N', N' ≠ N →
      t.registry.find? (.procedure N') = t₁.registry.find? (.procedure N') := fun N' hne => by
    rw [hreg]
    exact Registry.find?_insert_of_ne fun heq => hne (DefinitionKey.procedure.inj heq).symm
  refine ⟨⟨new ++ [i], by rw [hseen, hnew]; simp⟩, fun k hk hks => ?_,
    fun e he => hnames ▸ hkept.named e he, fun N' d hd => ?_⟩
  · by_cases hki : k = i
    · -- the definition itself: its code is registered under its name
      subst hki
      refine ⟨[], by simp, hwithin, by simp, fun b' K hb' _ hK _ => ⟨fun hh => ?_, fun h hh => ?_⟩⟩
      · rw [home_cons_of_definesAt hdef] at hh
        cases hh
      · rw [home_cons_of_definesAt hdef] at hh
        cases hh
        rw [hb] at hb'
        cases hb'
        exact .inl ⟨b, N, ⟨N, code⟩, hb, hN, hfind, hown K hK⟩
    · have hk₁ : k ∈ t₁.seen := hseen ▸ hk
      have hks₁ : k ∉ i :: s₀.seen := by simp [hki, hks]
      obtain ⟨τ, hπ, hw, hτ, hsettled⟩ := hkept.settled k hk₁ hks₁
      refine ⟨τ ++ [i], by rw [Function.update_of_ne hki, hπ]; simp, by simpa using hw,
        between_snoc (hseen ▸ hτ) hit hi, fun b' K hb' hen hK hv => ?_⟩
      obtain ⟨hnone, hsome⟩ := hsettled b' K hb' hen hK (.inl (hv.resolve_right (by simp)))
      have hblocks : τ ++ [i] ++ σ = τ ++ i :: σ := by simp
      rw [hblocks, ← List.cons_append]
      rcases hhk : w.home (k :: τ) with _ | h'
      · -- no definition below: the code lands in this definition's
        rw [home_append_of_none hhk, home_cons_of_definesAt hdef]
        refine ⟨nofun, fun h hh => ?_⟩
        cases hh
        obtain ⟨x, hx, hm⟩ := hnone hhk
        exact .inl ⟨b, N, ⟨N, code⟩, hb, hN, hfind, hm.mono (hheld x hx)⟩
      · rw [home_append_of_some hhk]
        refine ⟨nofun, fun h hh => ?_⟩
        cases hh
        have hh'mem := (mem_of_home hhk).1
        have hh'out : h' ∉ i :: σ := not_mem_of_settled hks₁ hτ hσ hh'mem
        have hh'i : h' ≠ i := fun he => hh'out (he ▸ List.mem_cons_self)
        rcases hsome h' hhk with ⟨bh, Nh, d, hgeth, hnh, hfindh, hM⟩ | ⟨D, ho⟩
        · by_cases hNh : Nh = N
          · -- the definition below had this name, so this one overwrote it: it lies around it
            subst hNh
            have hh't : h' ∈ t₁.seen ∧ h' ∉ i :: s₀.seen :=
              List.forall_mem_cons.2 ⟨⟨hk₁, hks₁⟩, hτ⟩ h' hh'mem
            obtain ⟨τ', hπ', -⟩ := hkept.settled h' hh't.1 hh't.2
            obtain ⟨helpers, hk'⟩ := hkeyed
            have hnh' : (bh.procedureKey, Nh) ∈ t.names.named := hnames ▸ hnh
            refine .inr ⟨i, Ne.symm hh'i, hit, hdef,
              ⟨bh, b, hgeth, hb, (hk'.key_eq_iff hN hnh').2 rfl⟩, .inl ?_⟩
            rw [Function.update_of_ne hh'i, hπ']
            simp
          · exact .inl ⟨bh, Nh, d, hgeth, hnames ▸ hnh, (hother Nh hNh).trans hfindh, hM⟩
        · exact .inr ⟨D, hseen ▸ ho.update hh'i fun hm => hh'out (List.mem_cons_of_mem i hm)⟩
  · by_cases hN' : N' = N
    · subst hN'
      exact .inr ⟨i, b, hit, hi, hb, hdef, hN⟩
    · rw [hother N' hN']
      rcases hkept.frame N' d hd with hd' | ⟨D, bD, hDt, hDs, hgetD, hdefD, hnamedD⟩
      · exact .inl hd'
      · exact .inr ⟨D, bD, hseen ▸ hDt, fun h => hDs (List.mem_cons_of_mem i h), hgetD, hdefD,
          hnames ▸ hnamedD⟩

end Workspace

end BlockScribe
