import BlockScribe.Proofs.Generate.Placement
import BlockScribe.Proofs.Generate.KindTable
/-!
# Every reached block lodges its instrumentation

Generation walks the workspace and hands each reached block to its rule, which asks for the code
of its children.  Seen through `Workspace.Lodges`, every part of the walk lodges the code of the
blocks it reaches: a value slot hands back no texts, and a body, a statement chain and the code of
a root hand back texts held in their code (`Workspace.TraversalLodges`).  A block given to its
rule is `Workspace.Dispatched`: its rule yielded what its kind asks for, or registered the code of
a definition.  The caller that reached the block then settles it with its own code
(`Workspace.Dispatched.kept`): a statement wrapped in the block's prefix and suffix holds them,
and the code of a kind that places its own snippets holds them already.

Each function of the walk takes one step with what the others do with one less fuel
(`TraversalLodges.value_succ` and the others), so the whole walk lodges what it reaches with any
fuel (`Workspace.traversalLodges`); so does the code of the roots (`Workspace.body_lodges`).
-/

namespace BlockScribe

open GenM Generation

namespace GenM

variable {α : Type} {ctx : Context} {s t : Session}

theorem exec_pure_eq_ok {a b : α} : (pure a : GenM α).exec ctx s = (.ok b, t) ↔ a = b ∧ s = t := by
  simp

theorem exec_throw_ne_ok {e : GenerateError} {b : α} : (throw e : GenM α).exec ctx s ≠ (.ok b, t) := by
  simp

theorem exec_map_eq_ok {β : Type} {g : β → α} {m : GenM β} {a : α} :
    (g <$> m).exec ctx s = (.ok a, t) ↔ ∃ b, m.exec ctx s = (.ok b, t) ∧ g b = a := by
  rw [exec_map]
  rcases m.exec ctx s with ⟨_ | b, t'⟩ <;> simp [and_comm, eq_comm]

/-- A step that reaches the block at `i` first: the block is there, and was not reached before. -/
theorem exec_block_visit {w : Workspace} {i : Nat} {k : Block → GenM α} {a : α}
    (hw : ctx.workspace = w)
    (h : (block i >>= fun b => visit i b >>= fun _ => k b).exec ctx s = (.ok a, t)) :
    ∃ b, w.get? i = some b ∧ i ∉ s.seen ∧
      (k b).exec ctx { s with seen := i :: s.seen } = (.ok a, t) := by
  obtain ⟨b, s₁, hblock, h₁⟩ := exec_bind_eq_ok.1 h
  obtain ⟨hb, rfl⟩ := exec_block_eq_ok.1 hblock
  obtain ⟨_, s₂, hvisit, h₂⟩ := exec_bind_eq_ok.1 h₁
  obtain ⟨hi, rfl⟩ := exec_visit_eq_ok.1 hvisit
  exact ⟨b, hw ▸ hb, hi, h₂⟩

end GenM

/-! ### The code around a statement -/

theorem BlockKind.placesOwnSnippets_eq_false_of_isValue {k : BlockKind} (hv : k.isValue = true) :
    k.placesOwnSnippets = false := by
  cases k <;> revert hv <;> decide

/-- A statement wrapped in the block's prefix and suffix holds its code. -/
theorem Config.held_wrapStatement (c : Config) (k : BlockKind) (b : Block) (code : String) :
    Text.Held code.toList (c.wrapStatement k b code).toList := by
  unfold Config.wrapStatement
  split
  · exact .refl _
  · exact .string_part _ _ _

/-- **A wrapped statement holds the block's instrumentation**: the prefix and suffix around it,
or those its code places when its kind places them itself. -/
theorem Instrumented.wrapStatement {c : Config} {around : List Block} {b : Block} {k : BlockKind}
    {code : String} (hshaped : Shaped c around b k code.toList)
    (hown : k.placesOwnSnippets = true → Instrumented c around b k code.toList) :
    Instrumented c around b k (c.wrapStatement k b code).toList := by
  cases hk : k.placesOwnSnippets
  · have h := Instrumented.wrap hk hshaped
    rwa [String.ofList_toList] at h
  · rw [Config.wrapStatement, if_pos hk]
    exact hown hk

namespace Text.Held

variable {x : List Char}

/-- Only the empty text is held in the empty text. -/
theorem eq_nil_of_nil {t : List Char} (h : Held x t) (ht : t = []) : x = [] := by
  induction h with
  | part a b => exact (List.append_eq_nil_iff.1 (List.append_eq_nil_iff.1 ht).1).2
  | indent u a b _ ih =>
    exact ih ((prefixList_eq_nil_iff _ _).1 (List.append_eq_nil_iff.1 (List.append_eq_nil_iff.1 ht).1).2)

theorem nil (t : List Char) : Held [] t := by
  simpa using part (x := []) [] t

/-- Texts joined by a separator hold each of them. -/
theorem intercalate {sep r : String} {l : List String} (hr : r ∈ l) :
    Held r.toList (sep.intercalate l).toList := by
  induction l with
  | nil => exact absurd hr List.not_mem_nil
  | cons a l ih =>
    cases l with
    | nil =>
      rw [String.intercalate_singleton, List.mem_singleton.1 hr]
      exact refl _
    | cons a' l =>
      rw [String.intercalate_cons_cons]
      rcases List.mem_cons.1 hr with rfl | hr
      · exact ((refl _).string_right _).string_right _
      · exact (ih hr).string_left _

/-- The lines of the roots, the empty ones left out and the others joined, hold what each line
holds. -/
theorem joinLines {y : List Char} {r : String} {rs : List String} (hy : Held y r.toList)
    (hr : r ∈ rs) : Held y ("\n".intercalate (rs.filter fun l => !l.isEmpty)).toList := by
  by_cases he : r.isEmpty = true
  · -- an empty line holds only the empty text
    rw [eq_nil_of_nil hy (by simpa [String.isEmpty_iff] using he)]
    exact nil _
  · exact hy.trans (intercalate (List.mem_filter.2 ⟨hr, by simpa using he⟩))

end Text.Held

theorem Registry.code_mem_codes {r : Registry} {k : DefinitionKey} {d : Definition}
    (h : r.find? k = some d) : d.code ∈ r.codes := by
  rw [Registry.find?_eq] at h
  obtain ⟨e, he, rfl⟩ := Option.map_eq_some_iff.1 h
  exact List.mem_map_of_mem (List.mem_of_find?_eq_some he)

namespace Workspace

variable {w : Workspace} {c : Config} {R : List String} {ctx : Context} {σ : List Nat}
  {i p : Nat} {b parent : Block} {s s₀ t : Session}

/-! ### Sessions around the blocks -/

namespace Around

/-- A session whose events alone differ is around the same blocks. -/
theorem events (h : w.Around c R ctx σ s) (e : Array Event) :
    w.Around c R ctx σ { s with events := e } :=
  ⟨h.workspace, h.config, h.ancestors, h.reached, h.nodup, h.names.of_eq rfl rfl, h.inline, h.scope⟩

/-- Reaching a block not reached before keeps a session around the same blocks. -/
theorem visit (h : w.Around c R ctx σ s) (hi : i ∉ s.seen) :
    w.Around c R ctx σ { s with seen := i :: s.seen } :=
  h.later (fun _ hj => List.mem_cons_of_mem i hj) (List.nodup_cons.2 ⟨hi, h.nodup⟩)
    (h.names.of_eq rfl rfl) h.inline h.scope

/-- A reached block's rule runs with the block in front of the blocks around it. -/
theorem rule (h : w.Around c R ctx σ s) (hb : w.get? i = some b) (hi : i ∈ s.seen) :
    w.Around c R { ctx with ancestors := b :: ctx.ancestors } (i :: σ) s :=
  ⟨h.workspace, h.config, by rw [h.ancestors, blocksAt_cons hb],
    fun j hj => (List.mem_cons.1 hj).elim (fun he => he ▸ hi) (h.reached j), h.nodup, h.names,
    h.inline, h.scope⟩

/-- After the rule, its session is around the blocks around the block. -/
theorem of_rule (h : w.Around c R ctx σ s)
    (h' : w.Around c R { ctx with ancestors := b :: ctx.ancestors } (i :: σ) t) :
    w.Around c R ctx σ t :=
  ⟨h.workspace, h.config, h.ancestors, fun j hj => h'.reached j (List.mem_cons_of_mem i hj),
    h'.nodup, h'.names, h'.inline, h'.scope⟩

end Around

/-- A disabled block reached is settled with nothing: it has no instrumentation. -/
theorem Kept.visit_disabled (hw : w.Within i σ) (hb : w.get? i = some b) (hdis : b.disabled = true)
    (T : List (List Char)) : w.Kept c (fun _ => σ) σ s { s with seen := i :: s.seen } T where
  grows := ⟨[i], rfl⟩
  settled k hk hks := by
    have hki : k = i := by simpa [hks] using hk
    subst hki
    refine ⟨[], rfl, hw, nofun, fun b' K hb' hen => ?_⟩
    rw [hb] at hb'
    cases hb'
    rw [hdis] at hen
    cases hen
  named _ he := he
  frame _ _ hd := .inl hd

theorem Registers.of_names {σ : List Nat} {around : List Block} {s' : Session}
    (h : w.Registers c σ around b s' t) (hseen : s'.seen = s.seen)
    (hnamed : ∀ e ∈ s.names.named, e ∈ s'.names.named) (hreg : s'.registry = s.registry) :
    w.Registers c σ around b s t := by
  obtain ⟨t₁, T, π, N, code, hkept, hrest⟩ := h
  exact ⟨t₁, T, π, N, code, hkept.of_names hseen hnamed hreg, hrest⟩

theorem definesAt_eq_false_of {k : BlockKind} (hb : w.get? i = some b)
    (hk : BlockKind.ofName? b.kind = some k) (hdef : k.isDefinition = false) : w.definesAt i = false := by
  simp [definesAt, hb, hk, hdef]

/-! ### A block given to its rule -/

variable (w c) in
/-- What the rule of the block `b` at `i` did from `s` to `t`, with the blocks at `σ` around the
block: the rule of a kind that defines no procedure kept the session, handing back texts it
yielded for its kind, and the rule of a definition registered the block's code. -/
def Dispatched (σ : List Nat) (i : Nat) (b : Block) (s : Session) (kind : BlockKind) (out : Output)
    (t : Session) : Prop :=
  (kind.isDefinition = false →
      ∃ T π, w.Kept c π (i :: σ) s t T ∧ Yielded c (w.blocksAt σ) b kind out T) ∧
    (kind.isDefinition = true → w.Registers c (i :: σ) (w.blocksAt σ) b s t)

variable {kind : BlockKind} {out : Output} {T' : List (List Char)}

/-- **A reached block settled by its caller.**  The caller reached the enabled block at `i` and
gave it to its rule; it places the texts the rule handed back in its own, and, for a statement or
a root, the block's instrumentation too.  Then the blocks reached are settled from around the
block.  A definition needs nothing placed: its code is registered. -/
theorem Dispatched.kept (hd : w.Dispatched c σ i b { s₀ with seen := i :: s₀.seen } kind out t)
    (hw : w.Within i σ) (hi : i ∉ s₀.seen) (hσ : ∀ j ∈ σ, j ∈ s₀.seen) (hb : w.get? i = some b)
    (hen : b.disabled = false) (hkind : BlockKind.ofName? b.kind = some kind)
    (hkeyed : ∃ helpers, t.names.Keyed helpers)
    (hplace : kind.isDefinition = false → ∀ T, Yielded c (w.blocksAt σ) b kind out T →
      (∀ x ∈ T, ∃ y ∈ T', Text.Held x y) ∧
        ((kind.isValue = false ∨ σ = []) → ∃ x ∈ T', Instrumented c (w.blocksAt σ) b kind x)) :
    ∃ π, w.Kept c π σ s₀ t T' := by
  cases hdef : kind.isDefinition
  · obtain ⟨T, π, hkept, hy⟩ := hd.1 hdef
    obtain ⟨hT, hown⟩ := hplace hdef T hy
    refine ⟨_, hkept.lift hw hi hσ (definesAt_eq_false_of hb hkind hdef) hT fun b' K hb' _ hK hv => ?_⟩
    rw [hb] at hb'
    cases hb'
    rw [hkind] at hK
    cases hK
    exact hown hv
  · obtain ⟨t₁, T, π, N, code, hkept, hseen, hnames, hreg, hN, hheld, hown⟩ := hd.2 hdef
    refine ⟨_, hkept.lift_defined hw hi hσ hb (definesAt_iff.2 ⟨b, kind, hb, hen, hkind, hdef⟩) hseen
      hnames hreg hN hkeyed hheld fun K hK => ?_⟩
    rw [hkind] at hK
    cases hK
    exact hown kind hdef

/-- A block reached in a value slot places no texts: it gives an expression, which holds no
statement, or nothing in place, as a definition. -/
theorem placed_in_value (hfits : out.Fits kind) (hout : ∀ code, out ≠ .statement code) (hne : σ ≠ []) :
    kind.isDefinition = false → ∀ T, Yielded c (w.blocksAt σ) b kind out T →
      (∀ x ∈ T, ∃ y ∈ ([] : List (List Char)), Text.Held x y) ∧
        ((kind.isValue = false ∨ σ = []) →
          ∃ x ∈ ([] : List (List Char)), Instrumented c (w.blocksAt σ) b kind x) := by
  intro hdef T hy
  -- neither statements nor a definition: an expression, of a kind of value
  have hvalue : kind.isValue = true := by
    cases hv : kind.isValue
    · obtain ⟨code, rfl⟩ := hfits.classify.2.2.2.2 ⟨hv, hdef⟩
      exact absurd rfl (hout code)
    · rfl
  rw [hy.value hvalue]
  refine ⟨nofun, fun h => ?_⟩
  rcases h with h | h
  · rw [hvalue] at h
    cases h
  · exact absurd h hne

/-! ### The walk, one step at a time -/

variable (w c R) in
/-- The walk with fuel `f` lodges the code of the blocks it reaches: a value slot of the block at
`p` hands back no texts; a body, and a statement chain, hand back texts held in their code; the
code of a statement just reached holds the texts it hands back; and a reached block given to its
rule is `Dispatched`. -/
structure TraversalLodges (f : Nat) : Prop where
  value : ∀ p σ parent, w.get? p = some parent → w.Within p σ → ∀ slot order,
    w.Lodges c R (p :: σ) (valueCode f parent slot order) (fun _ T => T = [])
  body : ∀ p σ parent, w.get? p = some parent → w.Within p σ → ∀ slot,
    w.Lodges c R (p :: σ) (bodyCode f parent slot) (fun br T => ∀ x ∈ T, Text.Held x br.toList)
  chain : ∀ i σ, w.Within i σ →
    w.Lodges c R σ (chainCode f i) (fun code T => ∀ x ∈ T, Text.Held x code.toList)
  statement : ∀ i σ b, w.get? i = some b → w.Within i σ → b.disabled = false →
    ∀ ctx s here t, w.Around c R ctx σ s → i ∉ s.seen →
      (statementCode f b).exec ctx { s with seen := i :: s.seen } = (.ok here, t) →
      w.Around c R ctx σ t ∧ ∃ T π, w.Kept c π σ s t T ∧ ∀ x ∈ T, Text.Held x here.toList
  dispatch : ∀ i σ b, w.get? i = some b → w.Within i σ →
    ∀ ctx s kind out t, w.Around c R ctx σ s → i ∈ s.seen →
      (Generation.dispatch f b).exec ctx s = (.ok (kind, out), t) →
      w.Around c R ctx σ t ∧ w.Dispatched c σ i b s kind out t

namespace TraversalLodges

/-- With no fuel every part of the walk stops at once. -/
theorem zero : w.TraversalLodges c R 0 where
  value _ _ _ _ _ _ _ _ _ _ _ _ hrun := by
    unfold valueCode at hrun
    exact absurd hrun exec_throw_ne_ok
  body _ _ _ _ _ _ _ _ _ _ _ hrun := by
    unfold bodyCode at hrun
    exact absurd hrun exec_throw_ne_ok
  chain _ _ _ _ _ _ _ _ hrun := by
    unfold chainCode at hrun
    exact absurd hrun exec_throw_ne_ok
  statement _ _ _ _ _ _ _ _ _ _ _ _ hrun := by
    unfold statementCode at hrun
    exact absurd hrun exec_throw_ne_ok
  dispatch _ _ _ _ _ _ _ _ _ _ _ _ hrun := by
    unfold Generation.dispatch at hrun
    exact absurd hrun exec_throw_ne_ok

variable {f : Nat} (ih : w.TraversalLodges c R f)
include ih

/-- The code of a value slot: its block is reached, and disabled, or given to its rule, whose
expression places no texts, or whose code as a definition is registered. -/
theorem value_succ (hp : w.get? p = some parent) (hw : w.Within p σ) (slot : String) (order : Order) :
    w.Lodges c R (p :: σ) (valueCode (f + 1) parent slot order) (fun _ T => T = []) := by
  intro ctx s a t hs hrun
  unfold valueCode at hrun
  rcases hslot : parent.value? slot with _ | i
  · rw [hslot] at hrun
    obtain ⟨-, rfl⟩ := exec_pure_eq_ok.1 hrun
    exact ⟨hs, [], fun _ => p :: σ, .refl _ _ _ _, rfl⟩
  rw [hslot] at hrun
  obtain ⟨b, hb, hi, h₁⟩ := exec_block_visit hs.workspace hrun
  have hwi : w.Within i (p :: σ) := hw.value hp hslot
  cases hdis : b.disabled
  · rw [if_neg (by simp [hdis])] at h₁
    obtain ⟨⟨kind, out⟩, s₁, hd, h₂⟩ := exec_bind_eq_ok.1 h₁
    obtain ⟨hkind, hfits⟩ := dispatch_fits hd (hs.visit hi).inline
    obtain ⟨hs₁, hdisp⟩ :=
      ih.dispatch i (p :: σ) b hb hwi ctx _ kind out s₁ (hs.visit hi) List.mem_cons_self hd
    have hkept : (∀ code, out ≠ .statement code) → ∃ π, w.Kept c π (p :: σ) s s₁ [] := fun hout =>
      hdisp.kept hwi hi hs.reached hb hdis hkind hs₁.keyed (placed_in_value hfits hout nofun)
    cases out with
    | value code inner =>
      obtain ⟨-, rfl⟩ := exec_pure_eq_ok.1 h₂
      exact ⟨hs₁, [], (hkept fun _ h => by cases h).imp fun _ hk => ⟨hk, rfl⟩⟩
    | statement code => exact absurd h₂ exec_throw_ne_ok
    | hoisted =>
      obtain ⟨-, rfl⟩ := exec_pure_eq_ok.1 h₂
      exact ⟨hs₁, [], (hkept fun _ h => by cases h).imp fun _ hk => ⟨hk, rfl⟩⟩
  · rw [if_pos hdis] at h₁
    obtain ⟨-, rfl⟩ := exec_pure_eq_ok.1 h₁
    exact ⟨hs.visit hi, [], _, Kept.visit_disabled hwi hb hdis _, rfl⟩

/-- The code of a body: its chain, indented, holds what the chain's code holds. -/
theorem body_succ (hp : w.get? p = some parent) (hw : w.Within p σ) (slot : String) :
    w.Lodges c R (p :: σ) (bodyCode (f + 1) parent slot)
      (fun br T => ∀ x ∈ T, Text.Held x br.toList) := by
  unfold bodyCode
  rcases hslot : parent.statement? slot with _ | head
  · exact .pure nofun
  · exact .bind (ih.chain head (p :: σ) (hw.statement hp hslot)) fun _ _ h =>
      .bind_with .read fun _ _ => .pure fun x hx => (h x (by simpa using hx)).prefixLines _

/-- The code of a statement just reached: the block's comment lines, then its code wrapped as its
kind says, which holds the texts its rule handed back and the block's instrumentation.  A
definition leaves nothing in place. -/
theorem statement_succ (hb : w.get? i = some b) (hw : w.Within i σ) (hen : b.disabled = false) :
    ∀ ctx s here t, w.Around c R ctx σ s → i ∉ s.seen →
      (statementCode (f + 1) b).exec ctx { s with seen := i :: s.seen } = (.ok here, t) →
      w.Around c R ctx σ t ∧ ∃ T π, w.Kept c π σ s t T ∧ ∀ x ∈ T, Text.Held x here.toList := by
  intro ctx s here t hs hi hrun
  obtain rfl := hs.config
  unfold statementCode at hrun
  obtain ⟨⟨kind, out⟩, s₁, hd, h₁⟩ := exec_bind_eq_ok.1 hrun
  obtain ⟨hkind, hfits⟩ := dispatch_fits hd (hs.visit hi).inline
  obtain ⟨hs₁, hdisp⟩ := ih.dispatch i σ b hb hw ctx _ kind out s₁ (hs.visit hi) List.mem_cons_self hd
  cases out with
  | statement code =>
    obtain ⟨ctx', s₂, hread, h₂⟩ := exec_bind_eq_ok.1 h₁
    rw [exec_read] at hread
    cases hread
    obtain ⟨rfl, rfl⟩ := exec_pure_eq_ok.1 h₂
    have hhere : Text.Held (ctx.config.wrapStatement kind b code).toList
        (ctx.workspace.commentLines ctx.reach b ++ ctx.config.wrapStatement kind b code).toList :=
      (Text.Held.refl _).string_left _
    refine ⟨hs₁, [_], (hdisp.kept hw hi hs.reached hb hen hkind hs₁.keyed fun _ T hy => ?_).imp
      fun _ hkept => ⟨hkept, fun x hx => by rw [List.mem_singleton.1 hx]; exact .refl _⟩⟩
    -- the statement, wrapped as its kind says, stands after the block's comment lines
    obtain ⟨hT, hshaped, hown⟩ := hy.statement code rfl
    exact ⟨fun x hx => ⟨_, List.mem_singleton_self _,
        ((hT x hx).trans (ctx.config.held_wrapStatement kind b code)).trans hhere⟩,
      fun _ => ⟨_, List.mem_singleton_self _, (Instrumented.wrapStatement hshaped hown).mono hhere⟩⟩
  | hoisted =>
    obtain ⟨rfl, rfl⟩ := exec_pure_eq_ok.1 h₁
    refine ⟨hs₁, [], (hdisp.kept hw hi hs.reached hb hen hkind hs₁.keyed fun hdef _ _ => ?_).imp
      fun _ hkept => ⟨hkept, nofun⟩⟩
    have := hfits.classify.2.2.1.1 rfl
    rw [hdef] at this
    cases this
  | value code order => exact absurd h₁ exec_throw_ne_ok

/-- A block given to its rule: the rule runs with the block in front of the blocks around it,
and its children are the walk with one less fuel. -/
theorem dispatch_succ (hb : w.get? i = some b) (hw : w.Within i σ) :
    ∀ ctx s kind out t, w.Around c R ctx σ s → i ∈ s.seen →
      (Generation.dispatch (f + 1) b).exec ctx s = (.ok (kind, out), t) →
      w.Around c R ctx σ t ∧ w.Dispatched c σ i b s kind out t := by
  intro ctx s kind out t hs hi hrun
  unfold Generation.dispatch at hrun
  obtain ⟨k, s₁, hk, h₁⟩ := exec_bind_eq_ok.1 hrun
  obtain ⟨-, hs₁⟩ := exec_kindOf_eq_ok.1 hk
  subst s₁
  obtain ⟨_, s₂, hemit, h₂⟩ := exec_bind_eq_ok.1 h₁
  rw [exec_emit] at hemit
  cases hemit
  obtain ⟨o, s₃, hrule, h₃⟩ := exec_bind_eq_ok.1 h₂
  obtain ⟨hpair, hs₃⟩ := exec_pure_eq_ok.1 h₃
  obtain ⟨hk, ho⟩ := Prod.mk.inj hpair
  subst k o s₃
  rw [exec_withReader] at hrule
  -- the children are the walk with one less fuel, with the block around them
  have hv := fun slot order => ih.value i σ b hb hw slot order
  have hbody := fun slot => ih.body i σ b hb hw slot
  have hin := (hs.events (s.events.push (.dispatched b.id kind))).rule hb hi
  cases hdef : kind.isDefinition
  · obtain ⟨ht, T, π, hkept, hy⟩ := BlockKind.rule_lodges hb hv hbody kind hdef _ _ out t hin hrule
    refine ⟨hs.of_rule ht, fun _ => ⟨T, π, hkept.of_names rfl (fun _ he => he) rfl, hy⟩, fun h => ?_⟩
    rw [hdef] at h
    cases h
  · obtain ⟨ht, -, hreg⟩ :=
      BlockKind.rule_registers hv hbody kind hdef (w.blocksAt σ) _ _ out t hin hrule
    refine ⟨hs.of_rule ht, fun h => ?_, fun _ => hreg.of_names rfl (fun _ he => he) rfl⟩
    rw [hdef] at h
    cases h

/-- A statement chain: each block is reached, and is disabled or a statement, then the chain
goes on with its successor. -/
theorem chain_succ (hw : w.Within i σ) :
    w.Lodges c R σ (chainCode (f + 1) i) (fun code T => ∀ x ∈ T, Text.Held x code.toList) := by
  intro ctx s code t hs hrun
  unfold chainCode at hrun
  obtain ⟨b, hb, hi, h₁⟩ := exec_block_visit hs.workspace hrun
  obtain ⟨here, s₁, hhere, h₂⟩ := exec_bind_eq_ok.1 h₁
  have hfirst : w.Around c R ctx σ s₁ ∧
      ∃ T π, w.Kept c π σ s s₁ T ∧ ∀ x ∈ T, Text.Held x here.toList := by
    cases hdis : b.disabled
    · rw [if_neg (by simp [hdis])] at hhere
      exact ih.statement i σ b hb hw hdis ctx s here s₁ hs hi hhere
    · rw [if_pos hdis] at hhere
      obtain ⟨rfl, rfl⟩ := exec_pure_eq_ok.1 hhere
      exact ⟨hs.visit hi, [], _, Kept.visit_disabled hw hb hdis _, nofun⟩
  obtain ⟨hs₁, T₁, π₁, hkept₁, hT₁⟩ := hfirst
  rcases hnext : b.next with _ | j
  · rw [hnext] at h₂
    obtain ⟨rfl, rfl⟩ := exec_pure_eq_ok.1 h₂
    exact ⟨hs₁, T₁, π₁, hkept₁, hT₁⟩
  · rw [hnext] at h₂
    obtain ⟨rest, s₂, hrest, h₃⟩ := exec_bind_eq_ok.1 h₂
    obtain ⟨rfl, rfl⟩ := exec_pure_eq_ok.1 h₃
    obtain ⟨hs₂, T₂, π₂, hkept₂, hT₂⟩ :=
      ih.chain j σ (.next hw hb hnext) ctx s₁ rest s₂ hs₁ hrest
    refine ⟨hs₂, T₁ ++ T₂, _, hkept₁.trans hs₂.nodup hs.reached hs₂.keyed hkept₂, fun x hx => ?_⟩
    rcases List.mem_append.1 hx with hx | hx
    · exact (hT₁ x hx).string_right _
    · exact (hT₂ x hx).string_left _

end TraversalLodges

/-- **The whole walk lodges the code of the blocks it reaches**, with any fuel: each part takes
one step with the others' fuel one less. -/
theorem traversalLodges (f : Nat) : w.TraversalLodges c R f := by
  induction f with
  | zero => exact .zero
  | succ f ih =>
    exact ⟨fun _ _ _ hp hw => ih.value_succ hp hw, fun _ _ _ hp hw => ih.body_succ hp hw,
      fun _ _ hw => ih.chain_succ hw, fun _ _ _ hb hw hen => ih.statement_succ hb hw hen,
      fun _ _ _ hb hw => ih.dispatch_succ hb hw⟩

/-! ### The code of the roots -/

/-- Steps over a list, each handing back texts held in its result. -/
theorem Lodges.mapM_held {γ : Type} {g : γ → GenM String} {xs : List γ}
    (h : ∀ x ∈ xs, w.Lodges c R σ (g x) (fun r T => ∀ y ∈ T, Text.Held y r.toList)) :
    w.Lodges c R σ (xs.mapM g) (fun rs T => ∀ y ∈ T, ∃ r ∈ rs, Text.Held y r.toList) := by
  induction xs with
  | nil => exact .pure nofun
  | cons x xs ih =>
    rw [List.mapM_cons]
    refine .bind (h x List.mem_cons_self) fun r T₁ h₁ =>
      .bind (ih fun y hy => h y (List.mem_cons_of_mem x hy)) fun rs T₂ h₂ => .pure fun y hy => ?_
    rcases List.mem_append.1 hy with hy | hy
    · exact ⟨r, List.mem_cons_self, h₁ y hy⟩
    · obtain ⟨r', hr', hy'⟩ := h₂ y (by simpa using hy)
      exact ⟨r', List.mem_cons_of_mem r hr', hy'⟩

variable {f r : Nat}

/-- **The code of a root** holds the texts it hands back: a root's statement chain, or, for an
enabled root of a kind of value, its expression written as a statement, which holds the block's
instrumentation. -/
theorem rootCode_lodges (ih : w.TraversalLodges c R f) (hr : r ∈ w.roots) :
    w.Lodges c R [] (rootCode f r) (fun code T => ∀ x ∈ T, Text.Held x code.toList) := by
  intro ctx s code t hs hrun
  obtain rfl := hs.config
  unfold rootCode at hrun
  obtain ⟨b, s₁, hblock, h₁⟩ := exec_bind_eq_ok.1 hrun
  obtain ⟨hb, hs₁⟩ := exec_block_eq_ok.1 hblock
  subst s₁
  rw [hs.workspace] at hb
  obtain ⟨isValue, s₂, hisValue, h₂⟩ := exec_bind_eq_ok.1 h₁
  -- reading the kind keeps the session, and tells whether the root is an enabled value
  have hread : s₂ = s ∧ (isValue = true →
      b.disabled = false ∧ ∃ k, BlockKind.ofName? b.kind = some k ∧ k.isValue = true) := by
    cases hdis : b.disabled
    · rw [if_neg (by simp [hdis])] at hisValue
      obtain ⟨k, hkind, rfl⟩ := exec_map_eq_ok.1 hisValue
      obtain ⟨hk, rfl⟩ := exec_kindOf_eq_ok.1 hkind
      exact ⟨rfl, fun hv => ⟨rfl, k, hk, hv⟩⟩
    · rw [if_pos hdis] at hisValue
      obtain ⟨rfl, rfl⟩ := exec_pure_eq_ok.1 hisValue
      exact ⟨rfl, nofun⟩
  obtain ⟨hs₂, hvalue⟩ := hread
  subst s₂
  cases isValue with
  | false =>
    rw [if_pos (show (!false) = true from rfl)] at h₂
    exact ih.chain r [] (.root hr) ctx s code t hs h₂
  | true =>
    obtain ⟨hen, k, hk, hv⟩ := hvalue rfl
    rw [if_neg (show ¬(!true) = true from nofun)] at h₂
    obtain ⟨_, s₃, hvisit, h₃⟩ := exec_bind_eq_ok.1 h₂
    obtain ⟨hi, hs₃⟩ := exec_visit_eq_ok.1 hvisit
    subst s₃
    obtain ⟨⟨kind, out⟩, s₄, hd, h₄⟩ := exec_bind_eq_ok.1 h₃
    obtain ⟨hkind, hfits⟩ := dispatch_fits hd (hs.visit hi).inline
    rw [hk] at hkind
    have hkk := Option.some.inj hkind
    subst kind
    obtain ⟨v, order, rfl, hv'⟩ := hfits.value hv
    obtain ⟨hs₄, hdisp⟩ :=
      ih.dispatch r [] b hb (.root hr) ctx _ _ _ s₄ (hs.visit hi) List.mem_cons_self hd
    obtain ⟨ctx', s₅, hctx, h₅⟩ := exec_bind_eq_ok.1 h₄
    rw [exec_read] at hctx
    cases hctx
    obtain ⟨hcode, hs₅⟩ := exec_pure_eq_ok.1 h₅
    subst code t
    -- the expression is not empty, so the root is written as a statement
    rw [if_neg (by simp [hv'])]
    have hown := BlockKind.placesOwnSnippets_eq_false_of_isValue hv
    have hexit : k ≠ .ifReturn := fun h => by
      subst h
      cases hv
    refine ⟨hs₄, [_], (hdisp.kept (.root hr) hi nofun hb hen hk hs₄.keyed fun _ T hy => ?_).imp
      fun _ hkept => ⟨hkept, fun x hx => by rw [List.mem_singleton.1 hx]; exact .refl _⟩⟩
    rw [hy.value hv]
    exact ⟨nofun, fun _ => ⟨_, List.mem_singleton_self _,
      Instrumented.wrapStatement (Yielded.shaped_of_plain hown hexit _)
        fun h => absurd (hown ▸ h) Bool.false_ne_true⟩⟩

/-- **The code of all roots** holds the texts each root hands back: the lines of the roots that
are not empty, joined. -/
theorem body_lodges (ih : w.TraversalLodges c R f) :
    w.Lodges c R [] (Generation.body f w.roots) (fun code T => ∀ x ∈ T, Text.Held x code.toList) := by
  unfold Generation.body
  refine .bind (Lodges.mapM_held fun r hr => rootCode_lodges ih hr) fun lines _ h =>
    .pure fun x hx => ?_
  obtain ⟨line, hline, hx⟩ := h x (by simpa using hx)
  exact hx.joinLines hline

end Workspace

end BlockScribe
