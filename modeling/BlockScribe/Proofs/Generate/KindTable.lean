import BlockScribe.Proofs.Generate.Outputs
import BlockScribe.Proofs.Generate.InlineKeys
/-!
# The kind table and the traversal

The traversal treats a block by its kind before the block's rule has run: a root of a kind of
value is written as an expression statement, a value slot takes the code of a value, a statement
chain takes statements, and a procedure definition is hoisted and leaves nothing in place.
Since every rule gives back what its kind says (`BlockKind.rule_fits`), the traversal never
meets an output it does not expect, in every session a generation passes through (the names of
its keys are inline, `Generation.keysInline_run`):

* a block given to its rule comes back as its kind says (`Generation.dispatch_fits`);
* an enabled root of a kind of value is written as its expression, which is never empty
  (`Generation.rootCode_of_value`);
* a value slot gives no code only when it is empty or holds a disabled block or a procedure
  definition, never because an expression was empty (`Generation.valueCode_eq_none`);
* a block of a kind of value in a statement chain stops the generation, with the error of its
  own rule when that rule stops, and otherwise because a statement was expected
  (`Generation.statementCode_of_value`).

In the last point the rule runs first, so its own error comes first
(`statement_value_block_reports_rule_error`).  The main statement is
`dispatch_output_follows_kind`.
-/

namespace BlockScribe

open GenM Output

namespace Generation

variable {ctx : Context} {s t : Session}

/-- The code of a value slot, when there is one, is not empty: an expression that is empty
counts as no value, and any other is bracketed. -/
theorem valueCode_filled (f : Nat) (parent : Block) :
    (⟨valueCode f parent, bodyCode f parent⟩ : Children).ValuesFilled := by
  intro slot outer
  show Yields _ (valueCode f parent slot outer)
  cases f with
  | zero => exact .throw _
  | succ f =>
    unfold valueCode
    split
    · exact .pure (by simp)
    · refine .bind_any fun b => .bind_any fun _ => ?_
      split
      · exact .pure (by simp)
      · refine .bind_any fun p => ?_
        obtain ⟨_, out⟩ := p
        cases out with
        | value code inner =>
          refine .pure fun c hc => ?_
          split at hc
          · cases hc
          · rename_i hne
            cases hc
            exact bracket_ne_empty (by simpa using hne) _ _
        | statement => exact .throw _
        | hoisted => exact .pure (by simp)

/-- **A block comes back from its rule as its kind says**, from every session whose keys have
inline names. -/
theorem dispatch_fits {f : Nat} {b : Block} {kind : BlockKind} {out : Output}
    (h : (dispatch f b).exec ctx s = (.ok (kind, out), t)) (hs : s.names.KeysInline) :
    BlockKind.ofName? b.kind = some kind ∧ out.Fits kind := by
  cases f with
  | zero =>
    unfold dispatch at h
    rw [exec_throw] at h
    cases h
  | succ f =>
    unfold dispatch at h
    obtain ⟨k, s₁, hk, h₁⟩ := exec_bind_eq_ok.1 h
    obtain ⟨hkind, rfl⟩ := exec_kindOf_eq_ok.1 hk
    obtain ⟨_, s₂, hemit, h₂⟩ := exec_bind_eq_ok.1 h₁
    rw [exec_emit] at hemit
    cases hemit
    obtain ⟨o, s₃, hrule, h₃⟩ := exec_bind_eq_ok.1 h₂
    rw [exec_pure] at h₃
    cases h₃
    rw [exec_withReader] at hrule
    exact ⟨hkind, BlockKind.rule_fits (valueCode_filled f b) _ b _ hrule hs⟩

/-- A block whose kind is known comes back from its rule as that kind says. -/
theorem dispatch_fits_kind {f : Nat} {b : Block} {k kind : BlockKind} {out : Output}
    (hk : BlockKind.ofName? b.kind = some k) (h : (dispatch f b).exec ctx s = (.ok (kind, out), t))
    (hs : s.names.KeysInline) : kind = k ∧ out.Fits k := by
  obtain ⟨hkind, hfits⟩ := dispatch_fits h hs
  rw [hk] at hkind
  cases hkind
  exact ⟨rfl, hfits⟩

/-- A value slot gives no code only when it is empty, or holds a disabled block or a procedure
definition. -/
theorem valueCode_eq_none {f : Nat} {parent : Block} {slot : String} {outer : Order}
    (h : (valueCode f parent slot outer).exec ctx s = (.ok none, t)) (hs : s.names.KeysInline) :
    parent.value? slot = none ∨ ∃ i b, parent.value? slot = some i ∧ ctx.workspace.get? i = some b ∧
      (b.disabled = true ∨ ∃ k, BlockKind.ofName? b.kind = some k ∧ k.isDefinition = true) := by
  cases f with
  | zero =>
    unfold valueCode at h
    rw [exec_throw] at h
    cases h
  | succ f =>
    unfold valueCode at h
    rcases hslot : parent.value? slot with _ | i
    · exact .inl rfl
    rw [hslot] at h
    obtain ⟨b, s₁, hb, h₁⟩ := exec_bind_eq_ok.1 h
    obtain ⟨hget, rfl⟩ := exec_block_eq_ok.1 hb
    refine .inr ⟨i, b, rfl, hget, ?_⟩
    obtain ⟨_, s₂, hvisit, h₂⟩ := exec_bind_eq_ok.1 h₁
    obtain ⟨-, rfl⟩ := exec_visit_eq_ok.1 hvisit
    by_cases hdis : b.disabled = true
    · exact .inl hdis
    refine .inr ?_
    rw [if_neg hdis] at h₂
    obtain ⟨⟨kind, out⟩, s₃, hd, h₃⟩ := exec_bind_eq_ok.1 h₂
    obtain ⟨hkind, hfits⟩ := dispatch_fits hd hs
    have hclass := hfits.classify
    cases out with
    | value code inner =>
      -- the expression of a kind of value is not empty, so it is bracketed and given back
      rw [exec_pure, if_neg (by simpa using hclass.2.1 code inner rfl)] at h₃
      cases h₃
    | statement code =>
      rw [exec_throw] at h₃
      cases h₃
    | hoisted => exact ⟨kind, hkind, hclass.2.2.1.1 rfl⟩

/-- **A block of a kind of value in a statement chain stops the generation**: with the error of
its own rule when that rule stops, and otherwise because a statement was expected. -/
theorem statementCode_of_value {f : Nat} {b : Block} {k : BlockKind}
    (hk : BlockKind.ofName? b.kind = some k) (hv : k.isValue = true) (hs : s.names.KeysInline) :
    ((statementCode (f + 1) b).exec ctx s).1 =
      (((dispatch f b).exec ctx s).1 >>= fun _ => .error (.expectedStatement b.id b.kind)) := by
  unfold statementCode
  rw [exec_bind]
  rcases hd : (dispatch f b).exec ctx s with ⟨_ | ⟨kind, out⟩, u⟩
  · rfl
  · obtain ⟨rfl, hfits⟩ := dispatch_fits_kind hk hd hs
    obtain ⟨code, order, rfl, -⟩ := hfits.value hv
    rfl

/-- **An enabled root of a kind of value is written as its expression**, after the block's
comment lines and as a statement instrumented as its kind says; the expression is not empty, so
the root's code is never dropped. -/
theorem rootCode_of_value {f i : Nat} {b : Block} {k : BlockKind} {r : String}
    (hb : ctx.workspace.get? i = some b) (hdis : b.disabled = false)
    (hk : BlockKind.ofName? b.kind = some k) (hv : k.isValue = true)
    (h : (rootCode f i).exec ctx s = (.ok r, t)) (hs : s.names.KeysInline) :
    ∃ code, code ≠ "" ∧
      r = ctx.config.wrapStatement k b (ctx.workspace.commentLines ctx.reach b ++ code ++ ";\n") := by
  unfold rootCode at h
  obtain ⟨b', s₁, hb', h₁⟩ := exec_bind_eq_ok.1 h
  obtain ⟨hget, rfl⟩ := exec_block_eq_ok.1 hb'
  rw [hb] at hget
  cases hget
  -- the kind table is read before the rule runs, and says value
  obtain ⟨isValue, s₂, hisValue, h₂⟩ := exec_bind_eq_ok.1 h₁
  have hread : isValue = true ∧ s₂ = s₁ := by
    rw [if_neg (by simp [hdis]), exec_map, exec_kindOf, hk] at hisValue
    simp only [Prod.mk.injEq, Except.ok.injEq] at hisValue
    exact ⟨hisValue.1 ▸ hv, hisValue.2.symm⟩
  obtain ⟨rfl, rfl⟩ := hread
  rw [if_neg (by decide)] at h₂
  obtain ⟨_, s₃, hvisit, h₃⟩ := exec_bind_eq_ok.1 h₂
  obtain ⟨-, rfl⟩ := exec_visit_eq_ok.1 hvisit
  obtain ⟨⟨kind, out⟩, s₄, hd, h₄⟩ := exec_bind_eq_ok.1 h₃
  obtain ⟨rfl, hfits⟩ := dispatch_fits_kind hk hd hs
  obtain ⟨code, order, rfl, hcode⟩ := hfits.value hv
  obtain ⟨ctx', s₅, hctx, h₅⟩ := exec_bind_eq_ok.1 h₄
  rw [exec_read] at hctx
  cases hctx
  rw [exec_pure] at h₅
  cases h₅
  refine ⟨code, hcode, ?_⟩
  rw [if_neg (by simp [hcode])]

end Generation

/-- **What the kind of a block says, its rule gives back.**  In every session whose keys have
inline names, as every session of a generation has (`Generation.keysInline_run`): a block that
comes back from its rule, whatever its kind, comes back as an expression exactly when its kind is
one of values, and the expression is not empty; with nothing in place exactly when it is a
procedure definition; and as statements otherwise.  So an enabled root of a kind of value is
written as its expression and never dropped; a value slot gives no code only when it is empty or
holds a disabled block or a procedure definition; and a block of a kind of value in a statement
chain stops the generation with the error of its own rule when that rule stops, and otherwise
because a statement was expected. -/
theorem dispatch_output_follows_kind (ctx : Context) (s : Session) (hs : s.names.KeysInline) :
    (∀ f b kind out t, (Generation.dispatch f b).exec ctx s = (.ok (kind, out), t) →
      BlockKind.ofName? b.kind = some kind ∧
        ((∃ code order, out = .value code order) ↔ kind.isValue = true) ∧
        (∀ code order, out = .value code order → code ≠ "") ∧
        (out = .hoisted ↔ kind = .defineReturn ∨ kind = .defineNoReturn) ∧
        ((∃ code, out = .statement code) ↔
          kind.isValue = false ∧ kind ≠ .defineReturn ∧ kind ≠ .defineNoReturn)) ∧
    (∀ f i b k r t, ctx.workspace.get? i = some b → b.disabled = false →
      BlockKind.ofName? b.kind = some k → k.isValue = true →
      (Generation.rootCode f i).exec ctx s = (.ok r, t) →
      ∃ code, code ≠ "" ∧
        r = ctx.config.wrapStatement k b (ctx.workspace.commentLines ctx.reach b ++ code ++ ";\n")) ∧
    (∀ f parent slot outer t, (Generation.valueCode f parent slot outer).exec ctx s = (.ok none, t) →
      parent.value? slot = none ∨ ∃ i b, parent.value? slot = some i ∧ ctx.workspace.get? i = some b ∧
        (b.disabled = true ∨ BlockKind.ofName? b.kind = some .defineReturn ∨
          BlockKind.ofName? b.kind = some .defineNoReturn)) ∧
    (∀ f b k, BlockKind.ofName? b.kind = some k → k.isValue = true →
      ((Generation.statementCode (f + 1) b).exec ctx s).1 =
        (((Generation.dispatch f b).exec ctx s).1 >>= fun _ => .error (.expectedStatement b.id b.kind))) := by
  refine ⟨fun f b kind out t h => ?_, fun f i b k r t hb hdis hk hv h =>
    Generation.rootCode_of_value hb hdis hk hv h hs, fun f parent slot outer t h => ?_,
    fun f b k hk hv => Generation.statementCode_of_value hk hv hs⟩
  · obtain ⟨hkind, hfits⟩ := Generation.dispatch_fits h hs
    obtain ⟨hvalue, hcode, hhoisted, hstatement⟩ := hfits.classify
    rw [BlockKind.isDefinition_iff] at hhoisted
    refine ⟨hkind, hvalue, hcode, hhoisted, ?_⟩
    rw [hstatement, ← not_or, ← BlockKind.isDefinition_iff]
    simp
  · rcases Generation.valueCode_eq_none h hs with hnone | ⟨i, b, hslot, hget, hdis | ⟨k, hk, hdef⟩⟩
    · exact .inl hnone
    · exact .inr ⟨i, b, hslot, hget, .inl hdis⟩
    · rw [BlockKind.isDefinition_iff] at hdef
      rcases hdef with rfl | rfl
      · exact .inr ⟨i, b, hslot, hget, .inr (.inl hk)⟩
      · exact .inr ⟨i, b, hslot, hget, .inr (.inr hk)⟩

/-- The names of keys are inline where a generation starts, so the kinds are followed there. -/
theorem kinds_followed_at_start :
    let w : Workspace := ⟨#[{ id := "b0", kind := "variables_get", fields := ⟨[("VAR", "x")]⟩ }],
      [0], [], false⟩
    let ctx := Generation.context w {}
    let s := Generation.start w {}
    s.names.KeysInline ∧
    (∀ f b kind out t, (Generation.dispatch f b).exec ctx s = (.ok (kind, out), t) →
      BlockKind.ofName? b.kind = some kind ∧
        ((∃ code order, out = .value code order) ↔ kind.isValue = true) ∧
        (∀ code order, out = .value code order → code ≠ "") ∧
        (out = .hoisted ↔ kind = .defineReturn ∨ kind = .defineNoReturn) ∧
        ((∃ code, out = .statement code) ↔
          kind.isValue = false ∧ kind ≠ .defineReturn ∧ kind ≠ .defineNoReturn)) ∧
    (∀ f i b k r t, ctx.workspace.get? i = some b → b.disabled = false →
      BlockKind.ofName? b.kind = some k → k.isValue = true →
      (Generation.rootCode f i).exec ctx s = (.ok r, t) →
      ∃ code, code ≠ "" ∧
        r = ctx.config.wrapStatement k b (ctx.workspace.commentLines ctx.reach b ++ code ++ ";\n")) ∧
    (∀ f parent slot outer t, (Generation.valueCode f parent slot outer).exec ctx s = (.ok none, t) →
      parent.value? slot = none ∨ ∃ i b, parent.value? slot = some i ∧ ctx.workspace.get? i = some b ∧
        (b.disabled = true ∨ BlockKind.ofName? b.kind = some .defineReturn ∨
          BlockKind.ofName? b.kind = some .defineNoReturn)) ∧
    (∀ f b k, BlockKind.ofName? b.kind = some k → k.isValue = true →
      ((Generation.statementCode (f + 1) b).exec ctx s).1 =
        (((Generation.dispatch f b).exec ctx s).1 >>= fun _ => .error (.expectedStatement b.id b.kind))) := by
  intro w ctx s
  exact ⟨Generation.keysInline_start w {},
    dispatch_output_follows_kind ctx s (Generation.keysInline_start w {})⟩

/-- A block of a kind of value in a statement chain whose own rule stops reports its rule's error,
not that a statement was expected: in the workspace
{"blocks": [{"type": "text_print", "next": {"type": "logic_boolean", "fields": {"BOOL": "X"}}}]}
the boolean after the print holds none of its options in its field. -/
theorem statement_value_block_reports_rule_error :
    let w : Workspace := ⟨#[{ id := "b0", kind := "text_print", next := some 1 },
      { id := "b1", kind := "logic_boolean", fields := ⟨[("BOOL", "X")]⟩ }], [0], [], false⟩
    Workspace.ofJson ("\x7b\"blocks\": [\x7b\"type\": \"text_print\", \"next\": " ++
        "\x7b\"type\": \"logic_boolean\", \"fields\": \x7b\"BOOL\": \"X\"\x7d\x7d\x7d]\x7d") = .ok w ∧
      (generate w {}).result = .error (.invalidField "b1" "logic_boolean" "BOOL" "X") := by
  intro w
  exact ⟨Except.eq_ok_of_toOption (by decide +kernel), by decide +kernel⟩

end BlockScribe
