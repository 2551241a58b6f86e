import BlockScribe.Proofs.Generate.Lodged
import BlockScribe.Proofs.Text.Finish
/-!
# Instrumentation is never skipped

A generation that succeeds writes the instrumentation of every statement it reached, and of
every enabled root of a kind of value: each of them, with the blocks around it on the way the
walk reached it, is `Instrumented` in the program text before it is finished (`Layout.draft`).
Nothing is assumed of the workspace: a block linked from two places is reached once, on one of
the ways, and the statement names the way by a function `π` from each reached block to the
blocks around it.  That is, the text holds the block's
statement prefix and suffix, the suffix and then the prefix of the loop left before every `break`
and `continue`, the indented suffix before every early `return`, and at the head of every arm of
an `if` chain.  A block inside a procedure definition has this in the definition's registered
code, unless a later definition of the same name replaced that code (`Workspace.Overwrites`).

The program is that text finished (`Layout.assemble_eq_tidy_draft`), and finishing removes
nothing but trailing spaces and tabs exactly when the text does not begin with a blank line and
does not end with blank lines after its last line break (`Layout.OnlyTrims`).  Otherwise it
removes more: a statement prefix that begins the program with a blank line loses it
(`leading_blank_prefix_dropped`).  The main statement is `instrumentation_kept_until_finish`.
-/

namespace BlockScribe

open GenM Generation

/-- A piece that follows a line break of a text whose first line is `x` follows it within what
comes after that first line. -/
theorem Text.infix_rest_of_newline_infix {x m rest : List Char} (hx : '\n' ∉ x)
    (h : '\n' :: m <:+: x ++ '\n' :: rest) : m <:+: rest := by
  obtain ⟨p, q, hpq⟩ := h
  rw [List.append_assoc, List.cons_append] at hpq
  rcases List.append_eq_append_iff.1 hpq with ⟨a, rfl, ha⟩ | ⟨c, rfl, hc⟩
  · -- the line break is the one after `x`: one within `x` would be in `x`
    rcases a with _ | ⟨y, a⟩
    · obtain ⟨-, hrest⟩ := List.cons.inj ha
      exact ⟨[], q, by simp [hrest]⟩
    · obtain ⟨rfl, -⟩ := List.cons.inj ha
      exact absurd (by simp) hx
  · rcases c with _ | ⟨y, c⟩
    · obtain ⟨-, hrest⟩ := List.cons.inj hc
      exact ⟨[], q, by simp [hrest]⟩
    · obtain ⟨-, hrest⟩ := List.cons.inj hc
      exact ⟨c ++ ['\n'], q, by simp [hrest]⟩

namespace Layout

variable {x : List Char} {code : String}

theorem held_draft_code (h : Text.Held x code.toList) (definitions : List String) :
    Text.Held x (draft definitions code).toList := by
  unfold draft
  split
  · exact h
  · exact h.string_left _

theorem held_draft_definition {definitions : List String} {d : String} (hd : d ∈ definitions) :
    Text.Held d.toList (draft definitions code).toList := by
  unfold draft
  rw [if_neg (List.ne_nil_of_mem hd)]
  exact ((Text.Held.intercalate hd).string_right _).string_right _

end Layout

namespace Workspace

variable {w : Workspace} {c : Config} {σ : List Nat} {s t : Session} {T : List (List Char)}

/-- A session whose events alone differ keeps what the step kept. -/
theorem Kept.events {π : Nat → List Nat} (h : w.Kept c π σ s t T) (e : Array Event) :
    w.Kept c π σ s { t with events := e } T :=
  ⟨h.grows, h.settled, h.named, h.frame⟩

/-- A generation starts from a session around no blocks. -/
theorem around_start (w : Workspace) (c : Config) :
    w.Around c (reservedWords ++ c.reservedWords) (context w c) [] (start w c) :=
  ⟨rfl, rfl, rfl, nofun, List.nodup_nil, start_namesApart w c, keysInline_start w c,
    (start_namesApart w c).table.shaped.global_lt⟩

/-- **A whole generation lodges the code of every block it reaches**: the code of the roots holds
the texts the walk handed back, and the program is the definitions and that code, assembled. -/
theorem program_lodges {f : Nat} {out : String}
    (hrun : (program f w).exec (context w c) (start w c) = (.ok out, t)) :
    ∃ code T π, w.Kept c π [] (start w c) t T ∧ (∀ x ∈ T, Text.Held x code.toList) ∧
      out = Layout.assemble t.registry.codes code := by
  unfold program at hrun
  obtain ⟨code, s₁, hbody, h₁⟩ := exec_bind_eq_ok.1 hrun
  obtain ⟨-, T, π, hkept, hT⟩ :=
    body_lodges (traversalLodges f) _ _ code s₁ (around_start w c) hbody
  obtain ⟨s₂, s₃, hget, h₂⟩ := exec_bind_eq_ok.1 h₁
  rw [exec_get] at hget
  obtain ⟨hs₂, hs₃⟩ := Prod.mk.inj hget
  cases hs₂
  subst s₃
  obtain ⟨_, s₄, hemit, h₃⟩ := exec_bind_eq_ok.1 h₂
  rw [exec_emit] at hemit
  obtain ⟨-, hs₄⟩ := Prod.mk.inj hemit
  subst s₄
  obtain ⟨hout, ht⟩ := exec_pure_eq_ok.1 h₃
  subst out t
  exact ⟨code, T, π, hkept.events _, hT, rfl⟩

end Workspace

/-- **Instrumentation is never skipped.**  A generation that succeeds with `out` reaches blocks
each of which lies under blocks `π k` it reached before, on a way down from a root; enabled and
of a kind of statement, or an enabled root of a kind of value, each has its instrumentation, with
those blocks around it, in the program text before it is finished, unless it lies in a procedure
definition whose code a definition of the same name registered after it replaced.  The program
is that text finished, and it is that text with only trailing spaces and tabs removed exactly
when the text neither begins with a blank line nor ends with blank lines after its last line
break. -/
theorem instrumentation_kept_until_finish {w : Workspace} {c : Config} {out : String} {t : Session}
    (hrun : Generation.run w c = (.ok out, t)) :
    ∃ code π, out = Layout.tidy (Layout.draft t.registry.codes code) ∧
      (∀ k ∈ t.seen, w.Within k (π k) ∧ (∀ j ∈ π k, j ∈ t.seen) ∧
        ∀ b K, w.get? k = some b → b.disabled = false →
          BlockKind.ofName? b.kind = some K → (K.isValue = false ∨ π k = []) →
            Instrumented c (w.blocksAt (π k)) b K (Layout.draft t.registry.codes code).toList ∨
              ∃ h D, w.home (k :: π k) = some h ∧ w.Overwrites π t.seen h D) ∧
      (out = String.ofList (Layout.trimLineEnds (Layout.draft t.registry.codes code).toList) ↔
        Layout.OnlyTrims (Layout.draft t.registry.codes code).toList) := by
  obtain ⟨code, T, π, hkept, hT, hout⟩ := Workspace.program_lodges hrun
  rw [Layout.assemble_eq_tidy_draft] at hout
  refine ⟨code, π, hout, fun k hk => ?_, by rw [hout]; exact Layout.tidy_eq_trimLineEnds_iff _⟩
  -- every block reached was reached by the generation, from the roots
  obtain ⟨τ, hπ, hw, hτ, hsettled⟩ := hkept.settled k hk List.not_mem_nil
  simp only [List.append_nil] at hπ hw hsettled
  rw [hπ]
  refine ⟨hw, fun j hj => (hτ j hj).1, fun b K hb hen hK hv => ?_⟩
  obtain ⟨hnone, hsome⟩ := hsettled b K hb hen hK hv
  rcases hh : w.home (k :: τ) with _ | h
  · obtain ⟨x, hx, hm⟩ := hnone hh
    exact .inl (hm.mono (Layout.held_draft_code (hT x hx) _))
  · rcases hsome h hh with ⟨bh, N, d, hgeth, hN, hfind, hm⟩ | ⟨D, hD⟩
    · exact .inl (hm.mono (Layout.held_draft_definition (Registry.code_mem_codes hfind)))
    · exact .inr ⟨h, D, rfl, hD⟩

/-- One `print` statement between a prefix and a suffix, each a line of its own. -/
theorem print_instrumentation_kept :
    let w : Workspace := ⟨#[{ id := "a", kind := "text_print" }], [0], [], false⟩
    let c : Config := { statementPrefix := some "enter(%1);\n", statementSuffix := some "leave(%1);\n" }
    let out := "enter('a');\nwindow.alert('');\nleave('a');\n"
    let t := (Generation.run w c).2
    Generation.run w c = (.ok out, t) ∧
      ∃ code π, out = Layout.tidy (Layout.draft t.registry.codes code) ∧
        (∀ k ∈ t.seen, w.Within k (π k) ∧ (∀ j ∈ π k, j ∈ t.seen) ∧
          ∀ b K, w.get? k = some b → b.disabled = false →
            BlockKind.ofName? b.kind = some K → (K.isValue = false ∨ π k = []) →
              Instrumented c (w.blocksAt (π k)) b K (Layout.draft t.registry.codes code).toList ∨
                ∃ h D, w.home (k :: π k) = some h ∧ w.Overwrites π t.seen h D) ∧
        (out = String.ofList (Layout.trimLineEnds (Layout.draft t.registry.codes code).toList) ↔
          Layout.OnlyTrims (Layout.draft t.registry.codes code).toList) := by
  intro w c out t
  have hrun : Generation.run w c = (.ok out, t) := Prod.ext (by decide +kernel) rfl
  exact ⟨hrun, instrumentation_kept_until_finish hrun⟩

/-- **A prefix that begins with a blank line loses it.**  The only statement of
{"blocks": [{"type": "text_print", "id": "a"}]} under the statement prefix "\nenter(%1);\n" and
the suffix "leave(%1);\n" has the prefix "\nenter('a');\n"; finishing drops the line break that
begins the program, so the program does not hold the prefix, not even with its lines
indented. -/
theorem leading_blank_prefix_dropped :
    let w : Workspace := ⟨#[{ id := "a", kind := "text_print" }], [0], [], false⟩
    let c : Config :=
      { statementPrefix := some "\nenter(%1);\n", statementSuffix := some "leave(%1);\n" }
    Workspace.ofJson "\x7b\"blocks\": [\x7b\"type\": \"text_print\", \"id\": \"a\"\x7d]\x7d" = .ok w ∧
      (generate w c).result = .ok "enter('a');\nwindow.alert('');\nleave('a');\n" ∧
      c.prefixFor w.blocks[0]! = some "\nenter('a');\n" ∧
      ¬ Text.Held "\nenter('a');\n".toList "enter('a');\nwindow.alert('');\nleave('a');\n".toList := by
  intro w c
  refine ⟨Except.eq_ok_of_toOption (by decide +kernel), by decide +kernel, by decide +kernel,
    fun hheld => ?_⟩
  -- a held prefix starts a line with its first line, after some indentation ...
  rw [show "\nenter('a');\n".toList = '\n' :: "enter('a');".toList ++ ['\n'] from rfl] at hheld
  obtain ⟨u, hu⟩ := hheld.line_start (by decide +kernel) (by decide +kernel)
  -- ... but the program's first line is the only one that holds it
  rw [show "enter('a');\nwindow.alert('');\nleave('a');\n".toList =
    "enter('a');".toList ++ '\n' :: "window.alert('');\nleave('a');\n".toList from rfl] at hu
  have hrest := (List.suffix_append u _).isInfix.trans
    (Text.infix_rest_of_newline_infix (by decide +kernel) hu)
  exact absurd hrest (by decide +kernel)

end BlockScribe
