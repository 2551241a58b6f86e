import BlockScribe.Proofs.Generate.Fuel
import BlockScribe.Proofs.Generate.Dispatched
import BlockScribe.Proofs.Generate.Revisit
/-!
# A generation ends, and gives each block to its rule once

The facts of the traversal, put together for a whole generation of any workspace, links with
cycles and shared children included, under any options.  `Generation.program_exec_fuel` says
that the fuel a generation gets is more than it can use: any amount from `4 * size + 1` on has
the same outcome, which is never the end of the fuel; the measure behind it is the number of
blocks not reached yet, since every block is reached before it is given to its rule.
`Generation.run_dispatched_nodup` says that the blocks given to their rules are blocks reached,
in the order reached, none twice.  `Generation.run_explained` says that a generation stopped by
a block reached twice names a block that it reached, at the end of a link from a root or from a
block reached, and `Generation.chainCode_revisit` and its companions that following such a link
to a block reached stops the generation so.
-/

namespace BlockScribe

open Generation

theorem generate_result (w : Workspace) (c : Config) : (generate w c).result = (run w c).1 := rfl

theorem generate_events (w : Workspace) (c : Config) :
    (generate w c).events = (run w c).2.events.toList := rfl

/-- A generation starts with no block reached. -/
theorem start_marked (w : Workspace) (c : Config) : w.Marked (start w c).seen :=
  ⟨List.nodup_nil, fun _ h => absurd h List.not_mem_nil⟩

/-- A generation with any fuel from `4 * size + 1` on is the generation itself. -/
theorem run_eq_program (w : Workspace) (c : Config) {f : Nat} (hf : 4 * w.size + 1 ≤ f) :
    (program f w).exec (context w c) (start w c) = run w c := by
  have hw : (context w c).workspace = w := rfl
  have hfuel : 4 * w.size + 1 ≤ fuel w := by
    unfold fuel
    omega
  rw [run, (program_exec_fuel hw (start_marked w c) hf).1,
    (program_exec_fuel hw (start_marked w c) hfuel).1]

/-- **A generation ends, and gives each block to its rule at most once.**  For every workspace
and options: more fuel than `4 * size` changes nothing, and the outcome is never the end of the
fuel; the blocks given to their rules, in the order of the events, are distinct blocks reached,
in the order reached.  A generation stops with a block reached twice, naming `x`, only at the
visit of a block `n` with id `x` that a root or a block reached links to and that is already
reached: visiting it from the session the generation stops in fails with that very error.  And,
the other way, following a link to a block already reached (the head or the successor of a
chain, the block in a value slot, a root of a known kind) stops there, naming it, the session as
it was. -/
theorem generate_terminates_dispatching_once (w : Workspace) (c : Config) :
    (∀ f, 4 * w.size + 1 ≤ f → (program f w).exec (context w c) (start w c) = run w c) ∧
      (generate w c).result ≠ .error .outOfFuel ∧
      (∃ ps : List Nat, ps.Nodup ∧ ps.Sublist (run w c).2.seen.reverse ∧
        List.Forall₂ (fun i id => (w.get? i).map Block.id = some id) ps
          (dispatchedIds (generate w c).events)) ∧
      (∀ x, (generate w c).result = .error (.malformedLinkage x) →
        ∃ n b, w.get? n = some b ∧ n ∈ (run w c).2.seen ∧ w.Followed (run w c).2.seen n ∧
          (GenM.visit n b).exec (context w c) (run w c).2 =
            (.error (.malformedLinkage x), (run w c).2)) ∧
      ∀ (ctx : Context) (s : Session) (f n : Nat) (b : Block), ctx.workspace.get? n = some b →
        n ∈ s.seen →
        (chainCode (f + 1) n).exec ctx s = (.error (.malformedLinkage b.id), s) ∧
        (∀ parent slot outer, parent.value? slot = some n →
          (valueCode (f + 1) parent slot outer).exec ctx s = (.error (.malformedLinkage b.id), s)) ∧
        (b.disabled = true ∨ (BlockKind.ofName? b.kind).isSome = true →
          (rootCode (f + 1) n).exec ctx s = (.error (.malformedLinkage b.id), s)) := by
  have hw : (context w c).workspace = w := rfl
  refine ⟨fun f hf => run_eq_program w c hf, ?_, ?_, fun x hx => ?_,
    fun ctx s f n b hb hs => ⟨chainCode_revisit hb hs f,
      fun _ _ outer hv => valueCode_revisit hv hb hs f outer, fun hk => rootCode_revisit hb hs hk f⟩⟩
  · rw [generate_result, ← run_eq_program w c (Nat.le_refl _)]
    exact (program_exec_fuel hw (start_marked w c) (Nat.le_refl _)).2
  · rw [generate_events]
    exact run_dispatched_nodup w c
  · have hrun : (run w c).1 = .error (.malformedLinkage x) := by
      rw [← generate_result]
      exact hx
    -- the session a generation stops in is that of the failing visit, which changes nothing
    obtain ⟨n, b, hb, rfl, hn, hfollowed⟩ := run_explained w c hrun x rfl
    exact ⟨n, b, hb, hn, hfollowed, by rw [GenM.exec_visit, if_pos hn]⟩

end BlockScribe
