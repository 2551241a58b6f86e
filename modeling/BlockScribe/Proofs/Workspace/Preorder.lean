import BlockScribe.Proofs.Workspace.Reachable
import BlockScribe.Generate.Traverse
/-!
# The walks are the recursive depth-first preorder

`Workspace.walk` keeps an explicit stack: it pops a position, skips it if it was visited, marks
it, and pushes the children of its block so that the first child is popped next.  It computes
the recursive depth-first preorder (`Workspace.DepthFirst`), in which a new position is marked,
listed if it holds a block, and then each of its children is visited in full, in order, before
the next sibling: the stack holds the siblings that the open calls have still to visit,
innermost on top.

From every start `DepthFirst` has an outcome (`DepthFirst.total`), and only one
(`DepthFirst.unique`), although links may form cycles and share children.  A walk with as much
fuel as the positions and links that are pending runs a `DepthFirst` to its end and then goes
on with the rest of the stack (`DepthFirst.walk_append`), so the preorder walk lists exactly
the recursive preorder (`preorder_eq_iff`).  The comments gathered above a block and the
variables of a workspace are therefore collected in that order; of the names equal up to case,
the variables keep the first, spelled as it first came (`dedupCaseless_append_singleton`).
All of it together is `walks_follow_recursive_preorder`.
-/

namespace BlockScribe

namespace Workspace

variable (w : Workspace)

/-- The recursive depth-first preorder: `DepthFirst seen todo seen' out` says that visiting the
positions `todo` in order, with `seen` visited before, lists `out` and ends with `seen'`
visited.  A position visited before is skipped; a new one is marked, and if it holds a block
it is listed and its children are visited, all of them, before the rest of `todo`. -/
inductive DepthFirst : List Nat → List Nat → List Nat → List Nat → Prop
  | nil {seen : List Nat} : DepthFirst seen [] seen []
  | skip {seen todo seen' out : List Nat} {i : Nat} (hi : i ∈ seen)
      (rest : DepthFirst seen todo seen' out) : DepthFirst seen (i :: todo) seen' out
  | missing {seen todo seen' out : List Nat} {i : Nat} (hi : i ∉ seen) (hb : w.get? i = none)
      (rest : DepthFirst (i :: seen) todo seen' out) : DepthFirst seen (i :: todo) seen' out
  | visit {seen todo seen₁ seen₂ out₁ out₂ : List Nat} {i : Nat} {b : Block} (hi : i ∉ seen)
      (hb : w.get? i = some b) (children : DepthFirst (i :: seen) b.children seen₁ out₁)
      (rest : DepthFirst seen₁ todo seen₂ out₂) : DepthFirst seen (i :: todo) seen₂ (i :: out₁ ++ out₂)

/-- The positions of the arena not visited yet. -/
def unvisited (seen : List Nat) : Nat := ((Finset.range w.size).filter (· ∉ seen)).card

variable {w}

theorem unvisited_le {s s' : List Nat} (h : ∀ x ∈ s, x ∈ s') : w.unvisited s' ≤ w.unvisited s :=
  Finset.card_le_card (Finset.monotone_filter_right _ fun x _ hx hs => hx (h x hs))

/-- Marking a position of the arena that was not visited leaves one fewer to visit. -/
theorem unvisited_cons_lt {seen : List Nat} {i : Nat} (hi : i < w.size) (hn : i ∉ seen) :
    w.unvisited (i :: seen) < w.unvisited seen := by
  refine Finset.card_lt_card (Finset.ssubset_iff_of_subset ?_ |>.2 ⟨i, ?_, ?_⟩)
  · exact Finset.monotone_filter_right _ fun x _ hx hs => hx (List.mem_cons_of_mem i hs)
  · simpa using ⟨hi, hn⟩
  · simp

/-- Marking a position outside the arena changes nothing that is counted. -/
theorem unvisited_cons_eq {seen : List Nat} {i : Nat} (hi : w.size ≤ i) :
    w.unvisited (i :: seen) = w.unvisited seen := by
  unfold unvisited
  congr 1
  refine Finset.filter_congr fun x hx => ?_
  have hne : x ≠ i := by
    have := Finset.mem_range.1 hx
    omega
  simp [hne]

theorem lt_size_of_get? {i : Nat} {b : Block} (hb : w.get? i = some b) : i < w.size :=
  (Array.getElem?_eq_some_iff.1 hb).1

namespace DepthFirst

variable {seen todo seen' out : List Nat}

/-- What was visited stays visited. -/
theorem mono (h : w.DepthFirst seen todo seen' out) : ∀ x ∈ seen, x ∈ seen' := by
  induction h with
  | nil => exact fun _ hx => hx
  | skip _ _ ih => exact ih
  | missing _ _ _ ih => exact fun x hx => ih x (List.mem_cons_of_mem _ hx)
  | visit _ _ _ _ ih₁ ih₂ => exact fun x hx => ih₂ x (ih₁ x (List.mem_cons_of_mem _ hx))

/-- **The recursive preorder has one outcome.** -/
theorem unique {seen₁ seen₂ out₁ out₂ : List Nat} (h₁ : w.DepthFirst seen todo seen₁ out₁)
    (h₂ : w.DepthFirst seen todo seen₂ out₂) : seen₁ = seen₂ ∧ out₁ = out₂ := by
  induction h₁ generalizing seen₂ out₂ with
  | nil =>
    cases h₂
    exact ⟨rfl, rfl⟩
  | skip hi _ ih =>
    cases h₂ with
    | skip _ rest => exact ih rest
    | missing hn => exact absurd hi hn
    | visit hn => exact absurd hi hn
  | missing hi hb _ ih =>
    cases h₂ with
    | skip hs => exact absurd hs hi
    | missing _ _ rest => exact ih rest
    | visit _ hb' => rw [hb] at hb'; cases hb'
  | visit hi hb _ _ ihc ihr =>
    cases h₂ with
    | skip hs => exact absurd hs hi
    | missing _ hb' => rw [hb] at hb'; cases hb'
    | visit _ hb' children rest =>
      rw [hb] at hb'
      cases hb'
      -- the children end alike, so the siblings start alike
      obtain ⟨rfl, rfl⟩ := ihc children
      obtain ⟨rfl, rfl⟩ := ihr rest
      exact ⟨rfl, rfl⟩

/-- Every start has an outcome, by induction on the positions of the arena left to visit and,
for as many of them, on the positions to visit. -/
theorem exists_of_unvisited (n : Nat) :
    ∀ seen, w.unvisited seen = n → ∀ todo, ∃ seen' out, w.DepthFirst seen todo seen' out := by
  induction n using Nat.strong_induction_on with
  | _ n ih =>
  intro seen hn todo
  induction todo generalizing seen with
  | nil => exact ⟨seen, [], .nil⟩
  | cons i todo ihtodo =>
    by_cases hi : i ∈ seen
    · obtain ⟨s, o, h⟩ := ihtodo seen hn
      exact ⟨s, o, .skip hi h⟩
    rcases hb : w.get? i with _ | b
    · have hsize : w.size ≤ i := by
        by_contra hlt
        rw [get?, Array.getElem?_eq_getElem (by simpa [size] using hlt)] at hb
        cases hb
      obtain ⟨s, o, h⟩ := ihtodo (i :: seen) (by rw [unvisited_cons_eq hsize, hn])
      exact ⟨s, o, .missing hi hb h⟩
    · -- the block's children start with one position fewer to visit, its siblings with fewer
      have hlt : w.unvisited (i :: seen) < n := hn ▸ unvisited_cons_lt (lt_size_of_get? hb) hi
      obtain ⟨s₁, o₁, h₁⟩ := ih _ hlt (i :: seen) rfl b.children
      obtain ⟨s₂, o₂, h₂⟩ := ih _ (lt_of_le_of_lt (unvisited_le h₁.mono) hlt) s₁ rfl todo
      exact ⟨s₂, i :: o₁ ++ o₂, .visit hi hb h₁ h₂⟩

/-- **The recursive preorder ends**, from every start, cycles and shared children included. -/
theorem total (seen todo : List Nat) : ∃ seen' out, w.DepthFirst seen todo seen' out :=
  exists_of_unvisited _ seen rfl todo

end DepthFirst

/-! ## The walk runs the recursive preorder -/

section Walk

variable {i fuel : Nat} {stack visited out : List Nat}

theorem walk_skip (h : i ∈ visited) :
    w.walk (fuel + 1) (i :: stack) visited out = w.walk fuel stack visited out := by
  rw [walk, if_pos (List.contains_iff_mem.2 h)]

theorem walk_missing (hv : i ∉ visited) (hb : w.get? i = none) :
    w.walk (fuel + 1) (i :: stack) visited out = w.walk fuel stack (i :: visited) out := by
  rw [walk, if_neg (mt List.contains_iff_mem.1 hv), hb]

theorem walk_visit {b : Block} (hv : i ∉ visited) (hb : w.get? i = some b) :
    w.walk (fuel + 1) (i :: stack) visited out =
      w.walk fuel (b.children ++ stack) (i :: visited) (i :: out) := by
  rw [walk, if_neg (mt List.contains_iff_mem.1 hv), hb]

end Walk

/-- **A walk runs the recursive preorder, then the rest of its stack.**  With fuel for each
position to visit and each link still pending, a walk from `todo` on top of `stack` lists what
`DepthFirst` lists from `todo` and reaches `stack` with what it visits; each step spends one
unit on a position taken off the stack, and a block's links, once pushed, are no longer
pending. -/
theorem DepthFirst.walk_append {seen todo seen' out : List Nat}
    (h : w.DepthFirst seen todo seen' out) (fuel : Nat) (stack acc : List Nat) :
    w.walk (fuel + todo.length + w.pending seen) (todo ++ stack) seen acc =
      w.walk (fuel + w.pending seen') stack seen' (out.reverse ++ acc) := by
  induction h generalizing fuel stack acc with
  | nil => rfl
  | @skip seen todo _ _ i hi _ ih =>
    rw [List.length_cons, show fuel + (todo.length + 1) + w.pending seen =
      fuel + todo.length + w.pending seen + 1 by omega, List.cons_append, walk_skip hi]
    exact ih fuel stack acc
  | @missing seen todo _ _ i hi hb _ ih =>
    -- outside the arena, the position has no links to be pending
    have hpend : w.pending (i :: seen) = w.pending seen := by
      have := pending_visit (w := w) hi
      simp only [childCount, hb, Option.map_none, Option.getD_none, Nat.add_zero] at this
      exact this
    rw [List.length_cons, show fuel + (todo.length + 1) + w.pending seen =
      fuel + todo.length + w.pending (i :: seen) + 1 by omega, List.cons_append,
      walk_missing hi hb]
    exact ih fuel stack acc
  | @visit seen todo _ _ out₁ out₂ i b hi hb _ _ ihc ihr =>
    -- the block's links move from pending onto the stack, above the rest of `todo`
    have hpend : w.pending (i :: seen) + b.children.length = w.pending seen := by
      have := pending_visit (w := w) hi
      simpa only [childCount, hb, Option.map_some, Option.getD_some] using this
    rw [List.length_cons, show fuel + (todo.length + 1) + w.pending seen =
      fuel + todo.length + b.children.length + w.pending (i :: seen) + 1 by omega,
      List.cons_append, walk_visit hi hb, ← List.append_assoc,
      show fuel + todo.length + b.children.length + w.pending (i :: seen) =
        (fuel + todo.length) + b.children.length + w.pending (i :: seen) by omega,
      List.append_assoc, ihc (fuel + todo.length) (todo ++ stack) (i :: acc), ihr fuel stack]
    simp

/-- The preorder walk lists what the recursive preorder lists from no position visited. -/
theorem DepthFirst.preorder_eq {starts seen out : List Nat} (h : w.DepthFirst [] starts seen out) :
    w.preorder starts = out := by
  have hwalk := h.walk_append 1 [] []
  rw [List.append_nil, List.append_nil, pending_nil] at hwalk
  have hbound : w.walkBound starts = 1 + starts.length + w.linkCount := by
    unfold walkBound
    omega
  rw [preorder, hbound, hwalk, Nat.add_comm 1, walk, List.reverse_reverse]

/-- **The preorder walk lists exactly the recursive depth-first preorder** of its starts. -/
theorem preorder_eq_iff {starts out : List Nat} :
    w.preorder starts = out ↔ ∃ seen, w.DepthFirst [] starts seen out := by
  constructor
  · rintro rfl
    obtain ⟨seen, o, h⟩ := DepthFirst.total (w := w) [] starts
    rw [h.preorder_eq]
    exact ⟨seen, h⟩
  · rintro ⟨seen, h⟩
    exact h.preorder_eq

/-! ## Keeping the first of the names equal up to case -/

theorem dedupCaseless_go_congr {s₁ s₂ : List String} (h : ∀ k, k ∈ s₁ ↔ k ∈ s₂)
    (names : List String) : dedupCaseless.go names s₁ = dedupCaseless.go names s₂ := by
  induction names generalizing s₁ s₂ with
  | nil => rfl
  | cons n rest ih =>
    rw [dedupCaseless.go, dedupCaseless.go]
    by_cases hn : Text.lower n ∈ s₁
    · rw [if_pos (List.contains_iff_mem.2 hn), if_pos (List.contains_iff_mem.2 ((h _).1 hn))]
      exact ih h
    · rw [if_neg (mt List.contains_iff_mem.1 hn),
        if_neg (mt List.contains_iff_mem.1 (mt (h _).2 hn))]
      exact congrArg _ (ih fun k => by simp [h k])

/-- Names are kept from a list and then from the next one, against the keys of all before. -/
theorem dedupCaseless_go_append (l r seen : List String) :
    dedupCaseless.go (l ++ r) seen =
      dedupCaseless.go l seen ++ dedupCaseless.go r (l.map Text.lower ++ seen) := by
  induction l generalizing seen with
  | nil => rfl
  | cons n l ih =>
    rw [List.cons_append, dedupCaseless.go, dedupCaseless.go]
    by_cases hn : Text.lower n ∈ seen
    · -- a dropped name adds no key that was not there
      rw [if_pos (List.contains_iff_mem.2 hn), if_pos (List.contains_iff_mem.2 hn), ih]
      refine congrArg _ (dedupCaseless_go_congr (fun k => ?_) r)
      simp only [List.map_cons, List.cons_append, List.mem_cons, List.mem_append]
      constructor
      · rintro (h | h)
        · exact .inr (.inl h)
        · exact .inr (.inr h)
      · rintro (rfl | h | h)
        · exact .inr hn
        · exact .inl h
        · exact .inr h
    · rw [if_neg (mt List.contains_iff_mem.1 hn), if_neg (mt List.contains_iff_mem.1 hn), ih,
        List.cons_append]
      refine congrArg _ (congrArg _ (dedupCaseless_go_congr (fun k => ?_) r))
      simp only [List.map_cons, List.cons_append, List.mem_cons, List.mem_append]
      tauto

/-- **A name is kept exactly when no earlier name equals it up to case**, with its own
spelling. -/
theorem dedupCaseless_append_singleton (names : List String) (x : String) :
    dedupCaseless (names ++ [x]) =
      dedupCaseless names ++ if ∃ y ∈ names, Text.lower y = Text.lower x then [] else [x] := by
  unfold dedupCaseless
  rw [dedupCaseless_go_append, dedupCaseless.go, List.append_nil]
  have hmem : (names.map Text.lower).contains (Text.lower x) = true ↔
      ∃ y ∈ names, Text.lower y = Text.lower x := by
    rw [List.contains_iff_mem, List.mem_map]
  by_cases h : ∃ y ∈ names, Text.lower y = Text.lower x
  · rw [if_pos (hmem.2 h), if_pos h]
    rfl
  · rw [if_neg (mt hmem.1 h), if_neg h]
    rfl

/-- **The walks follow the recursive depth-first preorder.**  For every workspace, cycles and
shared children included: the preorder walk from any starts lists exactly what the recursive
depth-first preorder lists, each position once, when first found, the children of a block in
the order value inputs, statement inputs, successor; the comments gathered from under a block
are those of the blocks that preorder lists from it, in its order; and the variables of the
workspace are its declared ones, then the `VAR` field and the parameters of each block the
preorder lists from the roots, where a name is kept exactly when no earlier one equals it up to
case. -/
theorem walks_follow_recursive_preorder (w : Workspace) :
    (∀ starts out, w.preorder starts = out ↔ ∃ seen, w.DepthFirst [] starts seen out) ∧
      (∀ (c : Config) (root : Nat), ∃ seen out, w.DepthFirst [] [root] seen out ∧
        w.nestedComments (Generation.context w c).reach root =
          String.join (out.filterMap fun i => ((w.get? i).bind Block.note?).map (· ++ "\n"))) ∧
      (∃ seen out, w.DepthFirst [] w.roots seen out ∧
        w.usedVariables = dedupCaseless (w.declared ++
          out.flatMap fun i => ((w.get? i).map Block.namesUsed).getD [])) ∧
      (∀ names x, dedupCaseless (names ++ [x]) =
        dedupCaseless names ++ if ∃ y ∈ names, Text.lower y = Text.lower x then [] else [x]) := by
  refine ⟨fun _ _ => preorder_eq_iff, fun c root => ?_, ?_, dedupCaseless_append_singleton⟩
  · -- the generator's bound is that of a walk from one position
    obtain ⟨seen, out, h⟩ := DepthFirst.total (w := w) [] [root]
    refine ⟨seen, out, h, ?_⟩
    have hwalk : w.walk (Generation.context w c).reach [root] [] [] = w.preorder [root] := rfl
    rw [nestedComments, hwalk, h.preorder_eq]
  · obtain ⟨seen, out, h⟩ := DepthFirst.total (w := w) [] w.roots
    refine ⟨seen, out, h, ?_⟩
    rw [usedVariables, h.preorder_eq]

end Workspace

end BlockScribe
