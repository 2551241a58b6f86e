import BlockScribe.Workspace.Traversal
import BlockScribe.Proofs.Workspace.Links
import Mathlib
/-!
# The preorder walk lists every reachable block

`Workspace.walk` keeps a stack of positions and the positions visited.  Two facts hold at every
step: a visited block has each of its children visited or on the stack (`Workspace.Closed'`),
and a visited position that holds a block is listed (`Workspace.Listed`).  A step either drops
the top of the stack or visits a new position, so the length of the stack and the children of
the blocks not yet visited (`Workspace.pending`) go down by one each step; `walkBound` is more
than they start with, so the walk ends with an empty stack.  The positions visited by then hold
the starts and everything they link to: the walk lists every block reachable from its starts
(`Workspace.mem_preorder`).

So the variables of a workspace cover every block reachable from its roots: each name the
block brings into scope is one of them, up to case (`Workspace.usedVariables_cover`).
-/

namespace BlockScribe

namespace Workspace

variable (w : Workspace)

/-- The number of links of the block at a position; none outside the arena. -/
def childCount (q : Nat) : Nat := ((w.get? q).map fun b => b.children.length).getD 0

/-- The links of the blocks not visited yet. -/
def pending (visited : List Nat) : Nat :=
  ((List.range w.size).map fun q => if q ∈ visited then 0 else w.childCount q).sum

/-- Every visited block has each of its children visited or still on the stack. -/
def Closed' (visited stack : List Nat) : Prop :=
  ∀ q ∈ visited, ∀ c, w.Link q c → c ∈ visited ∨ c ∈ stack

/-- Every visited position that holds a block is listed. -/
def Listed (visited out : List Nat) : Prop :=
  ∀ q ∈ visited, (w.get? q).isSome → q ∈ out

variable {w}

/-- Visiting a position not visited before takes its links, if it holds a block, off what is
pending. -/
theorem pending_visit {i : Nat} {visited : List Nat} (hv : i ∉ visited) :
    w.pending (i :: visited) + w.childCount i = w.pending visited := by
  unfold pending
  by_cases hi : i < w.size
  case neg =>
    -- outside the arena, `i` has no links and no term
    have hcount : w.childCount i = 0 := by
      simp [childCount, get?, Array.getElem?_eq_none (Nat.le_of_not_lt hi)]
    rw [hcount, Nat.add_zero]
    refine congrArg List.sum (List.map_congr_left fun q hq => ?_)
    have hne : q ≠ i := fun h => hi (h ▸ List.mem_range.1 hq)
    simp [hne]
  -- each position is counted once, so only the term of `i` changes
  have key : ∀ l : List Nat, l.Nodup → i ∈ l →
      (l.map fun q => if q ∈ i :: visited then 0 else w.childCount q).sum + w.childCount i =
        (l.map fun q => if q ∈ visited then 0 else w.childCount q).sum := by
    intro l
    induction l with
    | nil => intro _ h; cases h
    | cons q l ih =>
      intro hnd hmem
      obtain ⟨hq, hnd⟩ := List.nodup_cons.1 hnd
      by_cases hqi : q = i
      · subst hqi
        have hrest : (l.map fun q' => if q' ∈ q :: visited then 0 else w.childCount q') =
            (l.map fun q' => if q' ∈ visited then 0 else w.childCount q') := by
          refine List.map_congr_left fun q' hq' => ?_
          have hne : q' ≠ q := fun h => hq (h ▸ hq')
          simp [hne]
        rw [List.map_cons, List.map_cons, List.sum_cons, List.sum_cons, hrest]
        simp only [List.mem_cons_self, if_true, hv, if_false]
        omega
      · have hl : i ∈ l := by
          rcases List.mem_cons.1 hmem with h | h
          · exact absurd h.symm hqi
          · exact h
        have hhead : (if q ∈ i :: visited then 0 else w.childCount q) =
            (if q ∈ visited then 0 else w.childCount q) := by
          simp [hqi]
        rw [List.map_cons, List.map_cons, List.sum_cons, List.sum_cons, hhead, Nat.add_assoc,
          ih hnd hl]
  exact key _ List.nodup_range (List.mem_range.2 hi)

/-- The links of a list of blocks, counted one block after the other. -/
theorem foldl_children (l : List Block) (k : Nat) :
    l.foldl (fun n b => n + b.children.length) k = k + (l.map fun b => b.children.length).sum := by
  induction l generalizing k with
  | nil => simp
  | cons b l ih =>
    rw [List.foldl_cons, ih, List.map_cons, List.sum_cons]
    omega

theorem sum_range_getElem? (l : List Block) :
    ((List.range l.length).map fun q => ((l[q]?).map fun b => b.children.length).getD 0).sum =
      (l.map fun b => b.children.length).sum := by
  induction l with
  | nil => rfl
  | cons b l ih =>
    rw [List.length_cons, List.range_succ_eq_map, List.map_cons, List.map_map, List.sum_cons]
    simp only [Function.comp_def, List.getElem?_cons_succ, List.getElem?_cons_zero,
      Option.map_some, Option.getD_some]
    rw [ih, List.map_cons, List.sum_cons]

/-- Nothing is visited at first: every link is pending. -/
theorem pending_nil : w.pending [] = w.linkCount := by
  unfold pending linkCount childCount get? size
  simp only [List.not_mem_nil, if_false]
  rw [← Array.foldl_toList, foldl_children, Nat.zero_add, ← sum_range_getElem?,
    Array.length_toList]
  simp [Array.getElem?_toList]

/-- A walk's result covers the visited positions and the stack: some positions hold both, are
closed under the links, and have their blocks listed in the result. -/
def Covered (visited stack result : List Nat) : Prop :=
  ∃ V : List Nat, (∀ q ∈ visited, q ∈ V) ∧ (∀ q ∈ stack, q ∈ V) ∧
    (∀ q ∈ V, ∀ c, w.Link q c → c ∈ V) ∧ ∀ q ∈ V, (w.get? q).isSome → q ∈ result

/-! One step of the walk: the top of the stack is dropped when visited, and visited otherwise,
its links pushed. -/

section Step

variable {i : Nat} {visited stack stack' out result : List Nat}

theorem Closed'.drop (h : w.Closed' visited (i :: stack)) (hi : i ∈ visited) :
    w.Closed' visited stack := fun q hq c hc => by
  rcases h q hq c hc with h | h
  · exact .inl h
  · rcases List.mem_cons.1 h with rfl | h
    · exact .inl hi
    · exact .inr h

/-- Visiting the top of the stack and pushing every position it links to. -/
theorem Closed'.visit {new : List Nat} (h : w.Closed' visited (i :: stack))
    (hnew : ∀ c, w.Link i c → c ∈ new) : w.Closed' (i :: visited) (new ++ stack) :=
  fun q hq c hc => by
    rcases List.mem_cons.1 hq with rfl | hq
    · exact .inr (List.mem_append_left _ (hnew c hc))
    · rcases h q hq c hc with h | h
      · exact .inl (List.mem_cons_of_mem _ h)
      · rcases List.mem_cons.1 h with rfl | h
        · exact .inl List.mem_cons_self
        · exact .inr (List.mem_append_right _ h)

theorem Listed.visit_none (h : w.Listed visited out) (hb : w.get? i = none) :
    w.Listed (i :: visited) out := fun q hq hqb => by
  rcases List.mem_cons.1 hq with rfl | hq
  · rw [hb] at hqb
    cases hqb
  · exact h q hq hqb

theorem Listed.visit (h : w.Listed visited out) : w.Listed (i :: visited) (i :: out) :=
  fun q hq hqb => by
    rcases List.mem_cons.1 hq with rfl | hq
    · exact List.mem_cons_self
    · exact List.mem_cons_of_mem _ (h q hq hqb)

theorem Covered.drop (h : w.Covered visited stack result) (hi : i ∈ visited) :
    w.Covered visited (i :: stack) result := by
  obtain ⟨V, hvV, hsV, hV, hlist⟩ := h
  refine ⟨V, hvV, fun q hq => ?_, hV, hlist⟩
  rcases List.mem_cons.1 hq with rfl | hq
  · exact hvV _ hi
  · exact hsV q hq

theorem Covered.visit (h : w.Covered (i :: visited) stack' result)
    (hstack : ∀ q ∈ stack, q ∈ stack') : w.Covered visited (i :: stack) result := by
  obtain ⟨V, hvV, hsV, hV, hlist⟩ := h
  refine ⟨V, fun q hq => hvV q (List.mem_cons_of_mem _ hq), fun q hq => ?_, hV, hlist⟩
  rcases List.mem_cons.1 hq with rfl | hq
  · exact hvV _ List.mem_cons_self
  · exact hsV q (hstack q hq)

end Step

/-- **What a walk visits.**  From a stack and visited positions that are closed and listed, with
more fuel than the stack and the pending links, the walk's result covers them. -/
theorem walk_spec : ∀ (fuel : Nat) (stack visited out : List Nat),
    stack.length + w.pending visited < fuel → w.Closed' visited stack → w.Listed visited out →
      w.Covered visited stack (w.walk fuel stack visited out)
  | 0, _, _, _, hfuel, _, _ => absurd hfuel (Nat.not_lt_zero _)
  | fuel + 1, [], visited, out, _, hclosed, hlisted => by
    refine ⟨visited, fun q hq => hq, nofun, fun q hq c hc => ?_, fun q hq hb => ?_⟩
    · rcases hclosed q hq c hc with h | h
      · exact h
      · cases h
    · rw [walk]
      exact List.mem_reverse.2 (hlisted q hq hb)
  | fuel + 1, i :: stack, visited, out, hfuel, hclosed, hlisted => by
    rw [walk]
    rw [List.length_cons] at hfuel
    by_cases hvis : visited.contains i
    · -- a position visited before is dropped
      rw [if_pos hvis]
      have hi : i ∈ visited := List.contains_iff_mem.1 hvis
      exact (walk_spec fuel stack visited out (by omega) (hclosed.drop hi) hlisted).drop hi
    · rw [if_neg hvis]
      have hi : i ∉ visited := fun h => hvis (List.contains_iff_mem.2 h)
      have hpend := pending_visit (w := w) hi
      rcases hb : w.get? i with _ | b
      · -- a position outside the arena is visited and not listed
        have hcount : w.childCount i = 0 := by simp [childCount, hb]
        have hclosed' : w.Closed' (i :: visited) ([] ++ stack) :=
          hclosed.visit fun c ⟨b', hb', _⟩ => by rw [hb] at hb'; cases hb'
        exact (walk_spec fuel stack (i :: visited) out (by omega) hclosed'
          (hlisted.visit_none hb)).visit fun q hq => hq
      · -- a new block is visited, listed, and its children pushed
        have hcount : w.childCount i = b.children.length := by simp [childCount, hb]
        have hclosed' : w.Closed' (i :: visited) (b.children ++ stack) :=
          hclosed.visit fun c ⟨b', hb', hc⟩ => by rw [hb] at hb'; cases hb'; exact hc
        exact (walk_spec fuel (b.children ++ stack) (i :: visited) (i :: out)
          (by rw [List.length_append]; omega) hclosed' hlisted.visit).visit
          fun q hq => List.mem_append_right _ hq

/-- **The preorder walk lists every block reachable from its starts.** -/
theorem mem_preorder {starts : List Nat} {r p : Nat} (hr : r ∈ starts) (hreach : w.Reaches r p)
    (hp : (w.get? p).isSome) : p ∈ w.preorder starts := by
  obtain ⟨V, -, hsV, hV, hlist⟩ := w.walk_spec (w.walkBound starts) starts [] []
    (by rw [pending_nil, walkBound]; omega) (fun _ h => by cases h) (fun _ h => by cases h)
  -- the visited positions hold the starts and are closed under the links
  have hmem : p ∈ V := by
    clear hp hlist
    induction hreach with
    | refl => exact hsV r hr
    | tail _ hlink ih => exact hV _ ih _ hlink
  exact hlist p hmem hp

/-- Every name is kept, or an earlier one equal to it up to case, by `dedupCaseless`. -/
theorem dedupCaseless_go_cover : ∀ (names seen : List String), ∀ v ∈ names,
    Text.lower v ∈ seen ∨ ∃ u ∈ dedupCaseless.go names seen, Text.lower u = Text.lower v
  | [], _, _, hv => by cases hv
  | n :: rest, seen, v, hv => by
    rw [dedupCaseless.go]
    by_cases hseen : seen.contains (Text.lower n)
    · rw [if_pos hseen]
      rcases List.mem_cons.1 hv with rfl | hv
      · exact .inl (List.contains_iff_mem.1 hseen)
      · exact dedupCaseless_go_cover rest seen v hv
    · rw [if_neg hseen]
      rcases List.mem_cons.1 hv with rfl | hv
      · exact .inr ⟨v, List.mem_cons_self, rfl⟩
      · rcases dedupCaseless_go_cover rest (Text.lower n :: seen) v hv with h | ⟨u, hu, hlow⟩
        · rcases List.mem_cons.1 h with h | h
          · exact .inr ⟨n, List.mem_cons_self, h.symm⟩
          · exact .inl h
        · exact .inr ⟨u, List.mem_cons_of_mem _ hu, hlow⟩

theorem dedupCaseless_cover {names : List String} {v : String} (hv : v ∈ names) :
    ∃ u ∈ dedupCaseless names, Text.lower u = Text.lower v := by
  rcases dedupCaseless_go_cover names [] v hv with h | h
  · cases h
  · exact h

/-- The names `dedupCaseless` keeps differ up to case, and from the spellings it starts with. -/
theorem dedupCaseless_go_nodup : ∀ (names seen : List String),
    ((dedupCaseless.go names seen).map Text.lower).Nodup ∧
      ∀ u ∈ dedupCaseless.go names seen, Text.lower u ∉ seen
  | [], _ => ⟨List.nodup_nil, fun _ hu => by cases hu⟩
  | n :: rest, seen => by
    rw [dedupCaseless.go]
    by_cases hseen : seen.contains (Text.lower n)
    · rw [if_pos hseen]
      exact dedupCaseless_go_nodup rest seen
    · rw [if_neg hseen, List.map_cons]
      obtain ⟨hnodup, hfresh⟩ := dedupCaseless_go_nodup rest (Text.lower n :: seen)
      refine ⟨List.nodup_cons.2 ⟨fun hmem => ?_, hnodup⟩, fun u hu => ?_⟩
      · obtain ⟨u, hu, hlow⟩ := List.mem_map.1 hmem
        exact hfresh u hu (hlow ▸ List.mem_cons_self)
      · rcases List.mem_cons.1 hu with rfl | hu
        · exact fun h => hseen (List.contains_iff_mem.2 h)
        · exact fun h => hfresh u hu (List.mem_cons_of_mem _ h)

/-- The variables of a workspace differ up to case. -/
theorem usedVariables_nodup : (w.usedVariables.map Text.lower).Nodup :=
  (dedupCaseless_go_nodup _ []).1

/-- **The variables of a workspace cover every block reachable from its roots**: each name
that such a block brings into scope is, up to case, one of them. -/
theorem usedVariables_cover {r p : Nat} {b : Block} (hr : r ∈ w.roots) (hreach : w.Reaches r p)
    (hb : w.get? p = some b) {v : String} (hv : v ∈ b.namesUsed) :
    ∃ u ∈ w.usedVariables, Text.lower u = Text.lower v := by
  have hp : p ∈ w.preorder w.roots := mem_preorder hr hreach (by rw [hb]; rfl)
  refine dedupCaseless_cover (List.mem_append_right _ (List.mem_flatMap.2 ⟨p, hp, ?_⟩))
  rw [hb]
  exact hv

end Workspace

end BlockScribe
