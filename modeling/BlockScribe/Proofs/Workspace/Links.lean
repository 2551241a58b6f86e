import BlockScribe.Workspace.Basic
import Mathlib.Logic.Relation
import Mathlib.Data.List.Nodup
/-!
# The links of a workspace

A block links to the positions of its value inputs, its statement inputs and its successor
(`Block.children`); the roots are the links from the top.  `Workspace.Link p j` says that the
block at `p` links to `j`, `Workspace.Entry j` that something links to `j`, and
`Workspace.Reaches j k` that `k` is `j` or lies under it.

A workspace is `Closed` when every link points into the arena, which is what `Draft.build`
checks (`Draft.build_closed`), and a `Forest` when no two entries (roots and links of all
blocks) point to one position and no block lies under itself.  In a forest a position has at
most one parent (`Forest.link_unique`), the positions above one position are ordered
(`Forest.reaches_total`), so the blocks under two siblings, or under two roots, are apart
(`Forest.not_reaches_sibling`, `Forest.not_reaches_root`).
-/

namespace BlockScribe

theorem Slots.get?_mem_contents {α : Type} {s : Slots α} {name : String} {a : α}
    (h : s.get? name = some a) : a ∈ s.contents := by
  obtain ⟨p, hp, rfl⟩ := Option.map_eq_some_iff.1 h
  exact List.mem_map_of_mem (List.mem_of_find?_eq_some hp)

namespace Block

variable {b : Block} {slot : String} {j : Nat}

theorem value?_mem_children (h : b.value? slot = some j) : j ∈ b.children := by
  simp [children, Slots.get?_mem_contents h]

theorem statement?_mem_children (h : b.statement? slot = some j) : j ∈ b.children := by
  simp [children, Slots.get?_mem_contents h]

theorem next_mem_children (h : b.next = some j) : j ∈ b.children := by
  simp [children, h]

end Block

namespace Workspace

/-- The block at `p` links to `j`: through a value input, a statement input or as successor. -/
def Link (w : Workspace) (p j : Nat) : Prop := ∃ b, w.get? p = some b ∧ j ∈ b.children

/-- Something links to `j`: it is a root, or a block links to it. -/
def Entry (w : Workspace) (j : Nat) : Prop := j ∈ w.roots ∨ ∃ p, w.Link p j

/-- `k` is `j` or lies under it. -/
def Reaches (w : Workspace) : Nat → Nat → Prop := Relation.ReflTransGen w.Link

/-- Every link, and every root, points into the arena. -/
structure Closed (w : Workspace) : Prop where
  roots : ∀ r ∈ w.roots, r < w.size
  links : ∀ p j, w.Link p j → j < w.size

/-- The links form a forest: no two entries, among the roots and the links of all blocks,
point to one position, and no block lies under itself. -/
structure Forest (w : Workspace) : Prop where
  entries_nodup : (w.roots ++ w.blocks.toList.flatMap Block.children).Nodup
  acyclic : ∀ p, ¬ Relation.TransGen w.Link p p

variable {w : Workspace} {i j k p q : Nat}

theorem Link.entry (h : w.Link p j) : w.Entry j := .inr ⟨p, h⟩

theorem link_of_get {b : Block} (hb : w.get? p = some b) (hj : j ∈ b.children) : w.Link p j :=
  ⟨b, hb, hj⟩

theorem exists_get_of_mem {b : Block} (hb : b ∈ w.blocks.toList) : ∃ p, w.get? p = some b :=
  Array.mem_iff_getElem?.1 (Array.mem_toList_iff.1 hb)

theorem get?_eq_getElem_toList (hp : p < w.blocks.toList.length) :
    w.get? p = some w.blocks.toList[p] := by
  rw [get?, ← Array.getElem?_toList]
  exact List.getElem?_eq_getElem hp

theorem Closed.entry_lt (hw : w.Closed) (hj : w.Entry j) : j < w.size := by
  rcases hj with hj | ⟨p, hp⟩
  · exact hw.roots j hj
  · exact hw.links p j hp

/-- Something links to a block of the arena. -/
theorem Closed.exists_get (hw : w.Closed) (hj : w.Entry j) : ∃ b, w.get? j = some b :=
  ⟨_, Array.getElem?_eq_getElem (hw.entry_lt hj)⟩

namespace Forest

/-- **The links form a forest** when the roots are distinct, no block links twice to one
position, no position has two parents or is a root with a parent, and no block lies under
itself. -/
theorem of_parents (hroots : w.roots.Nodup)
    (hchildren : ∀ p b, w.get? p = some b → b.children.Nodup)
    (hunique : ∀ p q j, w.Link p j → w.Link q j → p = q)
    (hroot : ∀ p j, w.Link p j → j ∉ w.roots)
    (hacyclic : ∀ p, ¬ Relation.TransGen w.Link p p) : w.Forest := by
  refine ⟨List.nodup_append.2 ⟨hroots, List.nodup_flatMap.2 ⟨fun b hb => ?_, ?_⟩, ?_⟩, hacyclic⟩
  · obtain ⟨p, hp⟩ := exists_get_of_mem hb
    exact hchildren p b hp
  · -- the blocks at two positions link to no position in common
    refine List.pairwise_iff_getElem.2 fun p q hp hq hpq j hj hj' => ?_
    exact Nat.ne_of_lt hpq
      (hunique p q j ⟨_, get?_eq_getElem_toList hp, hj⟩ ⟨_, get?_eq_getElem_toList hq, hj'⟩)
  · intro r hr j hj hrj
    subst hrj
    obtain ⟨b, hb, hrb⟩ := List.mem_flatMap.1 hj
    obtain ⟨p, hp⟩ := exists_get_of_mem hb
    exact hroot p r ⟨b, hp, hrb⟩ hr

theorem roots_nodup (hw : w.Forest) : w.roots.Nodup := (List.nodup_append.1 hw.entries_nodup).1

theorem not_link_root (hw : w.Forest) (hr : j ∈ w.roots) : ¬ w.Link p j := by
  rintro ⟨b, hb, hj⟩
  have hmem : j ∈ w.blocks.toList.flatMap Block.children :=
    List.mem_flatMap.2 ⟨b, Array.mem_toList_iff.2 (Array.mem_of_getElem? hb), hj⟩
  exact (List.nodup_append.1 hw.entries_nodup).2.2 j hr j hmem rfl

theorem children_nodup (hw : w.Forest) {b : Block} (hb : w.get? p = some b) : b.children.Nodup :=
  (List.nodup_flatMap.1 (List.nodup_append.1 hw.entries_nodup).2.1).1 b
    (Array.mem_toList_iff.2 (Array.mem_of_getElem? hb))

/-- **A position has at most one parent.** -/
theorem link_unique (hw : w.Forest) (hp : w.Link p j) (hq : w.Link q j) : p = q := by
  obtain ⟨b, hb, hj⟩ := hp
  obtain ⟨b', hb', hj'⟩ := hq
  obtain ⟨hpl, rfl⟩ := Array.getElem?_eq_some_iff.1 hb
  obtain ⟨hql, rfl⟩ := Array.getElem?_eq_some_iff.1 hb'
  -- two blocks at different positions have no link in common
  have apart := List.pairwise_iff_getElem.1
    (List.nodup_flatMap.1 (List.nodup_append.1 hw.entries_nodup).2.1).2
  by_contra hne
  rcases Nat.lt_or_gt_of_ne hne with hlt | hlt
  · exact apart p q (by simpa using hpl) (by simpa using hql) hlt (by simpa using hj)
      (by simpa using hj')
  · exact apart q p (by simpa using hql) (by simpa using hpl) hlt (by simpa using hj')
      (by simpa using hj)

/-- **The positions above one position are ordered.** -/
theorem reaches_total (hw : w.Forest) (hj : w.Reaches j k) (hi : w.Reaches i k) :
    w.Reaches i j ∨ w.Reaches j i := by
  -- along the path from `i` to `k`, from its end: the last links into `k` come from one parent
  induction hi with
  | refl => exact .inr hj
  | tail hik hlink ih =>
    rcases Relation.ReflTransGen.cases_tail hj with rfl | ⟨q, hjq, hq⟩
    · exact .inl (hik.tail hlink)
    · exact ih (link_unique hw hq hlink ▸ hjq)

/-- No block lies under one of its children. -/
theorem not_reaches_parent (hw : w.Forest) (hp : w.Link p j) : ¬ w.Reaches j p :=
  fun h => hw.acyclic p (Relation.TransGen.head' hp h)

/-- Two children of a block do not lie under one another. -/
theorem not_reaches_sibling (hw : w.Forest) {b : Block} (hb : w.get? p = some b)
    (hi : i ∈ b.children) (hj : j ∈ b.children) (hne : i ≠ j) : ¬ w.Reaches i j := by
  intro h
  rcases Relation.ReflTransGen.cases_tail h with rfl | ⟨q, hiq, hq⟩
  · exact hne rfl
  · -- the last link into `j` is the one from `p`, so `p` lies under its child `i`
    have hqp : q = p := link_unique hw hq (link_of_get hb hj)
    exact not_reaches_parent hw (link_of_get hb hi) (hqp ▸ hiq)

/-- A root lies under no other position. -/
theorem not_reaches_root (hw : w.Forest) (hr : j ∈ w.roots) (hne : i ≠ j) : ¬ w.Reaches i j := by
  intro h
  rcases Relation.ReflTransGen.cases_tail h with rfl | ⟨q, _, hq⟩
  · exact hne rfl
  · exact not_link_root hw hr hq

/-- **Positions of which neither lies under the other have nothing under both.** -/
theorem apart (hw : w.Forest) (hij : ¬ w.Reaches i j) (hji : ¬ w.Reaches j i)
    (hi : w.Reaches i k) (hj : w.Reaches j k) : False := by
  rcases reaches_total hw hj hi with h | h
  · exact hij h
  · exact hji h

end Forest

end Workspace

namespace Draft

/-- Where no link is past the arena, every link and every root is within it. -/
theorem danglingLink_eq_none {n : Nat} {bs : List Block} {roots : List Nat}
    (h : danglingLink n bs roots = none) :
    (∀ b ∈ bs, ∀ j ∈ b.children, j < n) ∧ ∀ r ∈ roots, r < n := by
  unfold danglingLink at h
  split at h
  · cases h
  · rename_i hblocks
    refine ⟨fun b hb j hj => ?_, fun r hr => ?_⟩
    · have hb := List.findSome?_eq_none_iff.1 hblocks b hb
      have := List.find?_eq_none.1 (Option.map_eq_none_iff.1 hb) j hj
      simpa using this
    · have := List.find?_eq_none.1 (Option.map_eq_none_iff.1 h) r hr
      simpa using this

theorem assignIds_go_length :
    ∀ (i : Nat) (bs : List DraftBlock) (taken : List String), (assignIds.go i bs taken).length = bs.length
  | _, [], _ => rfl
  | i, b :: rest, taken => by
    unfold assignIds.go
    split <;> simp [assignIds_go_length]

/-- A built workspace has the blocks of its draft, with their links and roots, under the ids
given to them; and no link past its arena. -/
theorem build_ok {d : Draft} {w : Workspace} (h : d.build = .ok w) :
    w.roots = d.roots ∧ w.blocks.toList.map Block.children = d.blocks.toList.map (·.block.children) ∧
      danglingLink w.size w.blocks.toList w.roots = none := by
  unfold build at h
  split at h
  · cases h
  · dsimp only at h
    split at h
    · cases h
    · rename_i hdangling
      cases h
      refine ⟨rfl, ?_, by simpa [Workspace.size] using hdangling⟩
      have hlen : (assignIds d.blocks.toList).length = d.blocks.toList.length :=
        assignIds_go_length 0 _ _
      simp only [List.map_map]
      -- the ids are as many as the blocks, and only they change
      conv_rhs => rw [← @List.map_fst_zip _ _ d.blocks.toList (assignIds d.blocks.toList)
        (by omega), List.map_map]
      rfl

/-- **A built workspace links only into its arena.** -/
theorem build_closed {d : Draft} {w : Workspace} (h : d.build = .ok w) : w.Closed := by
  obtain ⟨hblocks, hroots⟩ := danglingLink_eq_none (build_ok h).2.2
  refine ⟨hroots, fun p j ⟨b, hb, hj⟩ => hblocks b ?_ j hj⟩
  exact Array.mem_toList_iff.2 (Array.mem_of_getElem? hb)

end Draft

end BlockScribe
