import BlockScribe.Proofs.Workspace.Links
import BlockScribe.Workspace.Load
/-!
# Loaded workspaces are forests

Loading flattens the nested form into the arena one block at a time: a block is added at the
end, then the blocks it nests, each linked from it as soon as its own subtree is in
(`BlockTree.lower`).  So a block links only to later blocks, and a block is linked at most once,
from the block that nests it or from the top: when it is linked, nothing links to it yet.  A
slot filled twice drops its first link, which only removes a link.

A draft with these properties is `Draft.Tidy`; lowering keeps it (`Draft.lower_spec` and its
companions), and so does making a block a root once it is in.  A tidy draft builds into a
forest (`Draft.build_forest`), so every workspace that `Workspace.ofJson` reads is a forest whose
links stay in the arena (`Workspace.ofJson_forest`).
-/

namespace BlockScribe

namespace Slots

variable {α : Type} {name : String} {a : α}

theorem insertList_contents_subset :
    ∀ l : List (String × α), (insertList name a l).map (·.2) ⊆ a :: l.map (·.2)
  | [] => by simp [insertList]
  | (n, b) :: rest => by
    by_cases hn : n = name
    · -- the slot is filled: its content is replaced
      intro x hx
      simp only [insertList, hn, if_true, List.map_cons, List.mem_cons] at hx ⊢
      rcases hx with rfl | hx
      · exact .inl rfl
      · exact .inr (.inr hx)
    · intro x hx
      simp only [insertList, hn, if_false, List.map_cons, List.mem_cons] at hx ⊢
      rcases hx with rfl | hx
      · exact .inr (.inl rfl)
      · rcases List.mem_cons.1 (insertList_contents_subset rest hx) with rfl | hx
        · exact .inl rfl
        · exact .inr (.inr hx)

theorem insertList_contents_nodup :
    ∀ l : List (String × α), (l.map (·.2)).Nodup → a ∉ l.map (·.2) →
      ((insertList name a l).map (·.2)).Nodup
  | [], _, _ => by simp [insertList]
  | (n, b) :: rest, hnd, ha => by
    simp only [List.map_cons, List.nodup_cons, List.mem_cons, not_or] at hnd ha
    by_cases hn : n = name
    · simp only [insertList, hn, if_true, List.map_cons, List.nodup_cons]
      exact ⟨ha.2, hnd.2⟩
    · simp only [insertList, hn, if_false, List.map_cons, List.nodup_cons]
      refine ⟨fun hb => ?_, insertList_contents_nodup rest hnd.2 ha.2⟩
      -- `b` is neither the new content nor one of the rest
      rcases List.mem_cons.1 (insertList_contents_subset rest hb) with hba | hb
      · exact ha.1 hba.symm
      · exact hnd.1 hb

theorem insert_contents_subset (s : Slots α) : (s.insert name a).contents ⊆ a :: s.contents :=
  insertList_contents_subset s.entries

theorem insert_contents_nodup {s : Slots α} (hnd : s.contents.Nodup) (ha : a ∉ s.contents) :
    (s.insert name a).contents.Nodup :=
  insertList_contents_nodup s.entries hnd ha

end Slots

/-- Putting `c` in place of some of `A` keeps `A ++ B` free of repeats, where `c` is new. -/
theorem List.nodup_append_of_subset_cons {A A' B : List Nat} {c : Nat} (h : (A ++ B).Nodup)
    (hc : c ∉ A ++ B) (hsub : A' ⊆ c :: A) (hA' : A'.Nodup) : (A' ++ B).Nodup := by
  obtain ⟨_, hB, hAB⟩ := List.nodup_append.1 h
  refine List.nodup_append.2 ⟨hA', hB, fun x hx y hy hxy => ?_⟩
  subst hxy
  rcases List.mem_cons.1 (hsub hx) with rfl | hx
  · exact hc (List.mem_append_right _ hy)
  · exact hAB x hx x hy rfl

namespace Block

variable {b : Block} {c : Nat}

/-- Filling a value slot links to `c` and perhaps drops an old link. -/
theorem setValue_children (slot : String) :
    ({ b with values := b.values.insert slot c } : Block).children ⊆ c :: b.children := by
  intro x hx
  simp only [children, List.mem_append] at hx
  rcases hx with (hx | hx) | hx
  · rcases List.mem_cons.1 (Slots.insert_contents_subset _ hx) with rfl | hx
    · exact List.mem_cons_self
    · exact List.mem_cons_of_mem _ (by simp [children, hx])
  · exact List.mem_cons_of_mem _ (by simp [children, hx])
  · exact List.mem_cons_of_mem _ (by simp [children, hx])

theorem setValue_children_nodup (slot : String) (hnd : b.children.Nodup) (hc : c ∉ b.children) :
    ({ b with values := b.values.insert slot c } : Block).children.Nodup := by
  simp only [children, List.append_assoc] at hnd hc ⊢
  have hvalues : (b.values.insert slot c).contents.Nodup :=
    Slots.insert_contents_nodup (List.Nodup.of_append_left hnd) fun h => hc (List.mem_append_left _ h)
  exact List.nodup_append_of_subset_cons hnd hc (Slots.insert_contents_subset _) hvalues

/-- Filling a statement slot links to `c` and perhaps drops an old link. -/
theorem setStatement_children (slot : String) :
    ({ b with statements := b.statements.insert slot c } : Block).children ⊆ c :: b.children := by
  intro x hx
  simp only [children, List.mem_append] at hx
  rcases hx with (hx | hx) | hx
  · exact List.mem_cons_of_mem _ (by simp [children, hx])
  · rcases List.mem_cons.1 (Slots.insert_contents_subset _ hx) with rfl | hx
    · exact List.mem_cons_self
    · exact List.mem_cons_of_mem _ (by simp [children, hx])
  · exact List.mem_cons_of_mem _ (by simp [children, hx])

theorem setStatement_children_nodup (slot : String) (hnd : b.children.Nodup)
    (hc : c ∉ b.children) :
    ({ b with statements := b.statements.insert slot c } : Block).children.Nodup := by
  simp only [children] at hnd hc ⊢
  -- the inputs first, with the statements refilled, then the successor
  have hinputs : (b.values.contents ++ (b.statements.insert slot c).contents).Nodup := by
    have h := List.Nodup.of_append_left hnd
    have hc' : c ∉ b.values.contents ++ b.statements.contents := fun h' =>
      hc (List.mem_append_left _ h')
    rw [List.nodup_append_comm] at h ⊢
    refine List.nodup_append_of_subset_cons h (fun h' => hc' ?_) (Slots.insert_contents_subset _)
      (Slots.insert_contents_nodup (List.Nodup.of_append_right (List.nodup_append_comm.1 h))
        fun h' => hc' (List.mem_append_right _ h'))
    rcases List.mem_append.1 h' with h' | h'
    · exact List.mem_append_right _ h'
    · exact List.mem_append_left _ h'
  refine List.nodup_append_of_subset_cons hnd hc (fun x hx => ?_) hinputs
  rcases List.mem_append.1 hx with hx | hx
  · exact List.mem_cons_of_mem _ (List.mem_append_left _ hx)
  · rcases List.mem_cons.1 (Slots.insert_contents_subset _ hx) with rfl | hx
    · exact List.mem_cons_self
    · exact List.mem_cons_of_mem _ (List.mem_append_right _ hx)

/-- Setting the successor links to `c` and drops the old successor. -/
theorem setNext_children : ({ b with next := some c } : Block).children ⊆ c :: b.children := by
  intro x hx
  simp only [children, List.mem_append, Option.toList_some, List.mem_singleton] at hx
  rcases hx with (hx | hx) | rfl
  · exact List.mem_cons_of_mem _ (by simp [children, hx])
  · exact List.mem_cons_of_mem _ (by simp [children, hx])
  · exact List.mem_cons_self

theorem setNext_children_nodup (hnd : b.children.Nodup) (hc : c ∉ b.children) :
    ({ b with next := some c } : Block).children.Nodup := by
  simp only [children, Option.toList_some] at hnd hc ⊢
  rw [List.nodup_append_comm] at hnd ⊢
  have hsub : [c] ⊆ c :: b.next.toList := fun x hx => by
    rw [List.mem_singleton.1 hx]
    exact List.mem_cons_self
  refine List.nodup_append_of_subset_cons hnd (fun h => hc ?_) hsub (List.nodup_singleton c)
  rcases List.mem_append.1 h with h | h
  · exact List.mem_append_right _ h
  · exact List.mem_append_left _ h

end Block

namespace Draft

variable {d d' d'' : Draft} {i p c : Nat}

/-- The links of the block at a position, if there is one. -/
def linksAt (d : Draft) (p : Nat) : Option (List Nat) := d.blocks[p]?.map (·.block.children)

/-- Nothing links to `c`: it is no root, and no block links to it. -/
def Unlinked (d : Draft) (c : Nat) : Prop := c ∉ d.roots ∧ ∀ p l, d.linksAt p = some l → c ∉ l

/-- A draft whose links form a forest that grows forward: every position is linked from one
place at most, the roots and the links point into the arena, and a block links only to later
blocks. -/
structure Tidy (d : Draft) : Prop where
  roots_nodup : d.roots.Nodup
  roots_lt : ∀ r ∈ d.roots, r < d.blocks.size
  links_nodup : ∀ p l, d.linksAt p = some l → l.Nodup
  apart : ∀ p q l l', p ≠ q → d.linksAt p = some l → d.linksAt q = some l' → ∀ j ∈ l, j ∉ l'
  not_root : ∀ p l, d.linksAt p = some l → ∀ j ∈ l, j ∉ d.roots
  forward : ∀ p l, d.linksAt p = some l → ∀ j ∈ l, p < j ∧ j < d.blocks.size

@[simp] theorem size_modify (f : Block → Block) : (d.modify i f).blocks.size = d.blocks.size :=
  Array.size_modify

@[simp] theorem roots_modify (f : Block → Block) : (d.modify i f).roots = d.roots := rfl

theorem linksAt_modify_ne {f : Block → Block} (h : i ≠ p) :
    (d.modify i f).linksAt p = d.linksAt p := by
  simp [linksAt, modify, Array.getElem?_modify, h]

theorem linksAt_modify_self (f : Block → Block) :
    (d.modify i f).linksAt i = d.blocks[i]?.map fun b => (f b.block).children := by
  simp [linksAt, modify, Array.getElem?_modify, Option.map_map, Function.comp_def]

/-- A change of a block that keeps its links keeps every block's links. -/
theorem linksAt_modify_of_children {f : Block → Block} (hf : ∀ b, (f b).children = b.children)
    (p : Nat) : (d.modify i f).linksAt p = d.linksAt p := by
  by_cases h : i = p
  · subst h
    rw [linksAt_modify_self]
    simp [linksAt, hf]
  · exact linksAt_modify_ne h

/-- Tidiness depends on the arena's size, the roots and the links only. -/
theorem Tidy.congr (h : d.Tidy) (hs : d'.blocks.size = d.blocks.size) (hr : d'.roots = d.roots)
    (hl : ∀ p, d'.linksAt p = d.linksAt p) : d'.Tidy := by
  refine ⟨hr ▸ h.roots_nodup, fun r hrm => ?_, fun p l hp => ?_, fun p q l l' hpq hp hq => ?_,
    fun p l hp => ?_, fun p l hp j hj => ?_⟩
  · rw [hs]
    exact h.roots_lt r (hr ▸ hrm)
  · exact h.links_nodup p l (hl p ▸ hp)
  · exact h.apart p q l l' hpq (hl p ▸ hp) (hl q ▸ hq)
  · rw [hr]
    exact h.not_root p l (hl p ▸ hp)
  · rw [hs]
    exact h.forward p l (hl p ▸ hp) j hj

/-- **Linking a new block from an earlier one keeps a draft tidy**, where nothing links to it
yet; the change may drop a link of the earlier block. -/
theorem Tidy.link (h : d.Tidy) (hic : i < c) (hc : c < d.blocks.size) (hu : d.Unlinked c)
    {f : Block → Block} (hsub : ∀ b, (f b).children ⊆ c :: b.children)
    (hnd : ∀ b, b.children.Nodup → c ∉ b.children → (f b).children.Nodup) :
    (d.modify i f).Tidy := by
  -- the links of the block at `i`: the new one, and some of the old
  have hself : ∀ l, (d.modify i f).linksAt i = some l →
      ∃ l₀, d.linksAt i = some l₀ ∧ l ⊆ c :: l₀ ∧ l.Nodup := fun l hl => by
    rw [linksAt_modify_self] at hl
    obtain ⟨b, hb, rfl⟩ := Option.map_eq_some_iff.1 hl
    have hl₀ : d.linksAt i = some b.block.children := by simp [linksAt, hb]
    exact ⟨_, hl₀, hsub _, hnd _ (h.links_nodup i _ hl₀) (hu.2 i _ hl₀)⟩
  have hother : ∀ p l, p ≠ i → (d.modify i f).linksAt p = some l → d.linksAt p = some l :=
    fun p l hpi hl => by rwa [linksAt_modify_ne (Ne.symm hpi)] at hl
  refine ⟨h.roots_nodup, fun r hr => ?_, fun p l hl => ?_, fun p q l l' hpq hp hq => ?_,
    fun p l hl j hj => ?_, fun p l hl j hj => ?_⟩
  · rw [size_modify]
    exact h.roots_lt r hr
  · by_cases hpi : p = i
    · subst hpi
      obtain ⟨_, _, _, hnodup⟩ := hself l hl
      exact hnodup
    · exact h.links_nodup p l (hother p l hpi hl)
  · -- a link of `i` is the new block, linked from nowhere else, or an old link
    intro j hj hj'
    by_cases hpi : p = i
    · subst hpi
      obtain ⟨l₀, hl₀, hsubl, _⟩ := hself l hp
      have hq' := hother q l' (Ne.symm hpq) hq
      rcases List.mem_cons.1 (hsubl hj) with rfl | hj
      · exact hu.2 q l' hq' hj'
      · exact h.apart p q l₀ l' hpq hl₀ hq' j hj hj'
    · by_cases hqi : q = i
      · subst hqi
        obtain ⟨l₀, hl₀, hsubl, _⟩ := hself l' hq
        have hp' := hother p l hpi hp
        rcases List.mem_cons.1 (hsubl hj') with rfl | hj'
        · exact hu.2 p l hp' hj
        · exact h.apart p q l l₀ hpq hp' hl₀ j hj hj'
      · exact h.apart p q l l' hpq (hother p l hpi hp) (hother q l' hqi hq) j hj hj'
  · by_cases hpi : p = i
    · subst hpi
      obtain ⟨l₀, hl₀, hsubl, _⟩ := hself l hl
      rcases List.mem_cons.1 (hsubl hj) with rfl | hj
      · exact hu.1
      · exact h.not_root p l₀ hl₀ j hj
    · exact h.not_root p l (hother p l hpi hl) j hj
  · rw [size_modify]
    by_cases hpi : p = i
    · subst hpi
      obtain ⟨l₀, hl₀, hsubl, _⟩ := hself l hl
      rcases List.mem_cons.1 (hsubl hj) with rfl | hj
      · exact ⟨hic, hc⟩
      · exact h.forward p l₀ hl₀ j hj
    · exact h.forward p l (hother p l hpi hl) j hj

/-- In a tidy draft that grew from a tidy one, keeping its roots and its blocks, nothing links to
the first new position. -/
theorem Tidy.unlinked_new (hd : d.Tidy) (hd' : d'.Tidy) (hroots : d'.roots = d.roots)
    (hframe : ∀ p < d.blocks.size, d'.linksAt p = d.linksAt p) : d'.Unlinked d.blocks.size := by
  refine ⟨fun hr => ?_, fun p l hl hmem => ?_⟩
  · rw [hroots] at hr
    exact Nat.lt_irrefl _ (hd.roots_lt _ hr)
  · by_cases hp : p < d.blocks.size
    · -- an old block links only into the old arena
      rw [hframe p hp] at hl
      exact Nat.lt_irrefl _ (hd.forward p l hl _ hmem).2
    · -- a new block links only to later blocks
      have := (hd'.forward p l hl _ hmem).1
      omega

/-- Adding a block: it comes last, with no links. -/
theorem add_spec (d : Draft) (id : Option String) (kind : String) :
    (d.add id kind).1 = d.blocks.size ∧ (d.add id kind).2.blocks.size = d.blocks.size + 1 ∧
      (d.add id kind).2.roots = d.roots ∧
      (∀ p < d.blocks.size, (d.add id kind).2.linksAt p = d.linksAt p) ∧
      (d.Tidy → (d.add id kind).2.Tidy) := by
  have hlinks : ∀ p, (d.add id kind).2.linksAt p =
      if p = d.blocks.size then some [] else d.linksAt p := fun p => by
    by_cases hp : p = d.blocks.size
    · simp [add, linksAt, hp, Block.children, Slots.contents, Slots.empty]
    · simp [add, linksAt, Array.getElem?_push, hp]
  refine ⟨rfl, Array.size_push _, rfl, fun p hp => by rw [hlinks, if_neg (by omega)],
    fun h => ?_⟩
  have hold : ∀ p l, (d.add id kind).2.linksAt p = some l → l = [] ∨ d.linksAt p = some l :=
    fun p l hl => by
      rw [hlinks] at hl
      split at hl
      · exact .inl (Option.some.inj hl).symm
      · exact .inr hl
  have hsize : (d.add id kind).2.blocks.size = d.blocks.size + 1 := Array.size_push _
  refine ⟨h.roots_nodup, fun r hr => ?_, fun p l hl => ?_, fun p q l l' hpq hp hq j hj hj' => ?_,
    fun p l hl j hj => ?_, fun p l hl j hj => ?_⟩
  · rw [hsize]
    exact Nat.lt_succ_of_lt (h.roots_lt r hr)
  · rcases hold p l hl with rfl | hl
    · exact List.nodup_nil
    · exact h.links_nodup p l hl
  · rcases hold p l hp with rfl | hp
    · exact absurd hj List.not_mem_nil
    · rcases hold q l' hq with rfl | hq
      · exact absurd hj' List.not_mem_nil
      · exact h.apart p q l l' hpq hp hq j hj hj'
  · rcases hold p l hl with rfl | hl
    · exact absurd hj List.not_mem_nil
    · exact h.not_root p l hl j hj
  · rcases hold p l hl with rfl | hl
    · exact absurd hj List.not_mem_nil
    · rw [hsize]
      exact ⟨(h.forward p l hl j hj).1, Nat.lt_succ_of_lt (h.forward p l hl j hj).2⟩

/-- From `d` to `d'`: the arena grows, the roots stay, the blocks of `d` other than the one at
`i` keep their links, and a tidy draft in which `i` is a block stays tidy. -/
structure Grows (i : Nat) (d d' : Draft) : Prop where
  size_le : d.blocks.size ≤ d'.blocks.size
  roots : d'.roots = d.roots
  frame : ∀ p < d.blocks.size, p ≠ i → d'.linksAt p = d.linksAt p
  tidy : d.Tidy → i < d.blocks.size → d'.Tidy

theorem Grows.refl (i : Nat) (d : Draft) : Grows i d d :=
  ⟨Nat.le_refl _, rfl, fun _ _ _ => rfl, fun h _ => h⟩

theorem Grows.trans (h : Grows i d d') (h' : Grows i d' d'') : Grows i d d'' :=
  ⟨Nat.le_trans h.size_le h'.size_le, h'.roots.trans h.roots,
    fun p hp hpi => (h'.frame p (Nat.lt_of_lt_of_le hp h.size_le) hpi).trans (h.frame p hp hpi),
    fun hd hi => h'.tidy (h.tidy hd hi) (Nat.lt_of_lt_of_le hi h.size_le)⟩

/-- A change of a block that keeps its links. -/
theorem Grows.modify {f : Block → Block} (hf : ∀ b, (f b).children = b.children) (i j : Nat)
    (d : Draft) : Grows i d (d.modify j f) :=
  ⟨Nat.le_of_eq (size_modify f).symm, rfl, fun p _ _ => linksAt_modify_of_children hf p,
    fun h _ => h.congr (size_modify f) rfl (linksAt_modify_of_children hf)⟩

theorem Grows.setField (i j : Nat) (d : Draft) (name text : String) :
    Grows i d (d.setField j name text) :=
  Grows.modify (f := fun b => { b with fields := b.fields.insert name text }) (fun _ => rfl) i j d

theorem Grows.setComment (i j : Nat) (d : Draft) (text : String) :
    Grows i d (d.setComment j text) :=
  Grows.modify (f := fun b => { b with comment := some text }) (fun _ => rfl) i j d

theorem Grows.disable (i j : Nat) (d : Draft) : Grows i d (d.disable j) :=
  Grows.modify (f := fun b => { b with disabled := true }) (fun _ => rfl) i j d

theorem Grows.setExtra (i j : Nat) (d : Draft) (extra : ExtraState) :
    Grows i d (d.setExtra j extra) :=
  Grows.modify (f := fun b => { b with extra := extra }) (fun _ => rfl) i j d

/-- What lowering a block tree does to a draft: the new block comes last, the arena grows, the
roots and the blocks before stay, and a tidy draft stays tidy. -/
def Lowered (d : Draft) (r : Nat × Draft) : Prop :=
  r.1 = d.blocks.size ∧ d.blocks.size < r.2.blocks.size ∧ r.2.roots = d.roots ∧
    (∀ p < d.blocks.size, r.2.linksAt p = d.linksAt p) ∧ (d.Tidy → r.2.Tidy)

/-- Lowering a block tree, then linking its block from the block at `i`. -/
theorem Lowered.link {r : Nat × Draft} (h : Lowered d r) {f : Nat → Block → Block}
    (hsub : ∀ c b, (f c b).children ⊆ c :: b.children)
    (hnd : ∀ c b, b.children.Nodup → c ∉ b.children → (f c b).children.Nodup) :
    Grows i d (r.2.modify i (f r.1)) := by
  obtain ⟨hpos, hlt, hroots, hframe, htidy⟩ := h
  refine ⟨?_, hroots, fun p hp hpi => ?_, fun hd hi => ?_⟩
  · rw [size_modify]
    exact Nat.le_of_lt hlt
  · rw [linksAt_modify_ne (Ne.symm hpi)]
    exact hframe p hp
  · have hd' := htidy hd
    rw [hpos]
    exact hd'.link hi hlt (hd.unlinked_new hd' hroots hframe) (hsub _) (hnd _)

end Draft

open Draft

namespace BlockTree

variable {d : Draft} {i : Nat}

theorem lowerInputs_cons (i : Nat) (slot : String) (child : BlockTree)
    (rest : List (String × BlockTree)) (d : Draft) :
    lowerInputs i ((slot, child) :: rest) d =
      lowerInputs i rest ((child.lower d).2.setValue i slot (child.lower d).1) := rfl

theorem lowerStatements_cons (i : Nat) (slot : String) (head : BlockTree)
    (rest : List (String × BlockTree)) (d : Draft) :
    lowerStatements i ((slot, head) :: rest) d =
      lowerStatements i rest ((head.lower d).2.setStatement i slot (head.lower d).1) := rfl

theorem lowerNext_some (i : Nat) (t : BlockTree) (d : Draft) :
    lowerNext i (some t) d = (t.lower d).2.setNext i (t.lower d).1 := rfl

/-- Setting fields, the comment, the flag and the extra state changes no links. -/
theorem grows_decorate (i : Nat) (d : Draft) (comment : Option String) (disabled : Bool)
    (extra : ExtraState) :
    Grows i d ((if disabled then (match comment with
        | some c => d.setComment i c
        | none => d).disable i
      else match comment with
        | some c => d.setComment i c
        | none => d).setExtra i extra) := by
  have hcomment : Grows i d (match comment with
      | some c => d.setComment i c
      | none => d) := by
    cases comment with
    | some c => exact Grows.setComment i i d c
    | none => exact Grows.refl i d
  refine Grows.trans ?_ (Grows.setExtra i i _ extra)
  cases disabled with
  | true => exact hcomment.trans (Grows.disable i i _)
  | false => exact hcomment

theorem grows_fields (i : Nat) :
    ∀ (fields : List (String × String)) (d : Draft),
      Grows i d (fields.foldl (fun d (name, text) => d.setField i name text) d)
  | [], d => Grows.refl i d
  | (name, text) :: rest, d => (Grows.setField i i d name text).trans (grows_fields i rest _)

mutual

theorem lower_spec : ∀ (t : BlockTree) (d : Draft), Lowered d (t.lower d)
  | .node kind id fields inputs statements next comment disabled extra, d => by
    obtain ⟨hpos, hsize, hroots, hframe, htidy⟩ := add_spec d id kind
    -- after the new block, its fields, inputs, statements, decorations and successor
    have hgrows : Grows d.blocks.size (d.add id kind).2
        ((BlockTree.node kind id fields inputs statements next comment disabled extra).lower d).2 :=
      (((grows_fields _ fields _).trans (lowerInputs_grows _ inputs _)).trans
        (lowerStatements_grows _ statements _)).trans
        ((grows_decorate _ _ comment disabled extra).trans (lowerNext_grows _ next _))
    refine ⟨rfl, ?_, hgrows.roots.trans hroots, fun p hp => ?_, fun hd => ?_⟩
    · have := hgrows.size_le
      omega
    · rw [hgrows.frame p (by omega) (by omega)]
      exact hframe p hp
    · exact hgrows.tidy (htidy hd) (by omega)

theorem lowerInputs_grows (i : Nat) :
    ∀ (inputs : List (String × BlockTree)) (d : Draft), Grows i d (lowerInputs i inputs d)
  | [], d => Grows.refl i d
  | (slot, child) :: rest, d => by
    rw [lowerInputs_cons]
    exact ((lower_spec child d).link (f := fun c b => { b with values := b.values.insert slot c })
      (fun _ _ => Block.setValue_children slot)
      (fun _ _ => Block.setValue_children_nodup slot)).trans (lowerInputs_grows i rest _)

theorem lowerStatements_grows (i : Nat) :
    ∀ (statements : List (String × BlockTree)) (d : Draft),
      Grows i d (lowerStatements i statements d)
  | [], d => Grows.refl i d
  | (slot, head) :: rest, d => by
    rw [lowerStatements_cons]
    exact ((lower_spec head d).link
      (f := fun c b => { b with statements := b.statements.insert slot c })
      (fun _ _ => Block.setStatement_children slot)
      (fun _ _ => Block.setStatement_children_nodup slot)).trans (lowerStatements_grows i rest _)

theorem lowerNext_grows (i : Nat) : ∀ (next : Option BlockTree) (d : Draft),
    Grows i d (lowerNext i next d)
  | none, d => Grows.refl i d
  | some t, d => by
    rw [lowerNext_some]
    exact (lower_spec t d).link (f := fun c b => { b with next := some c })
      (fun _ _ => Block.setNext_children) (fun _ _ => Block.setNext_children_nodup)

end

end BlockTree

namespace Draft

variable {d : Draft} {w : Workspace} {p j r : Nat}

/-- A draft with no blocks and no roots is tidy. -/
theorem tidy_empty (oneBased : Bool) (declared : List String) :
    ({ oneBasedIndex := oneBased, declared := declared } : Draft).Tidy := by
  have hnone : ∀ p, ({ oneBasedIndex := oneBased, declared := declared } : Draft).linksAt p = none :=
    fun _ => rfl
  refine ⟨List.nodup_nil, fun _ hr => absurd hr List.not_mem_nil, fun p l hl => ?_,
    fun p _ l _ _ hl => ?_, fun p l hl => ?_, fun p l hl => ?_⟩ <;>
  · rw [hnone] at hl
    cases hl

@[simp] theorem roots_addRoot : (d.addRoot r).roots = d.roots ++ [r] := rfl

/-- Making a block a root keeps a draft tidy, where it is in the arena and nothing links to it. -/
theorem Tidy.addRoot (h : d.Tidy) (hr : r < d.blocks.size) (hu : d.Unlinked r) :
    (d.addRoot r).Tidy := by
  refine ⟨?_, fun r' hr' => ?_, h.links_nodup, h.apart, fun p l hl j hj hjr => ?_, h.forward⟩
  · rw [roots_addRoot]
    refine List.nodup_append.2 ⟨h.roots_nodup, List.nodup_singleton r, fun a ha b hb hab => ?_⟩
    rw [List.mem_singleton.1 hb] at hab
    exact hu.1 (hab ▸ ha)
  · rcases List.mem_append.1 hr' with hr' | hr'
    · exact h.roots_lt r' hr'
    · rw [List.mem_singleton.1 hr']
      exact hr
  · rcases List.mem_append.1 hjr with hjr | hjr
    · exact h.not_root p l hl j hj hjr
    · rw [List.mem_singleton.1 hjr] at hj
      exact hu.2 p l hl hj

/-- Lowering a block tree and making its block a root keeps a draft tidy. -/
theorem Lowered.addRoot {t : Nat × Draft} (h : Lowered d t) (hd : d.Tidy) :
    (t.2.addRoot t.1).Tidy := by
  obtain ⟨hpos, hlt, hroots, hframe, htidy⟩ := h
  have hd' := htidy hd
  rw [hpos]
  exact hd'.addRoot hlt (hd.unlinked_new hd' hroots hframe)

/-- The links of a built workspace are those of its draft, block by block. -/
theorem linksAt_of_build (h : d.build = .ok w) (p : Nat) :
    (w.get? p).map Block.children = d.linksAt p := by
  have hp := congrArg (·[p]?) (build_ok h).2.1
  simpa [Workspace.get?, linksAt, List.getElem?_map] using hp

theorem link_of_build (h : d.build = .ok w) (hl : w.Link p j) :
    ∃ l, d.linksAt p = some l ∧ j ∈ l := by
  obtain ⟨b, hb, hj⟩ := hl
  refine ⟨b.children, ?_, hj⟩
  rw [← linksAt_of_build h, hb]
  rfl

/-- Along the links of a workspace built from a tidy draft, positions increase. -/
theorem lt_of_build (h : d.build = .ok w) (hd : d.Tidy) (hl : Relation.TransGen w.Link p j) :
    p < j := by
  induction hl with
  | single hl =>
    obtain ⟨l, hpl, hjl⟩ := link_of_build h hl
    exact (hd.forward _ l hpl _ hjl).1
  | tail _ hl ih =>
    obtain ⟨l, hpl, hjl⟩ := link_of_build h hl
    exact Nat.lt_trans ih (hd.forward _ l hpl _ hjl).1

/-- **A tidy draft builds into a forest.** -/
theorem build_forest (h : d.build = .ok w) (hd : d.Tidy) : w.Forest := by
  have hroots := (build_ok h).1
  refine Workspace.Forest.of_parents (hroots ▸ hd.roots_nodup) (fun p b hb => ?_)
    (fun p q j hp hq => ?_) (fun p j hl hj => ?_) fun p hp => Nat.lt_irrefl p (lt_of_build h hd hp)
  · have hl : d.linksAt p = some b.children := by
      rw [← linksAt_of_build h, hb]
      rfl
    exact hd.links_nodup p _ hl
  · -- two parents of one position would be two blocks with a link in common
    obtain ⟨l, hpl, hjl⟩ := link_of_build h hp
    obtain ⟨l', hql, hjl'⟩ := link_of_build h hq
    by_contra hne
    exact hd.apart p q l l' hne hpl hql j hjl hjl'
  · obtain ⟨l, hpl, hjl⟩ := link_of_build h hl
    rw [hroots] at hj
    exact hd.not_root p l hpl j hjl hj

end Draft

/-- The draft of a workspace in nested form is tidy: its roots are lowered one after the other,
each made a root once it is in. -/
theorem WorkspaceTree.toDraft_tidy (t : WorkspaceTree) : t.toDraft.Tidy := by
  have hfold : ∀ (bs : List BlockTree) (d : Draft), d.Tidy →
      (bs.foldl (fun d b => (b.lower d).2.addRoot (b.lower d).1) d).Tidy := by
    intro bs
    induction bs with
    | nil => exact fun _ hd => hd
    | cons b bs ih => exact fun d hd => ih _ ((BlockTree.lower_spec b d).addRoot hd)
  exact hfold t.blocks _ (Draft.tidy_empty _ _)

/-- **Every workspace read from JSON text is a forest whose links stay in its arena.** -/
theorem Workspace.ofJson_forest {text : String} {w : Workspace} (h : Workspace.ofJson text = .ok w) :
    w.Closed ∧ w.Forest := by
  unfold Workspace.ofJson at h
  split at h
  · cases h
  · split at h
    · cases h
    · rename_i t _
      exact ⟨Draft.build_closed h, Draft.build_forest h t.toDraft_tidy⟩

end BlockScribe
