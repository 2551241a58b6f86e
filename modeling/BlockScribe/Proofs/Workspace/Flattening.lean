import BlockScribe.Proofs.Workspace.Lowering
/-!
# Loading lays the nested form out in preorder

A tree of the nested form occupies a stretch of the arena: its own block, then the trees of its
inputs and of its statements, each in full and in slot order, then the tree of its successor
(`BlockTree.flatten`); its block links to where those trees start (`BlockTree.headAt`).  The
trees of a workspace follow one another from position `0`, and the roots are where they start.

Lowering a tree onto a draft appends exactly that stretch (`BlockTree.lower_eq`): every step of
it either adds a block at the end or changes the block being lowered, which lies before
everything its children add.  So the draft of a nested workspace is its preorder flattening
(`WorkspaceTree.toDraft_eq`).
-/

namespace BlockScribe

/-- Changing an element of the first part of a list changes nothing after it. -/
theorem List.modify_append_of_lt {α : Type} (l m : List α) (f : α → α) {i : Nat}
    (h : i < l.length) : (l ++ m).modify i f = l.modify i f ++ m := by
  refine List.ext_getElem? fun j => ?_
  rw [List.getElem?_modify]
  by_cases hj : j < l.length
  · rw [List.getElem?_append_left hj, List.getElem?_append_left (by simpa using hj),
      List.getElem?_modify]
  · -- past the first part nothing changes
    have hlen : (l.modify i f).length = l.length := List.length_modify ..
    rw [List.getElem?_append_right (by omega), List.getElem?_append_right (by omega), hlen]
    cases m[j - l.length]? with
    | none => rfl
    | some a => simp only [Option.map_eq_map, Option.map_some]; rw [if_neg (by omega)]

/-- Changing the element after a first part. -/
theorem List.modify_append_length {α : Type} (f : α → α) (x : α) :
    ∀ l m : List α, (l ++ x :: m).modify l.length f = l ++ f x :: m
  | [], m => List.modify_zero_cons f x m
  | a :: l, m => by
    rw [List.cons_append, List.length_cons, List.modify_succ_cons, List.modify_append_length f x l m,
      List.cons_append]

namespace Slots

variable {α : Type}

/-- Fills slots one after the other, in order. -/
def insertAll (s : Slots α) (pairs : List (String × α)) : Slots α :=
  pairs.foldl (fun s e => s.insert e.1 e.2) s

theorem ofList_eq_insertAll (pairs : List (String × α)) : ofList pairs = insertAll empty pairs := by
  unfold ofList insertAll
  congr 1

@[simp] theorem insertAll_nil (s : Slots α) : insertAll s [] = s := rfl

@[simp] theorem insertAll_cons (s : Slots α) (name : String) (a : α) (rest : List (String × α)) :
    insertAll s ((name, a) :: rest) = insertAll (s.insert name a) rest := rfl

/-- A name not filled yet goes last. -/
theorem insertList_of_not_mem {name : String} {a : α} :
    ∀ l : List (String × α), name ∉ l.map (·.1) → insertList name a l = l ++ [(name, a)]
  | [], _ => rfl
  | (n, b) :: rest, h => by
    simp only [List.map_cons, List.mem_cons, not_or] at h
    rw [insertList, if_neg (Ne.symm h.1), insertList_of_not_mem rest h.2, List.cons_append]

/-- Filling new names, each once, appends them in order. -/
theorem entries_insertAll : ∀ (l : List (String × α)) (s : Slots α),
    (s.entries.map (·.1) ++ l.map (·.1)).Nodup → (s.insertAll l).entries = s.entries ++ l
  | [], s, _ => by rw [insertAll_nil, List.append_nil]
  | (name, a) :: rest, s, h => by
    have hname : name ∉ s.entries.map (·.1) := fun hm =>
      (List.nodup_append.1 h).2.2 name hm name List.mem_cons_self rfl
    have hs : (s.insert name a).entries = s.entries ++ [(name, a)] :=
      insertList_of_not_mem _ hname
    rw [insertAll_cons, entries_insertAll rest _ (by rw [hs, List.map_append, List.append_assoc]; exact h),
      hs, List.append_assoc, List.singleton_append]

/-- **Slots filled from pairs with distinct names hold exactly those pairs**, in order. -/
theorem entries_ofList {l : List (String × α)} (h : (l.map (·.1)).Nodup) : (ofList l).entries = l := by
  rw [ofList_eq_insertAll, entries_insertAll l empty h]
  rfl

end Slots

namespace BlockTree

mutual

/-- The number of blocks of a tree: its own, and those of the trees of its inputs, its
statements and its successor. -/
def size : BlockTree → Nat
  | .node _ _ _ inputs statements next _ _ _ =>
    1 + slotsSize inputs + slotsSize statements + nextSize next

/-- The number of blocks of the trees in some slots. -/
def slotsSize : List (String × BlockTree) → Nat
  | [] => 0
  | (_, t) :: rest => size t + slotsSize rest

/-- The number of blocks of the tree after a block, if there is one. -/
def nextSize : Option BlockTree → Nat
  | none => 0
  | some t => size t

end

/-- The names of some slots, each with the position its tree starts at when the trees are laid
out one after the other from `p`. -/
def slotsAt : Nat → List (String × BlockTree) → List (String × Nat)
  | _, [] => []
  | p, (name, t) :: rest => (name, p) :: slotsAt (p + t.size) rest

/-- The block of a tree's own node at position `p`, linked to where the trees of its inputs,
its statements and its successor start. -/
def headAt (p : Nat) : BlockTree → DraftBlock
  | .node kind id fields inputs statements next comment disabled extra =>
    { explicitId := id
      block :=
        { id := id.getD "", kind := kind, fields := Slots.ofList fields,
          values := Slots.ofList (slotsAt (p + 1) inputs),
          statements := Slots.ofList (slotsAt (p + 1 + slotsSize inputs) statements),
          next := next.map fun _ => p + 1 + slotsSize inputs + slotsSize statements,
          comment := comment, disabled := disabled, extra := extra } }

mutual

/-- The blocks of a tree laid out from position `p` in preorder: its own block, the trees of its
inputs and of its statements, each in full and in slot order, then the tree of its
successor. -/
def flatten : BlockTree → Nat → List DraftBlock
  | .node kind id fields inputs statements next comment disabled extra, p =>
    headAt p (.node kind id fields inputs statements next comment disabled extra) ::
      (flattenSlots inputs (p + 1) ++ flattenSlots statements (p + 1 + slotsSize inputs) ++
        flattenNext next (p + 1 + slotsSize inputs + slotsSize statements))

/-- The blocks of the trees in some slots, laid out one after the other from `p`. -/
def flattenSlots : List (String × BlockTree) → Nat → List DraftBlock
  | [], _ => []
  | (_, t) :: rest, p => flatten t p ++ flattenSlots rest (p + size t)

/-- The blocks of the tree after a block, laid out from `p`. -/
def flattenNext : Option BlockTree → Nat → List DraftBlock
  | none, _ => []
  | some t, p => flatten t p

end

/-- The blocks of trees laid out one after the other from `p`. -/
def flattenAll : List BlockTree → Nat → List DraftBlock
  | [], _ => []
  | t :: ts, p => t.flatten p ++ flattenAll ts (p + t.size)

/-- Where each of some trees starts when they are laid out one after the other from `p`. -/
def startsAt : List BlockTree → Nat → List Nat
  | [], _ => []
  | t :: ts, p => p :: startsAt ts (p + t.size)

mutual

theorem length_flatten : ∀ (t : BlockTree) (p : Nat), (t.flatten p).length = t.size
  | .node kind id fields inputs statements next comment disabled extra, p => by
    rw [flatten, size, List.length_cons, List.length_append, List.length_append,
      length_flattenSlots, length_flattenSlots, length_flattenNext]
    omega

theorem length_flattenSlots : ∀ (l : List (String × BlockTree)) (p : Nat),
    (flattenSlots l p).length = slotsSize l
  | [], _ => rfl
  | (_, t) :: rest, p => by
    rw [flattenSlots, slotsSize, List.length_append, length_flatten, length_flattenSlots]

theorem length_flattenNext : ∀ (next : Option BlockTree) (p : Nat),
    (flattenNext next p).length = nextSize next
  | none, _ => rfl
  | some t, p => length_flatten t p

end

end BlockTree


namespace Draft

variable {d : Draft} {i : Nat}

/-- The draft with blocks added at the end. -/
def append (d : Draft) (bs : List DraftBlock) : Draft :=
  { d with blocks := (d.blocks.toList ++ bs).toArray }

@[simp] theorem blocks_append (bs : List DraftBlock) :
    (d.append bs).blocks.toList = d.blocks.toList ++ bs := by simp [append]

@[simp] theorem size_append (bs : List DraftBlock) :
    (d.append bs).blocks.size = d.blocks.size + bs.length := by simp [append]

theorem append_append (bs cs : List DraftBlock) : (d.append bs).append cs = d.append (bs ++ cs) := by
  simp [append]

theorem append_nil : d.append [] = d := by simp [append]

/-- Adding a block appends it. -/
theorem add_eq (id : Option String) (kind : String) :
    d.add id kind = (d.blocks.size, d.append [⟨id, { id := id.getD "", kind := kind }⟩]) := by
  have hblocks : (d.add id kind).2.blocks = (d.append [⟨id, { id := id.getD "", kind := kind }⟩]).blocks :=
    Array.ext' (by simp [add, append])
  refine Prod.ext rfl ?_
  cases d
  simp only [add, append] at hblocks ⊢
  rw [← hblocks]

theorem modify_blocks (f : Block → Block) :
    (d.modify i f).blocks.toList = d.blocks.toList.modify i fun b => { b with block := f b.block } :=
  Array.toList_modify

/-- A draft is its blocks, once the rest is fixed. -/
theorem ext_blocks {d' : Draft} (hblocks : d.blocks.toList = d'.blocks.toList)
    (hroots : d.roots = d'.roots) (hdeclared : d.declared = d'.declared)
    (hone : d.oneBasedIndex = d'.oneBasedIndex) : d = d' := by
  cases d
  cases d'
  simp only at hblocks hroots hdeclared hone
  rw [Array.ext' hblocks, hroots, hdeclared, hone]

/-- Changing an old block commutes with adding blocks. -/
theorem append_modify {f : Block → Block} (bs : List DraftBlock) (h : i < d.blocks.size) :
    (d.append bs).modify i f = (d.modify i f).append bs := by
  refine ext_blocks ?_ rfl rfl rfl
  rw [modify_blocks, blocks_append, blocks_append, modify_blocks]
  exact List.modify_append_of_lt _ _ _ (by simpa using h)

/-- Two changes of one block are one change. -/
theorem modify_modify (f g : Block → Block) : (d.modify i f).modify i g = d.modify i (g ∘ f) := by
  refine ext_blocks ?_ rfl rfl rfl
  rw [modify_blocks, modify_blocks, modify_blocks, List.modify_modify_eq]
  rfl

/-- A change that changes nothing. -/
theorem modify_eq_self {f : Block → Block} (hf : ∀ b, f b = b) : d.modify i f = d := by
  refine ext_blocks ?_ rfl rfl rfl
  rw [modify_blocks]
  have hid : (fun b : DraftBlock => ({ b with block := f b.block } : DraftBlock)) = id := by
    funext b
    rw [hf]
    rfl
  rw [hid, List.modify_id]

/-- Changing the block just added. -/
theorem append_cons_modify (x : DraftBlock) (bs : List DraftBlock) (f : Block → Block) :
    (d.append (x :: bs)).modify d.blocks.size f = d.append ({ x with block := f x.block } :: bs) := by
  refine ext_blocks ?_ rfl rfl rfl
  rw [modify_blocks, blocks_append, blocks_append, ← Array.length_toList]
  exact List.modify_append_length _ _ _ _

end Draft

namespace BlockTree

open Draft

/-- Setting fields one after the other fills them in order. -/
theorem foldl_setField (i : Nat) (step : Draft → String × String → Draft)
    (hstep : ∀ d e, step d e = d.setField i e.1 e.2) :
    ∀ (fields : List (String × String)) (d : Draft),
      fields.foldl step d = d.modify i fun b => { b with fields := b.fields.insertAll fields }
  | [], d => (modify_eq_self fun _ => rfl).symm
  | (name, text) :: rest, d => by
    rw [List.foldl_cons, foldl_setField i step hstep rest, hstep, setField, modify_modify]
    rfl

mutual

/-- **Lowering a tree appends its preorder flattening** and gives the position of its block. -/
theorem lower_eq : ∀ (t : BlockTree) (d : Draft),
    t.lower d = (d.blocks.size, d.append (t.flatten d.blocks.size))
  | .node kind id fields inputs statements next comment disabled extra, d => by
    -- the block comes last; every later step changes it or adds blocks after it
    rw [lower, add_eq]
    dsimp only
    rw [foldl_setField d.blocks.size _ (fun _ _ => rfl), append_cons_modify,
      lowerInputs_eq _ inputs _ (by rw [size_append]; simp), append_cons_modify, append_append,
      lowerStatements_eq _ statements _ (by rw [size_append]; simp), List.singleton_append,
      append_cons_modify, append_append]
    simp only [size_append, List.length_cons, List.length_nil, length_flattenSlots, Nat.zero_add]
    cases comment <;> cases disabled <;>
    simp only [setComment, disable, setExtra, Bool.false_eq_true, ite_true, ite_false,
      List.cons_append, append_cons_modify] <;>
    rw [lowerNext_eq _ _ _ (by simp)] <;>
    cases next <;>
    simp only [Option.elim, append_cons_modify, append_append, List.cons_append, size_append] <;>
    simp only [List.length_cons, List.length_append, length_flattenSlots, flatten, headAt,
      flattenNext, Slots.ofList_eq_insertAll, Option.map, List.append_nil, Nat.add_assoc,
      Nat.add_comm]

theorem lowerInputs_eq (i : Nat) : ∀ (inputs : List (String × BlockTree)) (d : Draft),
    i < d.blocks.size →
      lowerInputs i inputs d = (d.modify i fun b =>
        { b with values := b.values.insertAll (slotsAt d.blocks.size inputs) }).append
          (flattenSlots inputs d.blocks.size)
  | [], d, _ => by
    rw [flattenSlots, append_nil]
    exact (modify_eq_self fun _ => rfl).symm
  | (slot, child) :: rest, d, hi => by
    -- the child comes first, then the link to it, then the rest
    rw [lowerInputs_cons, lower_eq child d]
    dsimp only
    rw [setValue, append_modify _ hi,
      lowerInputs_eq i rest _ (by rw [size_append, size_modify]; omega),
      append_modify _ (by rw [size_modify]; exact hi), modify_modify, append_append]
    simp only [size_append, size_modify, length_flatten, flattenSlots, slotsAt]
    rfl

theorem lowerStatements_eq (i : Nat) : ∀ (statements : List (String × BlockTree)) (d : Draft),
    i < d.blocks.size →
      lowerStatements i statements d = (d.modify i fun b =>
        { b with statements := b.statements.insertAll (slotsAt d.blocks.size statements) }).append
          (flattenSlots statements d.blocks.size)
  | [], d, _ => by
    rw [flattenSlots, append_nil]
    exact (modify_eq_self fun _ => rfl).symm
  | (slot, head) :: rest, d, hi => by
    rw [lowerStatements_cons, lower_eq head d]
    dsimp only
    rw [setStatement, append_modify _ hi,
      lowerStatements_eq i rest _ (by rw [size_append, size_modify]; omega),
      append_modify _ (by rw [size_modify]; exact hi), modify_modify, append_append]
    simp only [size_append, size_modify, length_flatten, flattenSlots, slotsAt]
    rfl

theorem lowerNext_eq (i : Nat) : ∀ (next : Option BlockTree) (d : Draft), i < d.blocks.size →
    lowerNext i next d = next.elim d fun t =>
      (d.modify i fun b => { b with next := some d.blocks.size }).append (t.flatten d.blocks.size)
  | none, d, _ => rfl
  | some t, d, hi => by
    rw [lowerNext_some, lower_eq t d]
    exact append_modify _ hi

end

end BlockTree

namespace WorkspaceTree

/-- The blocks of a nested workspace laid out in preorder: its trees one after the other. -/
def arena (t : WorkspaceTree) : List DraftBlock := BlockTree.flattenAll t.blocks 0

/-- Where the trees of a nested workspace start in its arena. -/
def rootPositions (t : WorkspaceTree) : List Nat := BlockTree.startsAt t.blocks 0

open Draft in
/-- Lowering trees one after the other, each made a root, appends their preorder flattenings
and their starts. -/
theorem foldl_lower (step : Draft → BlockTree → Draft)
    (hstep : ∀ d b, step d b = (b.lower d).2.addRoot (b.lower d).1) :
    ∀ (bs : List BlockTree) (d : Draft), bs.foldl step d =
      { d.append (BlockTree.flattenAll bs d.blocks.size) with
        roots := d.roots ++ BlockTree.startsAt bs d.blocks.size }
  | [], d => by
    rw [List.foldl_nil, BlockTree.flattenAll, BlockTree.startsAt, append_nil, List.append_nil]
  | b :: bs, d => by
    rw [List.foldl_cons, foldl_lower step hstep bs, hstep, BlockTree.lower_eq]
    refine ext_blocks ?_ ?_ rfl rfl
    · simp [BlockTree.flattenAll, append, addRoot, BlockTree.length_flatten]
    · simp [BlockTree.startsAt, addRoot, append, BlockTree.length_flatten]

/-- **The draft of a nested workspace is its preorder flattening**, with the starts of its trees
as roots. -/
theorem toDraft_eq (t : WorkspaceTree) :
    t.toDraft =
      { blocks := t.arena.toArray, roots := t.rootPositions, declared := t.declared,
        oneBasedIndex := t.oneBasedIndex } := by
  unfold toDraft
  rw [foldl_lower _ (fun _ _ => rfl)]
  refine Draft.ext_blocks ?_ rfl rfl rfl
  simp [Draft.append, arena]

end WorkspaceTree

/-- Three pairs of lists taken apart and put back side by side. -/
theorem List.perm_append_three {a b c a' b' c' : List Nat} :
    ((a ++ b ++ c) ++ (a' ++ b' ++ c')).Perm ((a ++ a') ++ (b ++ b') ++ (c ++ c')) :=
  List.perm_iff_count.2 fun x => by simp only [List.count_append]; omega

namespace BlockTree

mutual

/-- A tree whose every block has fields, inputs and statements of distinct names. -/
def Keyed : BlockTree → Prop
  | .node _ _ fields inputs statements next _ _ _ =>
    (fields.map (·.1)).Nodup ∧ (inputs.map (·.1)).Nodup ∧ (statements.map (·.1)).Nodup ∧
      SlotsKeyed inputs ∧ SlotsKeyed statements ∧ NextKeyed next

/-- Trees in slots, each keyed. -/
def SlotsKeyed : List (String × BlockTree) → Prop
  | [] => True
  | (_, t) :: rest => Keyed t ∧ SlotsKeyed rest

/-- The tree after a block, keyed if there is one. -/
def NextKeyed : Option BlockTree → Prop
  | none => True
  | some t => Keyed t

end

theorem names_slotsAt : ∀ (p : Nat) (l : List (String × BlockTree)),
    (slotsAt p l).map (·.1) = l.map (·.1)
  | _, [] => rfl
  | p, (name, t) :: rest => by rw [slotsAt, List.map_cons, names_slotsAt, List.map_cons]

theorem size_pos : ∀ t : BlockTree, 0 < t.size
  | .node .. => by rw [size]; omega

/-- The block of a keyed tree links to where the trees of its inputs, its statements and its
successor start, in that order. -/
theorem children_headAt (p : Nat) (kind : String) (id : Option String)
    (fields : List (String × String)) (inputs statements : List (String × BlockTree))
    (next : Option BlockTree) (comment : Option String) (disabled : Bool) (extra : ExtraState)
    (hin : (inputs.map (·.1)).Nodup) (hst : (statements.map (·.1)).Nodup) :
    (headAt p (.node kind id fields inputs statements next comment disabled extra)).block.children =
      (slotsAt (p + 1) inputs).map (·.2) ++
        (slotsAt (p + 1 + slotsSize inputs) statements).map (·.2) ++
        (next.map fun _ => p + 1 + slotsSize inputs + slotsSize statements).toList := by
  rw [headAt, Block.children, Slots.contents, Slots.contents,
    Slots.entries_ofList (by rw [names_slotsAt]; exact hin),
    Slots.entries_ofList (by rw [names_slotsAt]; exact hst)]

mutual

/-- **In the flattening of a keyed tree every block after the first is linked exactly once**:
the links of its blocks are the positions after its own, each once. -/
theorem children_flatten : ∀ (t : BlockTree) (p : Nat), t.Keyed →
    ((t.flatten p).flatMap (·.block.children)).Perm (List.range' (p + 1) (t.size - 1))
  | .node kind id fields inputs statements next comment disabled extra, p, h => by
    obtain ⟨_, hin, hst, kin, kst, knext⟩ := h
    rw [flatten, List.flatMap_cons, List.flatMap_append, List.flatMap_append,
      children_headAt p kind id fields inputs statements next comment disabled extra hin hst]
    -- each part of the block's links goes with the blocks of its trees
    refine List.perm_append_three.trans ?_
    have hsize : size (.node kind id fields inputs statements next comment disabled extra) - 1 =
        slotsSize inputs + slotsSize statements + nextSize next := by
      rw [size]
      omega
    rw [hsize, ← List.range'_append, ← List.range'_append, Nat.one_mul, Nat.one_mul,
      ← Nat.add_assoc (p + 1)]
    exact ((children_flattenSlots inputs (p + 1) kin).append
      (children_flattenSlots statements _ kst)).append (children_flattenNext next _ knext)

theorem children_flattenSlots : ∀ (l : List (String × BlockTree)) (p : Nat), SlotsKeyed l →
    ((slotsAt p l).map (·.2) ++ (flattenSlots l p).flatMap (·.block.children)).Perm
      (List.range' p (slotsSize l))
  | [], _, _ => List.Perm.refl _
  | (_, t) :: rest, p, h => by
    rw [slotsAt, flattenSlots, slotsSize, List.map_cons, List.flatMap_append,
      ← List.range'_append, Nat.one_mul]
    -- the first tree's start and blocks, then the rest
    have hfirst : (p :: (t.flatten p).flatMap (·.block.children)).Perm (List.range' p t.size) := by
      obtain ⟨k, hk⟩ : ∃ k, t.size = k + 1 := ⟨t.size - 1, by have := size_pos t; omega⟩
      rw [hk, List.range'_succ]
      exact (children_flatten t p h.1).cons p |>.trans (by rw [hk]; rfl)
    refine List.Perm.trans ?_ (hfirst.append (children_flattenSlots rest _ h.2))
    exact List.perm_iff_count.2 fun x => by simp only [List.count_append, List.count_cons]; omega

theorem children_flattenNext : ∀ (next : Option BlockTree) (p : Nat), NextKeyed next →
    ((next.map fun _ => p).toList ++ (flattenNext next p).flatMap (·.block.children)).Perm
      (List.range' p (nextSize next))
  | none, _, _ => List.Perm.refl _
  | some t, p, h => by
    obtain ⟨k, hk⟩ : ∃ k, t.size = k + 1 := ⟨t.size - 1, by have := size_pos t; omega⟩
    rw [Option.map_some, Option.toList_some, flattenNext, nextSize, hk, List.range'_succ,
      List.singleton_append]
    exact (children_flatten t p h).cons p |>.trans (by rw [hk]; rfl)

end

/-- The starts of keyed trees laid out one after the other, and the links of their blocks, are the
positions of the stretch they occupy, each once. -/
theorem children_flattenAll : ∀ (bs : List BlockTree) (p : Nat), (∀ b ∈ bs, b.Keyed) →
    (startsAt bs p ++ (flattenAll bs p).flatMap (·.block.children)).Perm
      (List.range' p (flattenAll bs p).length)
  | [], _, _ => List.Perm.refl _
  | b :: bs, p, h => by
    obtain ⟨k, hk⟩ : ∃ k, b.size = k + 1 := ⟨b.size - 1, by have := size_pos b; omega⟩
    have hfirst : (p :: (b.flatten p).flatMap (·.block.children)).Perm (List.range' p b.size) := by
      rw [hk, List.range'_succ]
      exact (children_flatten b p (h b List.mem_cons_self)).cons p |>.trans (by rw [hk]; rfl)
    rw [startsAt, flattenAll, List.flatMap_append, List.length_append, length_flatten,
      ← List.range'_append, Nat.one_mul]
    refine List.Perm.trans ?_ (hfirst.append
      (children_flattenAll bs _ fun b' hb' => h b' (List.mem_cons_of_mem b hb')))
    exact List.perm_iff_count.2 fun x => by simp only [List.count_append, List.count_cons]; omega

end BlockTree

namespace WorkspaceTree

/-- A nested workspace whose trees are keyed. -/
def Keyed (t : WorkspaceTree) : Prop := ∀ b ∈ t.blocks, b.Keyed

/-- **In the arena of a keyed nested workspace every position is a root or linked, and only
once.** -/
theorem entries_perm {t : WorkspaceTree} (h : t.Keyed) :
    (t.rootPositions ++ t.arena.flatMap (·.block.children)).Perm (List.range t.arena.length) := by
  rw [List.range_eq_range']
  exact BlockTree.children_flattenAll t.blocks 0 h

end WorkspaceTree

end BlockScribe
