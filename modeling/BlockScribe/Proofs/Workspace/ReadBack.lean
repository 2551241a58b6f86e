import BlockScribe.Proofs.Workspace.Decode
/-!
# Loaded workspaces read back as their nested form

Reading a workspace back from a position (`Workspace.treeAt`) gives the tree of the block there:
its kind, fields, comment, flag and extra state, and under each of its value and statement slots,
and as its successor, the tree read back from the position linked.  Ids are not read back: a
workspace gives every block one, and the nested form only those written.

A workspace holds a list of blocks from a position (`Workspace.Spans`) when its blocks there are
those, ids apart.  Where it holds the preorder flattening of a keyed tree, reading back from the
tree's start gives the tree, ids left out (`Workspace.treeAt_flatten`).
-/

namespace BlockScribe

namespace BlockTree

mutual

/-- A tree with the ids of its blocks left out. -/
def eraseIds : BlockTree → BlockTree
  | .node kind _ fields inputs statements next comment disabled extra =>
    .node kind none fields (eraseSlots inputs) (eraseSlots statements) (eraseNext next) comment
      disabled extra

/-- Trees in slots with their ids left out. -/
def eraseSlots : List (String × BlockTree) → List (String × BlockTree)
  | [] => []
  | (name, t) :: rest => (name, eraseIds t) :: eraseSlots rest

/-- The tree after a block with its ids left out. -/
def eraseNext : Option BlockTree → Option BlockTree
  | none => none
  | some t => some (eraseIds t)

end

end BlockTree

namespace Workspace

/-- The tree that the blocks of a workspace spell from position `p`, ids left out: the block
there, with the trees read back from where its value slots, statement slots and successor link,
following links at most `fuel` deep. -/
def treeAt (w : Workspace) : Nat → Nat → Option BlockTree
  | 0, _ => none
  | fuel + 1, p => do
    let b ← w.get? p
    let inputs ← b.values.entries.mapM fun e => (e.1, ·) <$> w.treeAt fuel e.2
    let statements ← b.statements.entries.mapM fun e => (e.1, ·) <$> w.treeAt fuel e.2
    let next ← b.next.mapM (w.treeAt fuel)
    pure (.node b.kind none b.fields.entries inputs statements next b.comment b.disabled b.extra)

/-- The trees a workspace spells from its roots, in order. -/
def forest (w : Workspace) : Option (List BlockTree) := w.roots.mapM (w.treeAt w.size)

/-- From position `p` on, the blocks of `w` are the blocks `xs`, each under its explicit id
where it has one. -/
def Spans (w : Workspace) (p : Nat) (xs : List DraftBlock) : Prop :=
  ∀ k x, xs[k]? = some x → ∃ b, w.get? (p + k) = some b ∧ b = { x.block with id := b.id } ∧
    ∀ id, x.explicitId = some id → b.id = id

variable {w : Workspace} {p : Nat} {xs ys : List DraftBlock}

theorem Spans.append_left (h : w.Spans p (xs ++ ys)) : w.Spans p xs := by
  intro k x hx
  have hk : k < xs.length := (List.getElem?_eq_some_iff.1 hx).1
  exact h k x (by rw [List.getElem?_append_left hk]; exact hx)

theorem Spans.append_right (h : w.Spans p (xs ++ ys)) : w.Spans (p + xs.length) ys := by
  intro k x hx
  obtain ⟨b, hb, hbx⟩ := h (xs.length + k) x
    (by rw [List.getElem?_append_right (by omega), Nat.add_sub_cancel_left]; exact hx)
  rw [← Nat.add_assoc] at hb
  exact ⟨b, hb, hbx⟩

theorem Spans.head {x : DraftBlock} (h : w.Spans p (x :: xs)) :
    ∃ b, w.get? p = some b ∧ b = { x.block with id := b.id } := by
  obtain ⟨b, hb, hbx, -⟩ := h 0 x rfl
  exact ⟨b, hb, hbx⟩

theorem Spans.tail {x : DraftBlock} (h : w.Spans p (x :: xs)) : w.Spans (p + 1) xs := by
  intro k y hy
  obtain ⟨b, hb, hby⟩ := h (k + 1) y hy
  rw [← Nat.add_comm 1 k, ← Nat.add_assoc] at hb
  exact ⟨b, hb, hby⟩

open BlockTree

mutual

/-- **A keyed tree laid out in a workspace reads back as itself, ids left out,** with as much
fuel as it has blocks. -/
theorem treeAt_flatten : ∀ (t : BlockTree) (p fuel : Nat), t.Keyed → t.size ≤ fuel →
    w.Spans p (t.flatten p) → w.treeAt fuel p = some t.eraseIds
  | .node kind id fields inputs statements next comment disabled extra, p, fuel, h, hfuel, hw => by
    obtain ⟨hfields, hin, hst, kin, kst, knext⟩ := h
    rw [BlockTree.size] at hfuel
    obtain ⟨f, rfl⟩ : ∃ f, fuel = f + 1 := ⟨fuel - 1, by omega⟩
    rw [flatten] at hw
    obtain ⟨b, hb, hbx⟩ := hw.head
    -- the block at `p` is the tree's own, linked to where its trees start
    have hkind : b.kind = kind := by rw [hbx]; rfl
    have hfields' : b.fields.entries = fields := by rw [hbx]; exact Slots.entries_ofList hfields
    have hvalues : b.values.entries = slotsAt (p + 1) inputs := by
      rw [hbx]; exact Slots.entries_ofList (by rw [names_slotsAt]; exact hin)
    have hstatements : b.statements.entries = slotsAt (p + 1 + slotsSize inputs) statements := by
      rw [hbx]; exact Slots.entries_ofList (by rw [names_slotsAt]; exact hst)
    have hnext : b.next = next.map fun _ => p + 1 + slotsSize inputs + slotsSize statements := by
      rw [hbx]; rfl
    -- and after it lie the trees of its inputs, its statements and its successor
    have hrest := hw.tail
    have hwin := hrest.append_left.append_left
    have hwst := hrest.append_left.append_right
    have hwnext := hrest.append_right
    rw [length_flattenSlots] at hwst
    rw [List.length_append, length_flattenSlots, length_flattenSlots, ← Nat.add_assoc] at hwnext
    rw [treeAt, hb, Option.bind_eq_bind, Option.bind_some, hvalues,
      treeAt_flattenSlots inputs (p + 1) f kin (by omega) hwin, hstatements,
      treeAt_flattenSlots statements _ f kst (by omega) hwst, hnext,
      treeAt_flattenNext next _ f knext (by omega) hwnext, hkind, hfields', eraseIds]
    simp only [Option.bind_eq_bind, Option.bind_some, Option.pure_def]
    rw [hbx]
    rfl

theorem treeAt_flattenSlots : ∀ (l : List (String × BlockTree)) (p fuel : Nat), SlotsKeyed l →
    slotsSize l ≤ fuel → w.Spans p (flattenSlots l p) →
    (slotsAt p l).mapM (fun e => (e.1, ·) <$> w.treeAt fuel e.2) = some (eraseSlots l)
  | [], _, _, _, _, _ => rfl
  | (name, t) :: rest, p, fuel, h, hfuel, hw => by
    rw [slotsSize] at hfuel
    rw [flattenSlots] at hw
    have hwrest := hw.append_right
    rw [length_flatten] at hwrest
    rw [slotsAt, List.mapM_cons, treeAt_flatten t p fuel h.1 (by omega) hw.append_left,
      treeAt_flattenSlots rest _ fuel h.2 (by omega) hwrest]
    rfl

theorem treeAt_flattenNext : ∀ (next : Option BlockTree) (p fuel : Nat), NextKeyed next →
    nextSize next ≤ fuel → w.Spans p (flattenNext next p) →
    (next.map fun _ => p).mapM (w.treeAt fuel) = some (eraseNext next)
  | none, _, _, _, _, _ => rfl
  | some t, p, fuel, h, hfuel, hw => by
    rw [Option.map_some, Option.mapM_some, treeAt_flatten t p fuel h hfuel hw]
    rfl

end

/-- Keyed trees laid out one after the other read back, each from where it starts. -/
theorem treeAt_flattenAll : ∀ (bs : List BlockTree) (p fuel : Nat), (∀ b ∈ bs, b.Keyed) →
    (flattenAll bs p).length ≤ fuel → w.Spans p (flattenAll bs p) →
    (startsAt bs p).mapM (w.treeAt fuel) = some (bs.map eraseIds)
  | [], _, _, _, _, _ => rfl
  | b :: bs, p, fuel, h, hfuel, hw => by
    rw [flattenAll, List.length_append, length_flatten] at hfuel
    rw [flattenAll] at hw
    have hwrest := hw.append_right
    rw [length_flatten] at hwrest
    rw [startsAt, List.mapM_cons,
      treeAt_flatten b p fuel (h b List.mem_cons_self) (by omega) hw.append_left,
      treeAt_flattenAll bs _ fuel (fun b' hb' => h b' (List.mem_cons_of_mem b hb')) (by omega)
        hwrest]
    rfl

end Workspace

namespace Draft

theorem assignIds_go_explicit :
    ∀ (i : Nat) (bs : List DraftBlock) (taken : List String) (k : Nat) (x : DraftBlock)
      (id : String), bs[k]? = some x → x.explicitId = some id →
      (assignIds.go i bs taken)[k]? = some id
  | _, [], _, _, _, _, h, _ => by cases h
  | i, b :: rest, taken, 0, x, id, h, hx => by
    obtain rfl := Option.some.inj h
    unfold assignIds.go
    rw [hx]
    rfl
  | i, b :: rest, taken, k + 1, x, id, h, hx => by
    unfold assignIds.go
    split <;> exact assignIds_go_explicit _ rest _ k x id h hx

/-- **A built workspace holds the blocks of its draft,** each under its explicit id where it has
one. -/
theorem spans_build {d : Draft} {w : Workspace} (h : d.build = .ok w) : w.Spans 0 d.blocks.toList := by
  intro k x hx
  unfold build at h
  split at h
  · cases h
  · dsimp only at h
    split at h
    · cases h
    · cases h
      have hlen : (assignIds d.blocks.toList).length = d.blocks.toList.length :=
        assignIds_go_length 0 _ _
      have hk : k < d.blocks.toList.length := (List.getElem?_eq_some_iff.1 hx).1
      obtain ⟨id, hid⟩ : ∃ id, (assignIds d.blocks.toList)[k]? = some id :=
        ⟨_, List.getElem?_eq_getElem (by omega)⟩
      have hz : (d.blocks.toList.zip (assignIds d.blocks.toList))[k]? = some (x, id) :=
        List.getElem?_zip_eq_some.2 ⟨hx, hid⟩
      refine ⟨{ x.block with id := id }, ?_, rfl, fun e he => ?_⟩
      · rw [Workspace.get?, Nat.zero_add, List.getElem?_toArray, List.getElem?_map, hz]
        rfl
      · -- the id given at `k` is the explicit one
        exact Option.some.inj (hid.symm.trans (assignIds_go_explicit 0 _ _ k x e hx he))

/-- A built workspace has as many blocks as its draft. -/
theorem size_build {d : Draft} {w : Workspace} (h : d.build = .ok w) : w.size = d.blocks.size := by
  have hlen := congrArg List.length (build_ok h).2.1
  rw [List.length_map, List.length_map, Array.length_toList, Array.length_toList] at hlen
  exact hlen

end Draft

/-- What a text that loads was read as: a JSON value, decoded into a nested workspace whose draft
builds into the workspace. -/
theorem Workspace.ofJson_eq_ok {text : String} {w : Workspace} (h : Workspace.ofJson text = .ok w) :
    ∃ v t, readJson text = some v ∧ WorkspaceTree.decode (text.length + 1) v = some t ∧
      t.toDraft.build = .ok w := by
  unfold Workspace.ofJson at h
  split at h
  · cases h
  · rename_i v hv
    split at h
    · cases h
    · rename_i t ht
      exact ⟨v, t, hv, ht, h⟩

/-- How a workspace lays out a nested workspace: it holds the preorder flattening of the trees,
each block under its explicit id where it has one, and nothing else; its roots are where the trees
start, in order; every link points forward; every position is a root or linked, exactly once; and
reading it back from its roots gives the trees, ids left out. -/
structure Workspace.LaysOut (w : Workspace) (t : WorkspaceTree) : Prop where
  spans : w.Spans 0 t.arena
  size_eq : w.size = t.arena.length
  roots_eq : w.roots = t.rootPositions
  forward : ∀ p j, w.Link p j → p < j
  entries_perm : (w.roots ++ w.blocks.toList.flatMap Block.children).Perm (List.range w.size)
  forest_eq : w.forest = some (t.blocks.map BlockTree.eraseIds)

/-- **Loading flattens the nested form faithfully.**  A text that loads was decoded into a nested
workspace, which the workspace lays out: each block is followed by the trees of its inputs, then
of its statements, in slot order, then by the tree of its successor; a slot filled twice keeps
its first place and its last tree, the other tree being left out. -/
theorem Workspace.ofJson_preorder_flattening {text : String} {w : Workspace}
    (h : Workspace.ofJson text = .ok w) :
    ∃ t : WorkspaceTree,
      (∃ v, readJson text = some v ∧ WorkspaceTree.decode (text.length + 1) v = some t) ∧
      w.LaysOut t := by
  obtain ⟨v, t, hv, ht, hbuild⟩ := Workspace.ofJson_eq_ok h
  have hkeyed := WorkspaceTree.keyed_of_decode ht
  have hdraft := t.toDraft_eq
  have hspans : w.Spans 0 t.arena := by
    have hs := Draft.spans_build hbuild
    rwa [hdraft, List.toList_toArray] at hs
  have hsize : w.size = t.arena.length := by
    rw [Draft.size_build hbuild, hdraft, List.size_toArray]
  have hroots : w.roots = t.rootPositions := by
    rw [(Draft.build_ok hbuild).1, hdraft]
  -- the links of the workspace are those of the arena
  have hlinks : w.blocks.toList.flatMap Block.children = t.arena.flatMap (·.block.children) := by
    have hmap := (Draft.build_ok hbuild).2.1
    rw [hdraft, List.toList_toArray] at hmap
    rw [List.flatMap_def, List.flatMap_def, hmap]
  refine ⟨t, ⟨v, hv, ht⟩, hspans, hsize, hroots, ?_, ?_, ?_⟩
  · intro p j hl
    exact Draft.lt_of_build hbuild t.toDraft_tidy (Relation.TransGen.single hl)
  · rw [hroots, hlinks, hsize]
    exact WorkspaceTree.entries_perm hkeyed
  · rw [Workspace.forest, hroots]
    exact Workspace.treeAt_flattenAll t.blocks 0 w.size hkeyed (Nat.le_of_eq hsize.symm) hspans

deriving instance DecidableEq for Block
deriving instance DecidableEq for Workspace

theorem Except.eq_ok_of_toOption {ε α : Type} {e : Except ε α} {a : α} (h : e.toOption = some a) :
    e = .ok a := by
  cases e with
  | error _ => cases h
  | ok b => cases h; rfl

/-- A block whose input `X` is written twice and which has a successor loads as three blocks: the
second tree under `X` at position 1, the successor at 2, and the first tree under `X` nowhere. -/
theorem ofJson_preorder_flattening_repeated_input :
    Workspace.ofJson "\x7b\"blocks\":[\x7b\"type\":\"a\",\"inputs\":\x7b\"X\":\x7b\"type\":\"b\"\x7d,\"X\":\x7b\"type\":\"c\"\x7d\x7d,\"next\":\x7b\"type\":\"d\"\x7d\x7d]\x7d" =
      .ok { blocks := #[{ id := "b0", kind := "a", values := ⟨[("X", 1)]⟩, next := some 2 },
              { id := "b1", kind := "c" }, { id := "b2", kind := "d" }]
            roots := [0]
            declared := []
            oneBasedIndex := false } ∧
    ∃ t : WorkspaceTree,
      (∃ v, readJson "\x7b\"blocks\":[\x7b\"type\":\"a\",\"inputs\":\x7b\"X\":\x7b\"type\":\"b\"\x7d,\"X\":\x7b\"type\":\"c\"\x7d\x7d,\"next\":\x7b\"type\":\"d\"\x7d\x7d]\x7d" = some v ∧
        WorkspaceTree.decode ("\x7b\"blocks\":[\x7b\"type\":\"a\",\"inputs\":\x7b\"X\":\x7b\"type\":\"b\"\x7d,\"X\":\x7b\"type\":\"c\"\x7d\x7d,\"next\":\x7b\"type\":\"d\"\x7d\x7d]\x7d".length + 1) v = some t) ∧
      Workspace.LaysOut
        { blocks := #[{ id := "b0", kind := "a", values := ⟨[("X", 1)]⟩, next := some 2 },
            { id := "b1", kind := "c" }, { id := "b2", kind := "d" }]
          roots := [0]
          declared := []
          oneBasedIndex := false } t :=
  have hload := Except.eq_ok_of_toOption (by decide +kernel)
  ⟨hload, Workspace.ofJson_preorder_flattening hload⟩

end BlockScribe
