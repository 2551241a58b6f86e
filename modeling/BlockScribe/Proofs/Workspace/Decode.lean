import BlockScribe.Proofs.Workspace.Flattening
/-!
# The decoder gives keyed trees

A block read from JSON merges the members of its `fields`, `inputs` and `statements` objects
(`JsonDecode.merge`): a repeated name keeps its first position and takes its last value.  So
each of those lists names every member once, and every tree it holds was read from one of the
members.  By induction on the fuel of `JsonDecode.block?`, every tree the decoder gives is keyed
(`JsonDecode.keyed_of_block?`), and so is every nested workspace (`WorkspaceTree.keyed_of_decode`).

The slot objects and the successor of a block are read by code written inline in `block?`;
`JsonDecode.slots?` and `JsonDecode.next?` name it, and `JsonDecode.block?_succ` is `block?`
with those names.
-/

namespace BlockScribe

/-- Every result of a traversal that succeeds comes from one of its inputs. -/
theorem List.exists_mem_of_mapM_eq_some {α β : Type} {f : α → Option β} :
    ∀ {l : List α} {r : List β}, l.mapM f = some r → ∀ b ∈ r, ∃ a ∈ l, f a = some b
  | [], r, h, b, hb => by
    rw [List.mapM_nil, Option.pure_def, Option.some.injEq] at h
    subst h
    cases hb
  | a :: l, r, h, b, hb => by
    rw [List.mapM_cons] at h
    simp only [Option.bind_eq_bind, Option.bind_eq_some_iff, Option.pure_def,
      Option.some.injEq] at h
    obtain ⟨c, hc, cs, hcs, rfl⟩ := h
    rcases List.mem_cons.1 hb with rfl | hb
    · exact ⟨a, List.mem_cons_self, hc⟩
    · obtain ⟨a', ha', hfa'⟩ := exists_mem_of_mapM_eq_some hcs b hb
      exact ⟨a', List.mem_cons_of_mem a ha', hfa'⟩

namespace Slots

variable {α : Type}

/-- Filling a slot names each slot once if they were named once before. -/
theorem names_insert_nodup {s : Slots α} (h : (s.entries.map (·.1)).Nodup) (name : String)
    (a : α) : ((s.insert name a).entries.map (·.1)).Nodup := by
  by_cases hm : name ∈ s.entries.map (·.1)
  · -- a filled slot keeps its place
    rw [insert, names_insertList_of_mem name a _ hm]
    exact h
  · rw [insert, insertList_of_not_mem _ hm, List.map_append, List.nodup_append_comm]
    exact List.nodup_cons.2 ⟨hm, h⟩

theorem names_insertAll_nodup : ∀ (l : List (String × α)) {s : Slots α},
    (s.entries.map (·.1)).Nodup → ((s.insertAll l).entries.map (·.1)).Nodup
  | [], _, h => h
  | (name, a) :: rest, _, h => names_insertAll_nodup rest (names_insert_nodup h name a)

theorem contents_insertAll_subset : ∀ (l : List (String × α)) (s : Slots α),
    (s.insertAll l).contents ⊆ s.contents ++ l.map (·.2)
  | [], s => by simp
  | (name, a) :: rest, s => by
    intro x hx
    rw [insertAll_cons] at hx
    rcases List.mem_append.1 (contents_insertAll_subset rest _ hx) with hx | hx
    · -- what filling the slot put in, or what was there
      rcases List.mem_cons.1 (insert_contents_subset s hx) with rfl | hx
      · simp
      · exact List.mem_append_left _ hx
    · simp [hx]

end Slots

namespace JsonDecode

variable {α : Type}

/-- Merging names every member once. -/
theorem names_merge_nodup (pairs : List (String × α)) : ((merge pairs).map (·.1)).Nodup := by
  rw [merge, Slots.ofList_eq_insertAll]
  exact Slots.names_insertAll_nodup pairs List.nodup_nil

/-- Merging keeps only values that were given. -/
theorem merge_contents_subset (pairs : List (String × α)) :
    (merge pairs).map (·.2) ⊆ pairs.map (·.2) := by
  have h := Slots.contents_insertAll_subset pairs Slots.empty
  rw [← Slots.ofList_eq_insertAll] at h
  exact h

/-- The trees under an object of slots, each read by `read`. -/
def slots? (read : JsonValue → Option BlockTree) :
    Option JsonValue → Option (List (String × BlockTree))
  | none => some []
  | some (.object ms) => do
    if ms.any (fun m => !m.1.wellFormed) then none
    let pairs ← ms.mapM fun (k, c) => (read c).map fun t => (k.text, t)
    pure (merge pairs)
  | some _ => none

/-- The tree after a block, read by `read`; absent or `null` is none. -/
def next? (read : JsonValue → Option BlockTree) : Option JsonValue → Option (Option BlockTree)
  | none | some .null => some none
  | some n => (read n).map some

theorem block?_succ (fuel : Nat) (v : JsonValue) : block? (fuel + 1) v = (do
    let fs ← record ["type", "id", "fields", "inputs", "statements", "next", "comment",
      "disabled", "extraState"] v
    match fs with
    | [kind, id, fields, inputs, statements, next, comment, disabled, extra] =>
      let kind ← kind >>= text?
      let next ← next? (block? fuel) next
      pure (.node kind (← optionalText? id) (← fields? fields) (← slots? (block? fuel) inputs)
        (← slots? (block? fuel) statements) next (← optionalText? comment) (← flag? disabled)
        (← extra? extra))
    | _ => none) := by
  rw [block?]
  refine congrArg (Option.bind _) (funext fun fs => ?_)
  -- both sides match on the list of members read: split it by its length
  rcases fs with _ | ⟨_, _ | ⟨_, _ | ⟨_, _ | ⟨_, _ | ⟨_, _ | ⟨next, _ | ⟨_, _ | ⟨_, _ |
    ⟨_, _ | ⟨_, _⟩⟩⟩⟩⟩⟩⟩⟩⟩⟩
  -- a list of fewer than nine members reads as nothing on both sides
  iterate 9 rfl
  · -- nine members: the successor is bound through a join point, one copy per case of it
    rcases next with _ | _ | _ | _ | _ | _ | _ <;> rfl
  · -- and so does a longer list
    rfl

/-- What a block read with one more level of fuel is made of. -/
theorem block?_succ_eq_some {fuel : Nat} {v : JsonValue} {t : BlockTree}
    (h : block? (fuel + 1) v = some t) :
    ∃ kind id fields inputs statements next comment disabled extra,
      t = .node kind id fields inputs statements next comment disabled extra ∧
      (∃ fv, fields? fv = some fields) ∧ (∃ iv, slots? (block? fuel) iv = some inputs) ∧
      (∃ sv, slots? (block? fuel) sv = some statements) ∧
      ∃ nv, next? (block? fuel) nv = some next := by
  rw [block?_succ] at h
  simp only [Option.bind_eq_bind, Option.bind_eq_some_iff] at h
  obtain ⟨fs, -, h⟩ := h
  split at h
  · simp only [Option.bind_eq_some_iff, Option.pure_def, Option.some.injEq] at h
    obtain ⟨kind, -, next, hnext, id, -, fields, hfields, inputs, hinputs, statements,
      hstatements, comment, -, disabled, -, extra, -, rfl⟩ := h
    exact ⟨kind, id, fields, inputs, statements, next, comment, disabled, extra, rfl,
      ⟨_, hfields⟩, ⟨_, hinputs⟩, ⟨_, hstatements⟩, _, hnext⟩
  · cases h

theorem names_fields?_nodup {v : Option JsonValue} {fields : List (String × String)}
    (h : fields? v = some fields) : (fields.map (·.1)).Nodup := by
  unfold fields? at h
  split at h
  · obtain rfl := Option.some.inj h
    exact List.nodup_nil
  · simp only [Option.bind_eq_bind] at h
    split_ifs at h
    · cases h
    · obtain ⟨pairs, -, hpairs⟩ := Option.bind_eq_some_iff.1 h
      obtain rfl := Option.some.inj hpairs
      exact names_merge_nodup pairs
  · cases h

section

variable {read : JsonValue → Option BlockTree}

theorem BlockTree.slotsKeyed_iff :
    ∀ l : List (String × BlockTree), BlockTree.SlotsKeyed l ↔ ∀ e ∈ l, e.2.Keyed
  | [] => by simp [BlockTree.SlotsKeyed]
  | (name, t) :: rest => by
    rw [BlockTree.SlotsKeyed, BlockTree.slotsKeyed_iff rest, List.forall_mem_cons]

/-- Slots read from an object name each member once and hold trees that `read` gave. -/
theorem slots?_keyed (hread : ∀ v t, read v = some t → t.Keyed) {v : Option JsonValue}
    {l : List (String × BlockTree)} (h : slots? read v = some l) :
    (l.map (·.1)).Nodup ∧ BlockTree.SlotsKeyed l := by
  unfold slots? at h
  split at h
  · obtain rfl := Option.some.inj h
    exact ⟨List.nodup_nil, trivial⟩
  · simp only [Option.bind_eq_bind] at h
    split_ifs at h
    · cases h
    · obtain ⟨pairs, hpairs, hl⟩ := Option.bind_eq_some_iff.1 h
      obtain rfl := Option.some.inj hl
      refine ⟨names_merge_nodup pairs, (BlockTree.slotsKeyed_iff _).2 fun e he => ?_⟩
      -- a merged tree is the tree of some member, which `read` gave
      obtain ⟨t, ht, hte⟩ := List.mem_map.1 (merge_contents_subset pairs (List.mem_map_of_mem he))
      obtain ⟨⟨k, c⟩, -, hc⟩ := List.exists_mem_of_mapM_eq_some hpairs t ht
      obtain ⟨t', ht', rfl⟩ := Option.map_eq_some_iff.1 hc
      rw [← hte]
      exact hread c t' ht'
  · cases h

theorem next?_keyed (hread : ∀ v t, read v = some t → t.Keyed) {v : Option JsonValue}
    {next : Option BlockTree} (h : next? read v = some next) : BlockTree.NextKeyed next := by
  unfold next? at h
  split at h
  · obtain rfl := Option.some.inj h
    trivial
  · obtain rfl := Option.some.inj h
    trivial
  · obtain ⟨t, ht, rfl⟩ := Option.map_eq_some_iff.1 h
    exact hread _ t ht

end

/-- **Every tree the decoder reads is keyed**: its blocks name their fields, inputs and
statements once each. -/
theorem keyed_of_block? : ∀ (fuel : Nat) (v : JsonValue) (t : BlockTree), block? fuel v = some t →
    t.Keyed
  | 0, _, _, h => by cases h
  | fuel + 1, _, _, h => by
    obtain ⟨kind, id, fields, inputs, statements, next, comment, disabled, extra, rfl,
      ⟨_, hfields⟩, ⟨_, hinputs⟩, ⟨_, hstatements⟩, _, hnext⟩ := block?_succ_eq_some h
    have hread := keyed_of_block? fuel
    obtain ⟨hin, kin⟩ := slots?_keyed hread hinputs
    obtain ⟨hst, kst⟩ := slots?_keyed hread hstatements
    exact ⟨names_fields?_nodup hfields, hin, hst, kin, kst, next?_keyed hread hnext⟩

end JsonDecode

namespace WorkspaceTree

open JsonDecode

/-- The blocks of a decoded workspace are a list of trees read with the depth given. -/
theorem blocks_of_decode {depth : Nat} {v : JsonValue} {t : WorkspaceTree}
    (h : decode depth v = some t) : ∃ vb, list? (block? depth) vb = some t.blocks := by
  unfold decode at h
  simp only [Option.bind_eq_bind, Option.bind_eq_some_iff] at h
  obtain ⟨fs, -, h⟩ := h
  split at h
  · rename_i blocks
    -- however the options read, the blocks are read last
    have hlast : ∀ (o : Option Bool) (ds : Option (List String)),
        (o.bind fun o => ds.bind fun ds => (list? (block? depth) blocks).bind fun bs =>
          some (⟨o, ds, bs⟩ : WorkspaceTree)) = some t → list? (block? depth) blocks = some t.blocks := by
      intro o ds h
      simp only [Option.bind_eq_some_iff, Option.some.injEq] at h
      obtain ⟨_, -, _, -, bs, hbs, rfl⟩ := h
      exact hbs
    refine ⟨blocks, ?_⟩
    split at h
    · exact hlast _ _ h
    · simp only [Option.bind_eq_some_iff] at h
      obtain ⟨_, -, h⟩ := h
      split at h
      · exact hlast _ _ h
      · exact hlast _ _ h
  · cases h

/-- **Every nested workspace the decoder reads is keyed.** -/
theorem keyed_of_decode {depth : Nat} {v : JsonValue} {t : WorkspaceTree}
    (h : decode depth v = some t) : t.Keyed := by
  intro b hb
  obtain ⟨vb, hvb⟩ := blocks_of_decode h
  unfold list? at hvb
  split at hvb
  · rw [← Option.some.inj hvb] at hb
    cases hb
  · obtain ⟨v, -, hv⟩ := List.exists_mem_of_mapM_eq_some hvb b hb
    exact keyed_of_block? depth v b hv
  · cases hvb

end WorkspaceTree

end BlockScribe
