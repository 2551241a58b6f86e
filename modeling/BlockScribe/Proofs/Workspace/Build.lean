import BlockScribe.Proofs.Naming.Fresh
import BlockScribe.Proofs.Workspace.Links
/-!
# Building a workspace: ids, then links

`Draft.build` checks a draft in three steps.  First the explicit ids: when two are equal it
reports the first that repeats an earlier one (`FirstRepeat`).  Then it names the blocks
without an id, in order: the block at position `i` gets the first of `b<i>`, `b<i>_1`,
`b<i>_2`, … (`candidateId`) that no explicit id and no id given before holds (`Naming`).  A
name is always found among the first `taken.length + 1` candidates, since they all differ
(`candidateId_injective`), so the search `freshId` makes never runs out
(`freshId_firstFree`).  Last come the links, each block's in order and then the roots: the
first one past the arena is reported with the id of its block (`FirstDangling`).

A built workspace keeps everything of its draft but the ids, and its ids are all different
(`Naming.nodup`): an explicit id is held from the start, and a given one from when it is given.
All of it is `build_checks_ids_then_links`.
-/

namespace BlockScribe

namespace Draft

/-! ## The ids of the blocks -/

/-- The candidates for the id of the block at position `i`: `b<i>`, then `b<i>_<k>` for
`k = 1, 2, …`. -/
def candidateId (i k : Nat) : String :=
  if k = 0 then "b" ++ toString i else "b" ++ toString i ++ "_" ++ toString k

/-- `name` is the first candidate for position `i` that `taken` does not hold. -/
def FirstFree (taken : List String) (i : Nat) (name : String) : Prop :=
  ∃ k, name = candidateId i k ∧ candidateId i k ∉ taken ∧ ∀ j < k, candidateId i j ∈ taken

/-- How the blocks from position `i` on are named while the ids `taken` are held: a block
keeps its explicit id, and a block without one gets the first free candidate, held from then
on. -/
inductive Naming : Nat → List DraftBlock → List String → List String → Prop
  | nil {i : Nat} {taken : List String} : Naming i [] taken []
  | explicit {i : Nat} {taken ids : List String} {e : String} {b : Block}
      {rest : List DraftBlock} (tail : Naming (i + 1) rest taken ids) :
      Naming i (⟨some e, b⟩ :: rest) taken (e :: ids)
  | synthesized {i : Nat} {taken ids : List String} {name : String} {b : Block}
      {rest : List DraftBlock} (first : FirstFree taken i name)
      (tail : Naming (i + 1) rest (name :: taken) ids) :
      Naming i (⟨none, b⟩ :: rest) taken (name :: ids)

/-- The explicit ids of a draft, in the order of its blocks. -/
def explicitIds (d : Draft) : List String := d.blocks.toList.filterMap (·.explicitId)

/-- The ids a draft's blocks are given: named from the first position on, with all the
explicit ids held. -/
def IdsGiven (d : Draft) (ids : List String) : Prop :=
  Naming 0 d.blocks.toList d.explicitIds ids

/-- Different candidates are different names. -/
theorem candidateId_injective {i j k : Nat} (h : candidateId i j = candidateId i k) : j = k := by
  unfold candidateId at h
  have hlen := congrArg String.length h
  by_cases hj : j = 0 <;> by_cases hk : k = 0
  · omega
  · -- `b<i>` is shorter than every `b<i>_<k>`
    rw [if_pos hj, if_neg hk] at hlen
    simp only [String.length_append] at hlen
    have : ("_" : String).length = 1 := rfl
    omega
  · rw [if_neg hj, if_pos hk] at hlen
    simp only [String.length_append] at hlen
    have : ("_" : String).length = 1 := rfl
    omega
  · rw [if_neg hj, if_neg hk] at h
    exact nat_toString_injective ((String.append_right_inj _).1 h)

/-- One of the first `taken.length + 1` candidates is free: they are that many different
names. -/
theorem exists_free (taken : List String) (i : Nat) :
    ∃ k, k < taken.length + 1 ∧ candidateId i k ∉ taken := by
  by_contra hall
  have hheld : (List.range (taken.length + 1)).map (candidateId i) ⊆ taken := fun x hx => by
    obtain ⟨k, hk, rfl⟩ := List.mem_map.1 hx
    by_contra hfree
    exact hall ⟨k, List.mem_range.1 hk, hfree⟩
  have hnodup : ((List.range (taken.length + 1)).map (candidateId i)).Nodup :=
    List.nodup_range.map_on fun _ _ _ _ h => candidateId_injective h
  have hlen := hnodup.length_le_of_subset hheld
  rw [List.length_map, List.length_range] at hlen
  omega

theorem freshId_succ (taken : List String) (i fuel n : Nat) :
    freshId taken i (fuel + 1) n =
      if taken.contains (candidateId i n) then freshId taken i fuel (n + 1) else candidateId i n :=
  rfl

/-- The search from candidate `n` on, past candidates that are all held, finds the first free
one when a free one lies within its fuel. -/
theorem freshId_firstFree_of (taken : List String) (i : Nat) :
    ∀ fuel n, (∀ j < n, candidateId i j ∈ taken) →
      (∃ k, n ≤ k ∧ k < n + fuel ∧ candidateId i k ∉ taken) →
        FirstFree taken i (freshId taken i fuel n) := by
  intro fuel
  induction fuel with
  | zero =>
    intro n _ hfree
    obtain ⟨k, hnk, hkn, _⟩ := hfree
    omega
  | succ fuel ih =>
    intro n hheld hfree
    rw [freshId_succ]
    by_cases hn : candidateId i n ∈ taken
    · rw [if_pos (List.contains_iff_mem.2 hn)]
      refine ih (n + 1) (fun j hj => ?_) ?_
      · rcases Nat.lt_succ_iff_lt_or_eq.1 hj with hj | rfl
        · exact hheld j hj
        · exact hn
      · obtain ⟨k, hnk, hkn, hk⟩ := hfree
        have hne : k ≠ n := fun h => hk (h ▸ hn)
        exact ⟨k, by omega, by omega, hk⟩
    · rw [if_neg (mt List.contains_iff_mem.1 hn)]
      exact ⟨n, rfl, hn, hheld⟩

/-- **The id search never runs out**: with one try more than names are held, it gives the
first free candidate. -/
theorem freshId_firstFree (taken : List String) (i : Nat) :
    FirstFree taken i (freshId taken i (taken.length + 1) 0) := by
  obtain ⟨k, hk, hfree⟩ := exists_free taken i
  exact freshId_firstFree_of taken i _ 0 (fun _ h => absurd h (Nat.not_lt_zero _))
    ⟨k, Nat.zero_le k, by omega, hfree⟩

theorem assignIds_go_naming (bs : List DraftBlock) :
    ∀ (i : Nat) (taken : List String), Naming i bs taken (assignIds.go i bs taken) := by
  induction bs with
  | nil => exact fun _ _ => .nil
  | cons b rest ih =>
    intro i taken
    rcases b with ⟨_ | e, b⟩
    · rw [assignIds.go]
      exact .synthesized (freshId_firstFree taken i) (ih _ _)
    · rw [assignIds.go]
      exact .explicit (ih _ _)

/-- The ids `assignIds` gives are the ids given to the draft's blocks. -/
theorem idsGiven_assignIds (d : Draft) : d.IdsGiven (assignIds d.blocks.toList) :=
  assignIds_go_naming _ 0 _

namespace Naming

variable {i : Nat} {bs : List DraftBlock} {taken ids : List String}

theorem length_eq (h : Naming i bs taken ids) : ids.length = bs.length := by
  induction h with
  | nil => rfl
  | explicit _ ih => simp [ih]
  | synthesized _ _ ih => simp [ih]

/-- **Named blocks have different ids**, when their explicit ids differ and are held from the
start: every id given is one of them or was free when it was given. -/
theorem nodup (h : Naming i bs taken ids) (hnodup : (bs.filterMap (·.explicitId)).Nodup)
    (hheld : ∀ e ∈ bs.filterMap (·.explicitId), e ∈ taken) :
    ids.Nodup ∧ ∀ x ∈ ids, x ∈ bs.filterMap (·.explicitId) ∨ x ∉ taken := by
  induction h with
  | nil => exact ⟨List.nodup_nil, fun _ hx => by cases hx⟩
  | @explicit i taken ids e b rest _ ih =>
    have hcons : (⟨some e, b⟩ :: rest : List DraftBlock).filterMap (·.explicitId) =
        e :: rest.filterMap (·.explicitId) := rfl
    rw [hcons] at hnodup hheld ⊢
    simp only [List.nodup_cons, List.mem_cons] at hnodup hheld
    obtain ⟨hrest, hfresh⟩ := ih hnodup.2 fun e' he' => hheld e' (.inr he')
    refine ⟨List.nodup_cons.2 ⟨fun he => ?_, hrest⟩, fun x hx => ?_⟩
    · -- a repeat of `e` would be a later explicit id or free, and `e` is neither
      rcases hfresh e he with he | he
      · exact hnodup.1 he
      · exact he (hheld e (.inl rfl))
    · rw [List.mem_cons]
      rcases List.mem_cons.1 hx with rfl | hx
      · exact .inl (.inl rfl)
      · rcases hfresh x hx with h | h
        · exact .inl (.inr h)
        · exact .inr h
  | @synthesized i taken ids name b rest first _ ih =>
    have hcons : (⟨none, b⟩ :: rest : List DraftBlock).filterMap (·.explicitId) =
        rest.filterMap (·.explicitId) := rfl
    rw [hcons] at hnodup hheld ⊢
    obtain ⟨k, rfl, hfree, _⟩ := first
    obtain ⟨hrest, hfresh⟩ := ih hnodup fun e he => List.mem_cons_of_mem _ (hheld e he)
    refine ⟨List.nodup_cons.2 ⟨fun hmem => ?_, hrest⟩, fun x hx => ?_⟩
    · -- a later id is an explicit one, held from the start, or free of the given one
      rcases hfresh _ hmem with h | h
      · exact hfree (hheld _ h)
      · exact h List.mem_cons_self
    · rcases List.mem_cons.1 hx with rfl | hx
      · exact .inr hfree
      · rcases hfresh x hx with h | h
        · exact .inl h
        · exact .inr fun hx' => h (List.mem_cons_of_mem _ hx')

end Naming

/-! ## Explicit ids -/

/-- `e` is the first explicit id that repeats an earlier one. -/
def FirstRepeat (ids : List String) (e : String) : Prop :=
  ∃ pre post, ids = pre ++ e :: post ∧ pre.Nodup ∧ e ∈ pre

/-- What `repeatedId` reports, after the ids `seen`: the first id that repeats one seen or
earlier; and nothing when all differ. -/
theorem repeatedId_go_spec (l : List (Option String)) :
    ∀ seen : List String, seen.Nodup →
      (∀ e, repeatedId.go l seen = some e →
        FirstRepeat (seen.reverse ++ l.filterMap (fun o => o)) e) ∧
      (repeatedId.go l seen = none → (seen.reverse ++ l.filterMap (fun o => o)).Nodup) := by
  induction l with
  | nil =>
    intro seen hseen
    rw [repeatedId.go]
    exact ⟨fun e h => (by cases h), fun _ => by simpa using hseen⟩
  | cons o rest ih =>
    intro seen hseen
    rcases o with _ | x
    · have hskip : (none :: rest).filterMap (fun o : Option String => o) =
          rest.filterMap (fun o => o) := rfl
      rw [repeatedId.go, hskip]
      exact ih seen hseen
    · have hkeep : (some x :: rest).filterMap (fun o : Option String => o) =
          x :: rest.filterMap (fun o => o) := rfl
      rw [repeatedId.go, hkeep]
      by_cases hx : x ∈ seen
      · rw [if_pos (List.contains_iff_mem.2 hx)]
        refine ⟨fun e h => ?_, fun h => by cases h⟩
        cases h
        exact ⟨seen.reverse, _, rfl, List.nodup_reverse.2 hseen, List.mem_reverse.2 hx⟩
      · rw [if_neg (mt List.contains_iff_mem.1 hx)]
        have hreorder : (x :: seen).reverse ++ rest.filterMap (fun o => o) =
            seen.reverse ++ x :: rest.filterMap (fun o => o) := by simp
        rw [← hreorder]
        exact ih (x :: seen) (List.nodup_cons.2 ⟨hx, hseen⟩)

theorem firstRepeat_not_nodup {ids : List String} {e : String} (h : FirstRepeat ids e) :
    ¬ ids.Nodup := by
  obtain ⟨pre, post, rfl, _, he⟩ := h
  intro hnodup
  exact (List.nodup_append.1 hnodup).2.2 e he e List.mem_cons_self rfl

theorem repeatedId_explicit (d : Draft) :
    repeatedId (d.blocks.toList.map (·.explicitId)) = none ↔ d.explicitIds.Nodup := by
  have hids : (d.blocks.toList.map (·.explicitId)).filterMap (fun o => o) = d.explicitIds := by
    rw [List.filterMap_map]
    rfl
  have hspec := repeatedId_go_spec (d.blocks.toList.map (·.explicitId)) [] List.nodup_nil
  simp only [List.reverse_nil, List.nil_append, hids] at hspec
  constructor
  · exact hspec.2
  · intro hnodup
    cases hr : repeatedId (d.blocks.toList.map (·.explicitId)) with
    | none => rfl
    | some e => exact absurd hnodup (firstRepeat_not_nodup (hspec.1 e hr))

/-! ## Links -/

/-- Every link of the draft's blocks, and every root, is within the arena. -/
def LinksInside (d : Draft) : Prop :=
  (∀ b ∈ d.blocks.toList, ∀ j ∈ b.block.children, j < d.blocks.size) ∧
    ∀ r ∈ d.roots, r < d.blocks.size

/-- The first link past `n`, its owner's id and its target: among the links of the blocks, in
order, each block's in the order of `Block.children`, and then among the roots, owned by
`<top>`. -/
def FirstDangling (n : Nat) (blocks : List Block) (roots : List Nat) (owner : String)
    (target : Nat) : Prop :=
  (∃ pre b post cs ds, blocks = pre ++ b :: post ∧ (∀ b' ∈ pre, ∀ j ∈ b'.children, j < n) ∧
      b.children = cs ++ target :: ds ∧ (∀ j ∈ cs, j < n) ∧ n ≤ target ∧ owner = b.id) ∨
    ((∀ b ∈ blocks, ∀ j ∈ b.children, j < n) ∧
      ∃ rs ts, roots = rs ++ target :: ts ∧ (∀ r ∈ rs, r < n) ∧ n ≤ target ∧ owner = "<top>")

/-- What `danglingLink` reports is the first link past the arena. -/
theorem danglingLink_eq_some {n : Nat} {blocks : List Block} {roots : List Nat} {owner : String}
    {target : Nat} (h : danglingLink n blocks roots = some (owner, target)) :
    FirstDangling n blocks roots owner target := by
  unfold danglingLink at h
  split at h
  · -- a block has a link past the arena: the first such block, and its first such link
    rename_i found hfound
    cases h
    obtain ⟨pre, b, post, rfl, hb, hpre⟩ := List.findSome?_eq_some_iff.1 hfound
    obtain ⟨t, ht, hpair⟩ := Option.map_eq_some_iff.1 hb
    cases hpair
    obtain ⟨hlarge, cs, ds, hcs, hsmall⟩ := List.find?_eq_some_iff_append.1 ht
    refine .inl ⟨pre, b, post, cs, ds, rfl, fun b' hb' j hj => ?_, hcs, fun j hj => ?_,
      by simpa using hlarge, rfl⟩
    · have := List.find?_eq_none.1 (Option.map_eq_none_iff.1 (hpre b' hb')) j hj
      simpa using this
    · simpa using hsmall j hj
  · -- no block has: the first root past the arena
    rename_i hnone
    obtain ⟨t, ht, hpair⟩ := Option.map_eq_some_iff.1 h
    cases hpair
    obtain ⟨hlarge, rs, ts, hrs, hsmall⟩ := List.find?_eq_some_iff_append.1 ht
    refine .inr ⟨(@danglingLink_eq_none _ _ [] ?_).1, rs, ts, hrs,
      fun r hr => by simpa using hsmall r hr, by simpa using hlarge, rfl⟩
    unfold danglingLink
    rw [hnone]
    rfl

/-- Nothing is reported when every link and every root is within the arena. -/
theorem danglingLink_eq_none_of {n : Nat} {blocks : List Block} {roots : List Nat}
    (hblocks : ∀ b ∈ blocks, ∀ j ∈ b.children, j < n) (hroots : ∀ r ∈ roots, r < n) :
    danglingLink n blocks roots = none := by
  have hfind : blocks.findSome? (fun b => (b.children.find? (· ≥ n)).map fun t => (b.id, t)) =
      none := by
    refine List.findSome?_eq_none_iff.2 fun b hb => Option.map_eq_none_iff.2 ?_
    exact List.find?_eq_none.2 fun j hj => by simpa using hblocks b hb j hj
  unfold danglingLink
  rw [hfind]
  exact Option.map_eq_none_iff.2 (List.find?_eq_none.2 fun r hr => by simpa using hroots r hr)

/-! ## The built workspace -/

/-- The blocks of a draft under the ids given to them. -/
def withIds (d : Draft) (ids : List String) : List Block :=
  (d.blocks.toList.zip ids).map fun p => { p.1.block with id := p.2 }

theorem withIds_children (d : Draft) {ids : List String} (h : ids.length = d.blocks.size) :
    (d.withIds ids).map Block.children = d.blocks.toList.map (·.block.children) := by
  unfold withIds
  rw [List.map_map]
  have hfst := List.map_fst_zip (show d.blocks.toList.length ≤ ids.length by simp [h])
  conv_rhs => rw [← hfst, List.map_map]
  rfl

theorem withIds_ids (d : Draft) {ids : List String} (h : ids.length = d.blocks.size) :
    (d.withIds ids).map Block.id = ids := by
  unfold withIds
  rw [List.map_map]
  exact List.map_snd_zip (by simp [h])

theorem length_withIds (d : Draft) {ids : List String} (h : ids.length = d.blocks.size) :
    (d.withIds ids).length = d.blocks.size := by
  simp [withIds, h]

/-- The links of the named blocks are those of the draft. -/
theorem withIds_linksInside (d : Draft) {ids : List String} (h : ids.length = d.blocks.size) :
    (∀ b ∈ d.withIds ids, ∀ j ∈ b.children, j < d.blocks.size) ↔
      ∀ b ∈ d.blocks.toList, ∀ j ∈ b.block.children, j < d.blocks.size := by
  have hchildren := withIds_children d h
  constructor
  · intro hw b hb j hj
    have hc : b.block.children ∈ (d.withIds ids).map Block.children :=
      hchildren ▸ List.mem_map_of_mem hb
    obtain ⟨b', hb', hbb'⟩ := List.mem_map.1 hc
    exact hw b' hb' j (hbb' ▸ hj)
  · intro hd b hb j hj
    have hc : b.children ∈ d.blocks.toList.map (·.block.children) :=
      hchildren ▸ List.mem_map_of_mem hb
    obtain ⟨b', hb', hbb'⟩ := List.mem_map.1 hc
    exact hd b' hb' j (hbb' ▸ hj)

/-- The blocks the build names are the draft's blocks under the ids given (whatever the
shape of the function that renames them). -/
theorem map_zip_eq_withIds {g : DraftBlock × String → Block}
    (hg : ∀ b name, g (b, name) = { b.block with id := name }) (d : Draft) (ids : List String) :
    (d.blocks.toList.zip ids).map g = d.withIds ids := by
  unfold withIds
  refine List.map_congr_left fun p _ => ?_
  rcases p with ⟨b, name⟩
  exact hg b name

theorem build_of_repeat {d : Draft} {e : String}
    (h : repeatedId (d.blocks.toList.map (·.explicitId)) = some e) :
    d.build = .error (.duplicateId e) := by
  unfold build
  rw [h]

/-- Once the explicit ids differ, a link past the arena is reported. -/
theorem build_of_dangling {d : Draft} (h : d.explicitIds.Nodup) {owner : String} {target : Nat}
    (hd : danglingLink d.blocks.size (d.withIds (assignIds d.blocks.toList)) d.roots =
      some (owner, target)) :
    d.build = .error (.danglingReference owner target) := by
  have hlen : (assignIds d.blocks.toList).length = d.blocks.size := by
    simpa using (idsGiven_assignIds d).length_eq
  unfold build
  rw [(repeatedId_explicit d).2 h]
  dsimp only
  rw [map_zip_eq_withIds, length_withIds d hlen, hd]
  intro b name
  rfl

/-- Once the explicit ids differ and no link is past the arena, the blocks are built under the
ids given. -/
theorem build_of_inside {d : Draft} (h : d.explicitIds.Nodup)
    (hd : danglingLink d.blocks.size (d.withIds (assignIds d.blocks.toList)) d.roots = none) :
    d.build = .ok ⟨(d.withIds (assignIds d.blocks.toList)).toArray, d.roots, d.declared,
      d.oneBasedIndex⟩ := by
  have hlen : (assignIds d.blocks.toList).length = d.blocks.size := by
    simpa using (idsGiven_assignIds d).length_eq
  unfold build
  rw [(repeatedId_explicit d).2 h]
  dsimp only
  rw [map_zip_eq_withIds, length_withIds d hlen, hd]
  intro b name
  rfl

/-- A build that succeeds had explicit ids that all differ. -/
theorem nodup_of_build_ok {d : Draft} {w : Workspace} (h : d.build = .ok w) :
    d.explicitIds.Nodup := by
  cases hr : repeatedId (d.blocks.toList.map (·.explicitId)) with
  | none => exact (repeatedId_explicit d).1 hr
  | some e => rw [build_of_repeat hr] at h; cases h

/-- A build that succeeds found no link past the arena. -/
theorem danglingLink_of_build_ok {d : Draft} {w : Workspace} (h : d.build = .ok w) :
    danglingLink d.blocks.size (d.withIds (assignIds d.blocks.toList)) d.roots = none := by
  cases hd : danglingLink d.blocks.size (d.withIds (assignIds d.blocks.toList)) d.roots with
  | none => rfl
  | some p =>
    rcases p with ⟨owner, target⟩
    rw [build_of_dangling (nodup_of_build_ok h) hd] at h
    cases h

/-- **Building checks the ids, then the links.**  For every draft: the build succeeds exactly
when the explicit ids are all different and every link and root is within the arena.
Otherwise it reports the first explicit id that repeats an earlier one, or, when there is
none, the first link past the arena, in the order of the blocks and of their links, then of
the roots, with the id given to its block.  A built workspace has the draft's blocks with only
their ids changed: an explicit id is kept, and a block without one at position `i` gets `b<i>`,
or `b<i>_<k>` for the least `k ≥ 1`, that no explicit id and no id given before holds; its ids
are all different; and its roots, variables and index convention are the draft's. -/
theorem build_checks_ids_then_links (d : Draft) :
    ((∃ w, d.build = .ok w) ↔ d.explicitIds.Nodup ∧ d.LinksInside) ∧
      (¬ d.explicitIds.Nodup → ∃ e, FirstRepeat d.explicitIds e ∧ d.build = .error (.duplicateId e)) ∧
      (d.explicitIds.Nodup → ¬ d.LinksInside → ∃ ids owner target, d.IdsGiven ids ∧
        FirstDangling d.blocks.size (d.withIds ids) d.roots owner target ∧
        d.build = .error (.danglingReference owner target)) ∧
      (∀ w, d.build = .ok w → ∃ ids, d.IdsGiven ids ∧ w.blocks.toList = d.withIds ids ∧
        (w.blocks.toList.map Block.id).Nodup ∧ w.roots = d.roots ∧ w.declared = d.declared ∧
        w.oneBasedIndex = d.oneBasedIndex) := by
  have hgiven := idsGiven_assignIds d
  have hlen : (assignIds d.blocks.toList).length = d.blocks.size := by simpa using hgiven.length_eq
  have hlinks := withIds_linksInside d hlen
  refine ⟨⟨?_, ?_⟩, fun hrep => ?_, fun hnd hout => ?_, fun w hw => ?_⟩
  · rintro ⟨w, hw⟩
    obtain ⟨hblocks, hroots⟩ := danglingLink_eq_none (danglingLink_of_build_ok hw)
    exact ⟨nodup_of_build_ok hw, hlinks.1 hblocks, hroots⟩
  · rintro ⟨hnd, hblocks, hroots⟩
    exact ⟨_, build_of_inside hnd (danglingLink_eq_none_of (hlinks.2 hblocks) hroots)⟩
  · -- a repeat is reported, and it is the first one
    cases hr : repeatedId (d.blocks.toList.map (·.explicitId)) with
    | none => exact absurd ((repeatedId_explicit d).1 hr) hrep
    | some e =>
      have hspec := (repeatedId_go_spec _ [] List.nodup_nil).1 e hr
      rw [List.reverse_nil, List.nil_append, List.filterMap_map] at hspec
      exact ⟨e, hspec, build_of_repeat hr⟩
  · cases hd : danglingLink d.blocks.size (d.withIds (assignIds d.blocks.toList)) d.roots with
    | none =>
      obtain ⟨hblocks, hroots⟩ := danglingLink_eq_none hd
      exact absurd ⟨hlinks.1 hblocks, hroots⟩ hout
    | some p =>
      exact ⟨_, p.1, p.2, hgiven, danglingLink_eq_some hd, build_of_dangling hnd hd⟩
  · have hnd := nodup_of_build_ok hw
    rw [build_of_inside hnd (danglingLink_of_build_ok hw)] at hw
    cases hw
    -- the ids given differ because the explicit ones do
    refine ⟨_, hgiven, List.toList_toArray, ?_, rfl, rfl, rfl⟩
    rw [List.toList_toArray, withIds_ids d hlen]
    exact (hgiven.nodup hnd fun _ he => he).1

end Draft

end BlockScribe
