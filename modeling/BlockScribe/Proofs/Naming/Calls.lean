import BlockScribe.Proofs.Naming.Fresh
/-!
# Calls on a name table

A name table is used through three calls (`NameCall`): opening a scope inside one it has,
naming a key in a scope (`NameTable.nameFor`), and giving out a fresh name in a scope
(`NameTable.distinct`).  `NameTable.runCalls` makes calls one after another, each in a scope
the table has, and lists the names they give, each with the scope of its call.

A call never changes the parent of a scope there is, nor drops a name or a key
(`NameTable.Grows`).  The scopes above a scope form its path to the root, which runs through
the path of each scope on it (`NameTable.Shaped.ancestors_split`); so two scopes on one path
lie one above the other, and the scopes related to a scope, above or inside it, are fixed once
they exist.

Every table that calls reach from a new one is `NameTable.Sound`: its names are apart (no
reserved word taken, no name taken in two scopes one of which lies inside the other), and each
scope binds each of its keys once, to a name it has taken, and no two of its keys to one name.
Hence a fresh name differs from every name given before in a scope related to its own
(`calls_keep_names_apart`).  A key keeps the name that its first call in a scope gave it,
since a key is bound only where no scope on the path binds it yet; and two keys named in
related scopes never share a name (`keys_keep_their_names`).
-/

namespace BlockScribe

/-- The first value that a partial map gives on a list depends only on the map's values on
the list. -/
theorem List.findSome?_congr {α β : Type} {f g : α → Option β} :
    ∀ {l : List α}, (∀ x ∈ l, f x = g x) → l.findSome? f = l.findSome? g
  | [], _ => rfl
  | x :: l, h => by
    rw [List.findSome?_cons, List.findSome?_cons, h x List.mem_cons_self,
      findSome?_congr fun y hy => h y (List.mem_cons_of_mem x hy)]

/-- A call on a name table. -/
inductive NameCall where
  /-- Opening a scope inside another. -/
  | openScope (parent : Nat)
  /-- Naming a key of a kind in a scope. -/
  | nameFor (key : String) (kind : NameKind) (scope : Nat)
  /-- Giving out a fresh name, made from a base, in a scope. -/
  | distinct (base : String) (scope : Nat)

namespace NameCall

/-- The scope a call works in: the one it opens a scope inside, or the one it names in. -/
def scope : NameCall → Nat
  | openScope p => p
  | nameFor _ _ s => s
  | distinct _ s => s

/-- A call made on a table: the name it gives, if it gives one, and the table after it. -/
def run (t : NameTable) : NameCall → Option String × NameTable
  | openScope p => (none, (t.openScope p).2)
  | nameFor key kind s => (some (t.nameFor key kind s).1, (t.nameFor key kind s).2)
  | distinct base s => (some (t.distinct base s).1, (t.distinct base s).2)

end NameCall

namespace NameTable

/-- Calls made one after another from a table, each in a scope the table has when it is made:
the names they give, each with the scope of its call, and the table after them; none when a
call works in a scope the table lacks, where the calls cannot go on. -/
def runCalls (t : NameTable) : List NameCall → Option (List (Nat × String) × NameTable)
  | [] => some ([], t)
  | c :: cs =>
    if c.scope < t.scopes.size then
      ((c.run t).2.runCalls cs).map fun r => ((c.run t).1.toList.map (Prod.mk c.scope) ++ r.1, r.2)
    else none

variable {t t' t'' : NameTable} {s a b d p : Nat}

/-! ### The path to the root -/

/-- A scope without a parent is its own path to the root. -/
theorem ancestors_of_root (t : NameTable) (hp : (t.scope s).parent = none) :
    t.ancestors s = [s] := by
  unfold ancestors
  cases t.scopes.size with
  | zero => rfl
  | succ f => rw [chain, hp]

/-- A scope with a parent lies above its parent's path to the root. -/
theorem Shaped.ancestors_of_parent (h : t.Shaped) (hs : s < t.scopes.size)
    (hp : (t.scope s).parent = some p) : t.ancestors s = s :: t.ancestors p := by
  have hps := h.parent_lt s p hp
  obtain ⟨f, hf⟩ : ∃ f, t.scopes.size = f + 1 := ⟨t.scopes.size - 1, by omega⟩
  unfold ancestors
  rw [hf, chain, hp]
  -- the parent reaches the root in fewer steps than the table has scopes
  rw [h.chain_succ f p (by omega)]

/-- The path from a scope to the root: the scope alone, or the scope above the path of an
earlier one, its parent. -/
theorem Shaped.ancestors_cases (h : t.Shaped) (s : Nat) :
    t.ancestors s = [s] ∨ ∃ p, p < s ∧ t.ancestors s = s :: t.ancestors p := by
  rcases hp : (t.scope s).parent with _ | p
  · exact .inl (ancestors_of_root t hp)
  · have hs : s < t.scopes.size := by
      by_contra hge
      rw [scope_of_le (Nat.le_of_not_lt hge)] at hp
      cases hp
    exact .inr ⟨p, h.parent_lt s p hp, h.ancestors_of_parent hs hp⟩

theorem Shaped.le_of_mem_ancestors (h : t.Shaped) (s : Nat) : d ∈ t.ancestors s → d ≤ s := by
  induction s using Nat.strong_induction_on with
  | _ s ih =>
    intro hd
    rcases h.ancestors_cases s with hs | ⟨p, hps, hs⟩
    · rw [hs, List.mem_singleton] at hd
      omega
    · rw [hs, List.mem_cons] at hd
      rcases hd with rfl | hd
      · exact Nat.le_refl d
      · exact Nat.le_of_lt (Nat.lt_of_le_of_lt (ih p hps hd) hps)

/-- **The path from a scope to the root runs through the path of every scope on it**, after
scopes that come later than that one. -/
theorem Shaped.ancestors_split (h : t.Shaped) (s : Nat) :
    a ∈ t.ancestors s → ∃ P, t.ancestors s = P ++ t.ancestors a ∧ ∀ x ∈ P, a < x := by
  induction s using Nat.strong_induction_on with
  | _ s ih =>
    intro ha
    by_cases has : a = s
    · subst has
      exact ⟨[], (List.nil_append _).symm, fun x hx => absurd hx List.not_mem_nil⟩
    rcases h.ancestors_cases s with hs | ⟨p, hps, hs⟩
    · rw [hs, List.mem_singleton] at ha
      exact absurd ha has
    · rw [hs, List.mem_cons] at ha
      have hap : a ∈ t.ancestors p := ha.resolve_left has
      obtain ⟨P, hP, hlt⟩ := ih p hps hap
      have has' : a < s := Nat.lt_of_le_of_lt (h.le_of_mem_ancestors p hap) hps
      refine ⟨s :: P, by rw [hs, hP, List.cons_append], fun x hx => ?_⟩
      rcases List.mem_cons.1 hx with rfl | hx
      · exact has'
      · exact hlt x hx

theorem Shaped.ancestors_trans (h : t.Shaped) (hab : a ∈ t.ancestors b) (hbd : b ∈ t.ancestors d) :
    a ∈ t.ancestors d := by
  obtain ⟨P, hP, -⟩ := h.ancestors_split d hbd
  rw [hP]
  exact List.mem_append_right P hab

/-- Two scopes on one path to the root lie one above the other. -/
theorem Shaped.ancestors_total (h : t.Shaped) (ha : a ∈ t.ancestors d) (hb : b ∈ t.ancestors d) :
    a ∈ t.ancestors b ∨ b ∈ t.ancestors a := by
  obtain ⟨P, hP, -⟩ := h.ancestors_split d ha
  obtain ⟨Q, hQ, -⟩ := h.ancestors_split d hb
  rcases List.append_eq_append_iff.1 (hP.symm.trans hQ) with ⟨R, -, hR⟩ | ⟨R, -, hR⟩
  · right
    rw [hR]
    exact List.mem_append_right R (self_mem_ancestors t b)
  · left
    rw [hR]
    exact List.mem_append_right R (self_mem_ancestors t a)

/-- A scope above one related to `s` is related to `s`: above it, or inside it. -/
theorem Shaped.related_of_mem_ancestors (h : t.Shaped) (ha : a ∈ t.ancestors d)
    (hd : d ∈ t.ancestors s ∨ s ∈ t.ancestors d) : a ∈ t.ancestors s ∨ s ∈ t.ancestors a := by
  rcases hd with hd | hd
  · exact .inl (h.ancestors_trans ha hd)
  · exact h.ancestors_total ha hd

theorem lt_size_of_mem_taken {n : String} (hn : n ∈ (t.scope d).taken) : d < t.scopes.size := by
  by_contra hge
  rw [scope_of_le (Nat.le_of_not_lt hge)] at hn
  exact List.not_mem_nil hn

/-- A name taken in a scope above or inside `s` is taken for `s`. -/
theorem isTaken_of_related {n : String} (hn : n ∈ (t.scope a).taken)
    (ha : a ∈ t.ancestors s ∨ s ∈ t.ancestors a) : t.isTaken n s = true := by
  by_contra hfree
  have hfree := (isTaken_eq_false.1 (Bool.eq_false_iff.2 hfree)).2
  rcases ha with ha | ha
  · exact hfree a (.inl ha) hn
  · by_cases has : a = s
    · subst has
      exact hfree a (.inl (self_mem_ancestors t a)) hn
    · exact hfree a (.inr (mem_descendants.2 ⟨lt_size_of_mem_taken hn, has, ha⟩)) hn

/-! ### Tables that grow -/

/-- A table that keeps the reserved words, the scopes and their parents, and the names and keys
of each scope, of another, and may have more. -/
structure Grows (t t' : NameTable) : Prop where
  reserved : t'.reserved = t.reserved
  size_le : t.scopes.size ≤ t'.scopes.size
  parent : ∀ i < t.scopes.size, (t'.scope i).parent = (t.scope i).parent
  taken : ∀ i, (t.scope i).taken ⊆ (t'.scope i).taken
  keys : ∀ i, (t.scope i).keys ⊆ (t'.scope i).keys

theorem Grows.refl (t : NameTable) : t.Grows t :=
  ⟨rfl, Nat.le_refl _, fun _ _ => rfl, fun _ => List.Subset.refl _, fun _ => List.Subset.refl _⟩

theorem Grows.trans (h : t.Grows t') (h' : t'.Grows t'') : t.Grows t'' :=
  ⟨h'.reserved.trans h.reserved, Nat.le_trans h.size_le h'.size_le,
    fun i hi => (h'.parent i (Nat.lt_of_lt_of_le hi h.size_le)).trans (h.parent i hi),
    fun i => List.Subset.trans (h.taken i) (h'.taken i),
    fun i => List.Subset.trans (h.keys i) (h'.keys i)⟩

/-- A table whose scopes change in place: its scopes keep their parents. -/
theorem Grows.of_scopes (hreserved : t'.reserved = t.reserved)
    (hsize : t'.scopes.size = t.scopes.size)
    (hscope : ∀ i, (t'.scope i).parent = (t.scope i).parent ∧
      (t.scope i).taken ⊆ (t'.scope i).taken ∧ (t.scope i).keys ⊆ (t'.scope i).keys) :
    t.Grows t' :=
  ⟨hreserved, Nat.le_of_eq hsize.symm, fun i _ => (hscope i).1, fun i => (hscope i).2.1,
    fun i => (hscope i).2.2⟩

/-- Following parents for more steps than a scope's number changes nothing. -/
theorem Shaped.chain_add (h : t.Shaped) (hs : s ≤ f) : ∀ k, t.chain (f + k) s = t.chain f s
  | 0 => rfl
  | k + 1 => by
    rw [← Nat.add_assoc, h.chain_succ (f + k) s (by omega), h.chain_add hs k]

/-- **A scope keeps its path to the root** in a table that grows from the table it is in. -/
theorem Grows.ancestors (hg : t.Grows t') (ht : t.Shaped) (ht' : t'.Shaped)
    (hs : s < t.scopes.size) : t'.ancestors s = t.ancestors s := by
  obtain ⟨k, hk⟩ := Nat.exists_eq_add_of_le hg.size_le
  unfold NameTable.ancestors
  rw [hk, ht'.chain_add (Nat.le_of_lt hs) k]
  exact chain_congr ht _ s fun i hi => hg.parent i (by omega)

/-! ### Sound tables -/

/-- The name a scope binds a key to, by kind and spelling without case. -/
def binding (t : NameTable) (k : NameKind × String) (d : Nat) : Option String :=
  ((t.scope d).keys.find? (·.1 == k)).map (·.2)

theorem lookup_eq (t : NameTable) (key : String) (kind : NameKind) (s : Nat) :
    t.lookup key kind s = (t.ancestors s).findSome? (t.binding (kind, Text.lower key)) := rfl

theorem mem_keys_of_binding {k : NameKind × String} {n : String} (h : t.binding k d = some n) :
    (k, n) ∈ (t.scope d).keys := by
  obtain ⟨e, he, rfl⟩ := Option.map_eq_some_iff.1 h
  have hk : e.1 = k := by simpa using List.find?_some he
  rw [← hk]
  exact List.mem_of_find?_eq_some he

theorem binding_eq_none {k : NameKind × String} (h : t.binding k d = none) :
    ∀ e ∈ (t.scope d).keys, e.1 ≠ k := by
  intro e he hk
  have hnone := List.find?_eq_none.1 (Option.map_eq_none_iff.1 h) e he
  simp [hk] at hnone

/-- A key that a scope's path to the root binds is bound to its name in a scope on it. -/
theorem exists_of_lookup_eq_some {key : String} {kind : NameKind} {n : String}
    (h : t.lookup key kind s = some n) :
    ∃ a ∈ t.ancestors s, ((kind, Text.lower key), n) ∈ (t.scope a).keys := by
  obtain ⟨a, ha, hb⟩ := List.exists_of_findSome?_eq_some h
  exact ⟨a, ha, mem_keys_of_binding hb⟩

/-- Two tables give a key the same name for `s` when they have the same path to the root for it
and its scopes bind the key alike. -/
theorem lookup_congr {key : String} {kind : NameKind} (hanc : t'.ancestors s = t.ancestors s)
    (hbind : ∀ d ∈ t.ancestors s, t'.binding (kind, Text.lower key) d = t.binding (kind, Text.lower key) d) :
    t'.lookup key kind s = t.lookup key kind s := by
  rw [lookup_eq, lookup_eq, hanc]
  exact List.findSome?_congr hbind

/-- A table reached by calls: its names are apart, and each scope binds each of its keys once, to
a name it has taken, and no two of its keys to one name. -/
structure Sound (t : NameTable) : Prop extends t.Apart where
  keys_nodup : ∀ d, ((t.scope d).keys.map (·.1)).Nodup
  names_nodup : ∀ d, ((t.scope d).keys.map (·.2)).Nodup
  names_taken : ∀ d, ∀ e ∈ (t.scope d).keys, e.2 ∈ (t.scope d).taken

/-- A table with the keys of a sound one, its names apart, and more names, is sound. -/
theorem Sound.of_keys (h : t.Sound) (ht' : t'.Apart) (hkeys : ∀ d, (t'.scope d).keys = (t.scope d).keys)
    (htaken : ∀ d, (t.scope d).taken ⊆ (t'.scope d).taken) : t'.Sound := by
  refine ⟨ht', fun d => ?_, fun d => ?_, fun d e he => ?_⟩
  · rw [hkeys]
    exact h.keys_nodup d
  · rw [hkeys]
    exact h.names_nodup d
  · rw [hkeys] at he
    exact htaken d (h.names_taken d e he)

theorem Sound.create (extra : List String) : (NameTable.create extra).Sound := by
  have hscope : ∀ i, (NameTable.create extra).scope i = noScope := fun i => by
    cases i with
    | zero => rfl
    | succ i => exact scope_of_le (by simp [NameTable.create])
  refine ⟨create_apart extra, fun d => ?_, fun d => ?_, fun d e he => ?_⟩
  · rw [hscope]
    exact List.nodup_nil
  · rw [hscope]
    exact List.nodup_nil
  · rw [hscope] at he
    exact absurd he List.not_mem_nil

/-- Two keys bound in scopes one above the other, or in one scope, have different names. -/
theorem Sound.names_differ {e₁ e₂ : (NameKind × String) × String} (h : t.Sound)
    (he₁ : e₁ ∈ (t.scope a).keys) (he₂ : e₂ ∈ (t.scope b).keys) (hkey : e₁.1 ≠ e₂.1)
    (hab : a ∈ t.ancestors b ∨ b ∈ t.ancestors a) : e₁.2 ≠ e₂.2 := by
  intro hname
  by_cases hba : a = b
  · -- in one scope, different keys have different names
    subst hba
    exact hkey (congrArg Prod.fst (List.inj_on_of_nodup_map (h.names_nodup a) he₁ he₂ hname))
  · have hn₁ := h.names_taken a e₁ he₁
    have hn₂ := h.names_taken b e₂ he₂
    rw [hname] at hn₁
    rcases hab with hab | hab
    · exact h.apart a b hba hab _ hn₁ hn₂
    · exact h.apart b a (Ne.symm hba) hab _ hn₂ hn₁

/-! ### One call -/

theorem Sound.distinct (h : t.Sound) (hs : s < t.scopes.size) (base : String) :
    (t.distinct base s).2.Sound ∧ t.Grows (t.distinct base s).2 := by
  have hscope : ∀ i, (t.distinct base s).2.scope i = if i = s then
      { t.scope i with taken := (t.scope i).taken ++ [(t.distinct base s).1] } else t.scope i :=
    scope_take hs
  have hsame : ∀ i, ((t.distinct base s).2.scope i).parent = (t.scope i).parent ∧
      (t.scope i).taken ⊆ ((t.distinct base s).2.scope i).taken ∧
      ((t.distinct base s).2.scope i).keys = (t.scope i).keys := fun i => by
    rw [hscope]
    split
    · exact ⟨rfl, List.subset_append_left _ _, rfl⟩
    · exact ⟨rfl, List.Subset.refl _, rfl⟩
  refine ⟨h.of_keys (h.toApart.distinct hs base) (fun i => (hsame i).2.2) fun i => (hsame i).2.1,
    Grows.of_scopes rfl (size_distinct t base s) fun i => ⟨(hsame i).1, (hsame i).2.1, ?_⟩⟩
  rw [(hsame i).2.2]
  exact List.Subset.refl _

theorem Sound.openScope (h : t.Sound) (hp : p < t.scopes.size) :
    (t.openScope p).2.Sound ∧ t.Grows (t.openScope p).2 := by
  -- the new scope holds nothing, and the others stay as they are
  have hsame : ∀ i, ((t.openScope p).2.scope i).keys = (t.scope i).keys ∧
      ((t.openScope p).2.scope i).taken = (t.scope i).taken := fun i => by
    rw [scope_openScope]
    split
    · rename_i hi
      rw [hi, scope_of_le (Nat.le_refl _)]
      exact ⟨rfl, rfl⟩
    · exact ⟨rfl, rfl⟩
  refine ⟨h.of_keys (h.toApart.openScope hp) (fun i => (hsame i).1) fun i => ?_,
    rfl, by simp, fun i hi => ?_, fun i => ?_, fun i => ?_⟩
  · rw [(hsame i).2]
    exact List.Subset.refl _
  · rw [scope_openScope, if_neg (Nat.ne_of_lt hi)]
  · rw [(hsame i).2]
    exact List.Subset.refl _
  · rw [(hsame i).1]
    exact List.Subset.refl _

/-- Taking a name in a scope and binding a key to it. -/
theorem scope_take_addKey (hs : s < t.scopes.size) (k : NameKind × String) (n : String) (i : Nat) :
    ((t.take n s).addKey s (k, n)).scope i = if i = s then
      ⟨(t.scope i).parent, (t.scope i).keys ++ [(k, n)], (t.scope i).taken ++ [n]⟩
      else t.scope i := by
  rw [scope_addKey (by rw [size_take]; exact hs), scope_take hs]
  by_cases hi : i = s
  · simp only [if_pos hi]
  · simp only [if_neg hi]

/-- **Binding a key that a scope lacks to a free name keeps a table sound.** -/
theorem Sound.bind (h : t.Sound) (hs : s < t.scopes.size) {k : NameKind × String} {n : String}
    (hk : ∀ e ∈ (t.scope s).keys, e.1 ≠ k) (hn : t.isTaken n s = false) :
    ((t.take n s).addKey s (k, n)).Sound ∧ t.Grows ((t.take n s).addKey s (k, n)) := by
  have hscope := scope_take_addKey hs k n
  have hnew : n ∉ (t.scope s).taken :=
    (isTaken_eq_false.1 hn).2 s (.inl (self_mem_ancestors t s))
  refine ⟨⟨(h.toApart.take hs hn).addKey (by rw [size_take]; exact hs) (k, n), fun d => ?_,
    fun d => ?_, fun d e he => ?_⟩, Grows.of_scopes rfl (by simp) fun i => ?_⟩
  · rw [hscope]
    by_cases hd : d = s
    · rw [if_pos hd, hd, List.map_append, List.nodup_append]
      refine ⟨h.keys_nodup s, List.nodup_singleton _, fun x hx y hy hxy => ?_⟩
      obtain ⟨e, he, rfl⟩ := List.mem_map.1 hx
      have hyk : y = k := by simpa using hy
      rw [hyk] at hxy
      exact hk e he hxy
    · rw [if_neg hd]
      exact h.keys_nodup d
  · rw [hscope]
    by_cases hd : d = s
    · rw [if_pos hd, hd, List.map_append, List.nodup_append]
      refine ⟨h.names_nodup s, List.nodup_singleton _, fun x hx y hy hxy => ?_⟩
      obtain ⟨e, he, rfl⟩ := List.mem_map.1 hx
      have hyn : y = n := by simpa using hy
      rw [hyn] at hxy
      -- the names of the keys are taken, and the new name is not
      exact hnew (hxy ▸ h.names_taken s e he)
    · rw [if_neg hd]
      exact h.names_nodup d
  · rw [hscope] at he ⊢
    by_cases hd : d = s
    · rw [if_pos hd, hd] at he ⊢
      rcases List.mem_append.1 he with he | he
      · exact List.mem_append_left _ (h.names_taken s e he)
      · rw [List.mem_singleton.1 he]
        exact List.mem_append_right _ (List.mem_singleton_self n)
    · rw [if_neg hd] at he ⊢
      exact h.names_taken d e he
  · rw [hscope]
    by_cases hi : i = s
    · rw [if_pos hi]
      exact ⟨rfl, List.subset_append_left _ _, List.subset_append_left _ _⟩
    · rw [if_neg hi]
      exact ⟨rfl, List.Subset.refl _, List.Subset.refl _⟩

/-- Naming a key: the table as it was if the key has a name on the path to the root, or else the
key bound in the scope to a fresh name. -/
theorem Sound.nameFor (h : t.Sound) (hs : s < t.scopes.size) (key : String) (kind : NameKind) :
    (t.nameFor key kind s).2.Sound ∧ t.Grows (t.nameFor key kind s).2 := by
  rw [nameFor_eq]
  split
  · exact ⟨h, Grows.refl t⟩
  · rename_i hlookup
    rw [lookup_eq] at hlookup
    -- the key is bound nowhere on the path, in particular not in `s` itself
    exact h.bind hs (binding_eq_none ((List.findSome?_eq_none_iff.1 hlookup) s
      (self_mem_ancestors t s))) (isTaken_distinct t key s)

/-- **A call keeps a table sound**, and the table grows. -/
theorem Sound.run (h : t.Sound) {c : NameCall} (hc : c.scope < t.scopes.size) :
    (c.run t).2.Sound ∧ t.Grows (c.run t).2 := by
  cases c with
  | openScope p => exact h.openScope hc
  | nameFor key kind s => exact h.nameFor hc key kind
  | distinct base s => exact h.distinct hc base

/-- The name a call gives is bound, for a key, on the path of the call's scope. -/
theorem nameFor_bound (hs : s < t.scopes.size) (key : String) (kind : NameKind) :
    ∃ a ∈ t.ancestors s,
      ((kind, Text.lower key), (t.nameFor key kind s).1) ∈ ((t.nameFor key kind s).2.scope a).keys := by
  rw [nameFor_eq]
  split
  · rename_i n hlookup
    exact exists_of_lookup_eq_some hlookup
  · refine ⟨s, self_mem_ancestors t s, ?_⟩
    rw [NameTable.distinct, scope_take_addKey hs, if_pos rfl]
    exact List.mem_append_right _ (List.mem_singleton_self _)

/-! ### Names given -/

/-- A name given in a scope of the table is taken by a scope on that scope's path to the
root. -/
def Records (t : NameTable) (g : Nat × String) : Prop :=
  g.1 < t.scopes.size ∧ ∃ a ∈ t.ancestors g.1, g.2 ∈ (t.scope a).taken

theorem Records.grows {g : Nat × String} (h : t.Records g) (hg : t.Grows t') (ht : t.Shaped)
    (ht' : t'.Shaped) : t'.Records g := by
  obtain ⟨hlt, a, ha, hn⟩ := h
  refine ⟨Nat.lt_of_lt_of_le hlt hg.size_le, a, ?_, hg.taken a hn⟩
  rw [hg.ancestors ht ht' hlt]
  exact ha

/-- The table after a call records the name the call gives. -/
theorem Sound.records_run (h : t.Sound) {c : NameCall} (hc : c.scope < t.scopes.size)
    {n : String} (hn : (c.run t).1 = some n) : (c.run t).2.Records (c.scope, n) := by
  obtain ⟨hsound, hgrow⟩ := h.run hc
  refine ⟨Nat.lt_of_lt_of_le hc hgrow.size_le, ?_⟩
  show ∃ a ∈ (c.run t).2.ancestors c.scope, n ∈ ((c.run t).2.scope a).taken
  rw [hgrow.ancestors h.shaped hsound.shaped hc]
  cases c with
  | openScope p => cases hn
  | nameFor key kind s =>
    cases hn
    obtain ⟨a, ha, he⟩ := nameFor_bound hc key kind
    exact ⟨a, ha, hsound.names_taken a _ he⟩
  | distinct base s =>
    cases hn
    have hs : s < t.scopes.size := hc
    refine ⟨s, self_mem_ancestors t s, ?_⟩
    show (t.distinct base s).1 ∈ ((t.distinct base s).2.scope s).taken
    rw [scope_distinct hs]
    exact List.mem_append_right _ (List.mem_singleton_self _)

/-! ### Runs of calls -/

theorem runCalls_cons_eq_some {c : NameCall} {cs : List NameCall} {given : List (Nat × String)} :
    t.runCalls (c :: cs) = some (given, t') ↔ c.scope < t.scopes.size ∧
      ∃ rest, (c.run t).2.runCalls cs = some (rest, t') ∧
        given = (c.run t).1.toList.map (Prod.mk c.scope) ++ rest := by
  rw [runCalls]
  split
  · rename_i hc
    simp only [Option.map_eq_some_iff, Prod.mk.injEq, Prod.exists]
    constructor
    · rintro ⟨rest, t₁, hrun, rfl, rfl⟩
      exact ⟨hc, rest, hrun, rfl⟩
    · rintro ⟨-, rest, hrun, rfl⟩
      exact ⟨rest, t', hrun, rfl, rfl⟩
  · rename_i hc
    simp only [reduceCtorEq, false_iff, not_and]
    exact fun h => absurd h hc

/-- **Calls keep a table sound**: the table grows, and records every name the calls give. -/
theorem Sound.runCalls {cs : List NameCall} {given : List (Nat × String)} (h : t.Sound)
    (hrun : t.runCalls cs = some (given, t')) :
    t'.Sound ∧ t.Grows t' ∧ ∀ g ∈ given, t'.Records g := by
  induction cs generalizing t given with
  | nil =>
    rw [NameTable.runCalls, Option.some.injEq, Prod.mk.injEq] at hrun
    obtain ⟨rfl, rfl⟩ := hrun
    exact ⟨h, Grows.refl t, fun g hg => absurd hg List.not_mem_nil⟩
  | cons c cs ih =>
    obtain ⟨hc, rest, hrest, rfl⟩ := runCalls_cons_eq_some.1 hrun
    obtain ⟨hsound, hgrow⟩ := h.run hc
    obtain ⟨hsound', hgrow', hrecords⟩ := ih hsound hrest
    refine ⟨hsound', hgrow.trans hgrow', fun g hg => ?_⟩
    rcases List.mem_append.1 hg with hg | hg
    · -- the name of the first call, recorded in the table after it
      obtain ⟨n, hn, rfl⟩ := List.mem_map.1 hg
      exact (h.records_run hc (Option.mem_toList.1 hn)).grows hgrow' hsound.shaped
        hsound'.shaped
    · exact hrecords g hg

/-- **A fresh name differs from every name given before in a related scope** (above or inside
its own), and is no reserved word. -/
theorem calls_keep_names_apart {extra : List String} {calls : List NameCall}
    {given : List (Nat × String)} {t : NameTable}
    (h : (create extra).runCalls calls = some (given, t)) :
    t.Sound ∧ ∀ (base : String) (s : Nat), s < t.scopes.size →
      (t.distinct base s).1 ∉ reservedWords ++ extra ∧
        ∀ g ∈ given, g.1 ∈ t.ancestors s ∨ s ∈ t.ancestors g.1 → (t.distinct base s).1 ≠ g.2 := by
  obtain ⟨hsound, hgrow, hrecords⟩ := (Sound.create extra).runCalls h
  refine ⟨hsound, fun base s hs => ⟨?_, fun g hg hrel heq => ?_⟩⟩
  · have hfree := (isTaken_eq_false.1 (isTaken_distinct t base s)).1
    rwa [hgrow.reserved] at hfree
  · -- the earlier name is taken on the path of its own scope, which is related to `s`
    obtain ⟨-, a, ha, hn⟩ := hrecords g hg
    have htaken := isTaken_of_related hn
      (hsound.shaped.related_of_mem_ancestors ha hrel)
    rw [← heq, isTaken_distinct] at htaken
    cases htaken

/-- Two sibling scopes both give out `count`; the global scope, which holds them both, then
gives out another name. -/
theorem calls_keep_names_apart_around_siblings :
    (create []).runCalls [.openScope 0, .openScope 0, .distinct "count" 1, .distinct "count" 2] =
        some ([(1, "count"), (2, "count")], ⟨reservedWords ++ [],
          #[⟨none, [], []⟩, ⟨some 0, [], ["count"]⟩, ⟨some 0, [], ["count"]⟩]⟩) ∧
      (NameTable.distinct ⟨reservedWords ++ [],
          #[⟨none, [], []⟩, ⟨some 0, [], ["count"]⟩, ⟨some 0, [], ["count"]⟩]⟩ "count" 0).1 ≠
        "count" := by
  have h : (create []).runCalls [.openScope 0, .openScope 0, .distinct "count" 1, .distinct "count" 2] =
      some ([(1, "count"), (2, "count")], ⟨reservedWords ++ [],
        #[⟨none, [], []⟩, ⟨some 0, [], ["count"]⟩, ⟨some 0, [], ["count"]⟩]⟩) := rfl
  exact ⟨h, ((calls_keep_names_apart h).2 "count" 0 (by decide)).2 (1, "count")
    List.mem_cons_self (.inr (by decide))⟩

/-! ### Keys keep their names -/

theorem ancestors_eq_cons (t : NameTable) (s : Nat) : ∃ rest, t.ancestors s = s :: rest := by
  unfold NameTable.ancestors
  cases t.scopes.size with
  | zero => exact ⟨[], rfl⟩
  | succ f =>
    rw [chain]
    split
    · exact ⟨_, rfl⟩
    · exact ⟨[], rfl⟩

/-- The name of a key depends on its spelling only without case. -/
theorem lookup_lower {key key' : String} {kind : NameKind} (h : Text.lower key' = Text.lower key) :
    t.lookup key' kind s = t.lookup key kind s := by
  rw [lookup_eq, lookup_eq, h]

theorem nameFor_of_lookup {key : String} {kind : NameKind} {n : String}
    (h : t.lookup key kind s = some n) : t.nameFor key kind s = (n, t) := by
  rw [nameFor_eq, h]

/-- After a key is named in a scope, it has that name for the scope. -/
theorem lookup_nameFor_self (hs : s < t.scopes.size) (key : String) (kind : NameKind) :
    (t.nameFor key kind s).2.lookup key kind s = some (t.nameFor key kind s).1 := by
  rw [nameFor_eq]
  split
  · rename_i n hlookup
    exact hlookup
  · rename_i hlookup
    rw [lookup_eq] at hlookup ⊢
    have hfree : ((t.scope s).keys.find? (·.1 == (kind, Text.lower key))) = none :=
      Option.map_eq_none_iff.1 ((List.findSome?_eq_none_iff.1 hlookup) s (self_mem_ancestors t s))
    -- the new binding is found in the scope itself, first on its path
    obtain ⟨rest, hrest⟩ := ancestors_eq_cons
      ((t.distinct key s).2.addKey s ((kind, Text.lower key), (t.distinct key s).1)) s
    rw [hrest, List.findSome?_cons, binding, NameTable.distinct, scope_take_addKey hs, if_pos rfl]
    simp [hfree]

theorem scope_take_addKey_parent (hs : s < t.scopes.size) (k : NameKind × String) (n : String)
    (i : Nat) : (((t.take n s).addKey s (k, n)).scope i).parent = (t.scope i).parent := by
  rw [scope_take_addKey hs]
  split <;> rfl

theorem binding_bind_of_ne (hs : s < t.scopes.size) (k' : NameKind × String) (n' : String)
    {k : NameKind × String} (hd : d ≠ s) :
    ((t.take n' s).addKey s (k', n')).binding k d = t.binding k d := by
  unfold binding
  rw [scope_take_addKey hs, if_neg hd]

theorem binding_bind_of_key_ne (hs : s < t.scopes.size) {k k' : NameKind × String} (n' : String)
    (hk : k' ≠ k) (d : Nat) : ((t.take n' s).addKey s (k', n')).binding k d = t.binding k d := by
  unfold binding
  rw [scope_take_addKey hs]
  split
  · simp [hk]
  · rfl

/-- **Binding a key in a scope whose path does not bind it changes the name of no key for any
scope**: a scope below it that had a name for the key found it before reaching its path. -/
theorem Shaped.lookup_bind (h : t.Shaped) {s' : Nat} (hs' : s' < t.scopes.size)
    {k' : NameKind × String} {n' : String} (hfree : (t.ancestors s').findSome? (t.binding k') = none)
    {key : String} {kind : NameKind} {n : String} (hl : t.lookup key kind s = some n) :
    ((t.take n' s').addKey s' (k', n')).lookup key kind s = some n := by
  have hanc : ((t.take n' s').addKey s' (k', n')).ancestors s = t.ancestors s :=
    ancestors_congr h (by simp) (scope_take_addKey_parent hs' k' n') s
  by_cases hk : k' = (kind, Text.lower key)
  · subst hk
    by_cases hin : s' ∈ t.ancestors s
    · -- the path of `s` runs through that of `s'`, where the key had no name
      obtain ⟨P, hP, hlt⟩ := h.ancestors_split s hin
      rw [lookup_eq, hP, List.findSome?_append, hfree, Option.or_none] at hl
      rw [lookup_eq, hanc, hP, List.findSome?_append,
        List.findSome?_congr fun x hx => binding_bind_of_ne hs' _ n' (Nat.ne_of_gt (hlt x hx)), hl]
      rfl
    · rw [← hl]
      exact lookup_congr hanc fun d hd => binding_bind_of_ne hs' _ n' fun hds => hin (hds ▸ hd)
  · rw [← hl]
    exact lookup_congr hanc fun d _ => binding_bind_of_key_ne hs' n' hk d

/-- **A call never changes the name that a key has for a scope.** -/
theorem Sound.lookup_run (h : t.Sound) {c : NameCall} (hc : c.scope < t.scopes.size)
    (hs : s < t.scopes.size) {key : String} {kind : NameKind} {n : String}
    (hl : t.lookup key kind s = some n) : (c.run t).2.lookup key kind s = some n := by
  obtain ⟨hsound, hgrow⟩ := h.run hc
  have hanc := hgrow.ancestors h.shaped hsound.shaped hs
  cases c with
  | openScope p =>
    -- the scopes on the path are old ones and keep their keys
    rw [← hl]
    refine lookup_congr hanc fun d hd => ?_
    have hd' : d ≠ t.scopes.size :=
      Nat.ne_of_lt (Nat.lt_of_le_of_lt (h.shaped.le_of_mem_ancestors s hd) hs)
    unfold binding
    show (((t.openScope p).2.scope d).keys.find? _).map _ = _
    rw [scope_openScope, if_neg hd']
  | distinct base s' =>
    have hs' : s' < t.scopes.size := hc
    rw [← hl]
    refine lookup_congr hanc fun d _ => ?_
    unfold binding
    have hkeys : ((t.distinct base s').2.scope d).keys = (t.scope d).keys := by
      rw [show (t.distinct base s').2 = t.take (t.distinct base s').1 s' from rfl, scope_take hs']
      split <;> rfl
    show (((t.distinct base s').2.scope d).keys.find? _).map _ = _
    rw [hkeys]
  | nameFor key' kind' s' =>
    have hs' : s' < t.scopes.size := hc
    show (t.nameFor key' kind' s').2.lookup key kind s = some n
    rw [nameFor_eq]
    split
    · exact hl
    · rename_i hnone
      rw [lookup_eq] at hnone
      exact h.shaped.lookup_bind hs' hnone hl

theorem Sound.lookup_runCalls {cs : List NameCall} {given : List (Nat × String)} (h : t.Sound)
    (hrun : t.runCalls cs = some (given, t')) (hs : s < t.scopes.size) {key : String}
    {kind : NameKind} {n : String} (hl : t.lookup key kind s = some n) :
    t'.lookup key kind s = some n := by
  induction cs generalizing t given with
  | nil =>
    rw [NameTable.runCalls, Option.some.injEq, Prod.mk.injEq] at hrun
    obtain ⟨-, rfl⟩ := hrun
    exact hl
  | cons c cs ih =>
    obtain ⟨hc, rest, hrest, -⟩ := runCalls_cons_eq_some.1 hrun
    obtain ⟨hsound, hgrow⟩ := h.run hc
    exact ih hsound hrest (Nat.lt_of_lt_of_le hs hgrow.size_le) (h.lookup_run hc hs hl)

/-- **A key keeps the name its first call gave it, and keys of related scopes have different
names.**  Take calls from a new table, then a key named in a scope `s₁`, then more calls.  Naming
a key of the same kind and spelling without case in `s₁` again gives the same name and changes
nothing; naming a key that differs in kind or in spelling without case, in `s₁` or in a scope
above or inside it, gives a different name. -/
theorem keys_keep_their_names {extra : List String} {pre mid : List NameCall}
    {given₁ given₂ : List (Nat × String)} {t₁ t₂ : NameTable} {key₁ key₂ : String}
    {kind₁ kind₂ : NameKind} {s₁ s₂ : Nat}
    (h₁ : (create extra).runCalls pre = some (given₁, t₁)) (hs₁ : s₁ < t₁.scopes.size)
    (h₂ : (t₁.nameFor key₁ kind₁ s₁).2.runCalls mid = some (given₂, t₂))
    (hs₂ : s₂ < t₂.scopes.size) :
    ((kind₂, Text.lower key₂) = (kind₁, Text.lower key₁) → s₂ = s₁ →
        t₂.nameFor key₂ kind₂ s₂ = ((t₁.nameFor key₁ kind₁ s₁).1, t₂)) ∧
      ((kind₂, Text.lower key₂) ≠ (kind₁, Text.lower key₁) →
        s₁ ∈ t₂.ancestors s₂ ∨ s₂ ∈ t₂.ancestors s₁ →
        (t₂.nameFor key₂ kind₂ s₂).1 ≠ (t₁.nameFor key₁ kind₁ s₁).1) := by
  obtain ⟨hsound₁, -, -⟩ := (Sound.create extra).runCalls h₁
  obtain ⟨hsound₁', hgrow₁'⟩ := hsound₁.nameFor hs₁ key₁ kind₁
  obtain ⟨hsound₂, hgrow₂, -⟩ := hsound₁'.runCalls h₂
  have hs₁' : s₁ < (t₁.nameFor key₁ kind₁ s₁).2.scopes.size :=
    Nat.lt_of_lt_of_le hs₁ hgrow₁'.size_le
  refine ⟨fun hkey hs => ?_, fun hkey hrel => ?_⟩
  · -- the first call left the key a name for `s₁`, and calls keep it
    obtain ⟨hkind, hlower⟩ := Prod.mk.inj hkey
    subst hs hkind
    have hl := hsound₁'.lookup_runCalls h₂ hs₁' (lookup_nameFor_self hs₁ key₁ kind₂)
    rw [← lookup_lower hlower] at hl
    exact nameFor_of_lookup hl
  · -- both keys are bound to their names in scopes on the paths of their calls' scopes
    obtain ⟨hsound₃, hgrow₃⟩ := hsound₂.nameFor hs₂ key₂ kind₂
    have hgrow₁₂ := hgrow₁'.trans hgrow₂
    obtain ⟨a₁, ha₁, he₁⟩ := nameFor_bound hs₁ key₁ kind₁
    obtain ⟨a₂, ha₂, he₂⟩ := nameFor_bound hs₂ key₂ kind₂
    rw [← hgrow₁₂.ancestors hsound₁.shaped hsound₂.shaped hs₁] at ha₁
    -- the two scopes lie one above the other
    have hrel' : a₂ ∈ t₂.ancestors a₁ ∨ a₁ ∈ t₂.ancestors a₂ := by
      rcases hsound₂.shaped.related_of_mem_ancestors ha₁ hrel with ha | ha
      · exact (hsound₂.shaped.ancestors_total ha ha₂).symm
      · exact .inl (hsound₂.shaped.ancestors_trans ha₂ ha)
    have ha₁' : a₁ < t₂.scopes.size :=
      Nat.lt_of_le_of_lt (hsound₂.shaped.le_of_mem_ancestors s₁ ha₁)
        (Nat.lt_of_lt_of_le hs₁' hgrow₂.size_le)
    have ha₂' : a₂ < t₂.scopes.size :=
      Nat.lt_of_le_of_lt (hsound₂.shaped.le_of_mem_ancestors s₂ ha₂) hs₂
    rw [← hgrow₃.ancestors hsound₂.shaped hsound₃.shaped ha₁',
      ← hgrow₃.ancestors hsound₂.shaped hsound₃.shaped ha₂'] at hrel'
    exact hsound₃.names_differ he₂ (hgrow₃.keys a₁ (hgrow₂.keys a₁ he₁)) hkey hrel'

/-- A key named `Total` in a procedure's scope keeps that name there, also after the global
scope, which holds the procedure's, names the key `total`. -/
theorem keys_keep_their_names_in_child_scope :
    (create []).runCalls [.openScope 0] = some ([], ⟨reservedWords ++ [], #[⟨none, [], []⟩, ⟨some 0, [], []⟩]⟩) ∧
      1 < (NameTable.scopes ⟨reservedWords ++ [], #[⟨none, [], []⟩, ⟨some 0, [], []⟩]⟩).size ∧
      (NameTable.nameFor ⟨reservedWords ++ [], #[⟨none, [], []⟩, ⟨some 0, [], []⟩]⟩ "Total" .variable 1).2.runCalls [.nameFor "total" .variable 0] =
        some ([(0, "total")], ⟨reservedWords ++ [],
          #[⟨none, [((.variable, "total"), "total")], ["total"]⟩,
            ⟨some 0, [((.variable, "total"), "Total")], ["Total"]⟩]⟩) ∧
      1 < (NameTable.scopes ⟨reservedWords ++ [],
          #[⟨none, [((.variable, "total"), "total")], ["total"]⟩,
            ⟨some 0, [((.variable, "total"), "Total")], ["Total"]⟩]⟩).size ∧
      NameTable.nameFor ⟨reservedWords ++ [],
          #[⟨none, [((.variable, "total"), "total")], ["total"]⟩,
            ⟨some 0, [((.variable, "total"), "Total")], ["Total"]⟩]⟩ "TOTAL" .variable 1 = ("Total", ⟨reservedWords ++ [],
          #[⟨none, [((.variable, "total"), "total")], ["total"]⟩,
            ⟨some 0, [((.variable, "total"), "Total")], ["Total"]⟩]⟩) := by
  have h₁ : (create []).runCalls [.openScope 0] = some ([], ⟨reservedWords ++ [], #[⟨none, [], []⟩, ⟨some 0, [], []⟩]⟩) := rfl
  have h₂ : (NameTable.nameFor ⟨reservedWords ++ [], #[⟨none, [], []⟩, ⟨some 0, [], []⟩]⟩ "Total" .variable 1).2.runCalls [.nameFor "total" .variable 0] =
      some ([(0, "total")], ⟨reservedWords ++ [],
          #[⟨none, [((.variable, "total"), "total")], ["total"]⟩,
            ⟨some 0, [((.variable, "total"), "Total")], ["Total"]⟩]⟩) := rfl
  have hkey : (NameKind.variable, Text.lower "TOTAL") = (NameKind.variable, Text.lower "Total") := by
    decide +kernel
  exact ⟨h₁, by decide, h₂, by decide,
    (keys_keep_their_names h₁ (by decide) h₂ (by decide)).1 hkey rfl⟩

end NameTable

end BlockScribe
