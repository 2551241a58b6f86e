import BlockScribe.Naming.Table
import Mathlib.Data.List.Nodup
import Mathlib.Data.String.Basic
/-!
# Fresh names

A name table gives out a name by trying the candidates `safe`, `safe2`, `safe3`, … and taking
the first that no related scope holds (`NameTable.distinct`).  It tries one candidate more than
the table holds names, so the one it takes is never held: the candidates differ from each other
(`NameTable.candidate_injective`), and no more of them can be held than the table holds names
(`NameTable.exists_free_candidate`).  So the search never runs out: the name given out is the
first free candidate, and taking it adds it to the names of its scope and changes nothing else
(`NameTable.distinct_takes_first_free`).

The scopes form a tree rooted at the global scope, every other scope having an earlier parent
(`NameTable.Shaped`); the ancestors of a scope, which the table computes by following parents
for as many steps as it has scopes, are then the scopes on its path to the root.  A table whose
names are `NameTable.Apart` holds no reserved word, and no name twice in one scope or in two
scopes of which one lies inside the other.  Taking a fresh name keeps a table apart
(`NameTable.Apart.take`), and so do naming a key and opening a scope.
-/

namespace BlockScribe

/-- Different numbers have different decimal numerals. -/
theorem nat_toString_injective : Function.Injective (toString : Nat → String) := by
  intro n m h
  have hDigits : Nat.toDigits 10 n = Nat.toDigits 10 m := by
    simpa only [Nat.toString_eq_repr, Nat.toList_repr] using congrArg String.toList h
  calc n = Nat.ofDigitChars 10 (Nat.toDigits 10 n) 0 := Nat.ofDigitChars_ten_toDigits.symm
    _ = Nat.ofDigitChars 10 (Nat.toDigits 10 m) 0 := by rw [hDigits]
    _ = m := Nat.ofDigitChars_ten_toDigits

/-- A decimal numeral has a digit. -/
theorem nat_toString_ne_empty (n : Nat) : toString n ≠ "" := by
  intro h
  have hDigits : Nat.toDigits 10 n = [] := by
    simpa [Nat.toString_eq_repr, Nat.toList_repr] using congrArg String.toList h
  exact Nat.toDigits_ne_nil hDigits

namespace NameTable

variable {t : NameTable} {s d i p : Nat} {n : String}

/-! ### Scopes -/

/-- The scope that a table without it reports. -/
def noScope : Scope := ⟨none, [], []⟩

theorem scope_eq (t : NameTable) (i : Nat) : t.scope i = t.scopes[i]?.getD noScope :=
  Array.getD_eq_getD_getElem?

theorem scope_of_le (h : t.scopes.size ≤ i) : t.scope i = noScope := by
  rw [scope_eq, Array.getElem?_eq_none h]
  rfl

theorem scope_mem (h : i < t.scopes.size) : t.scope i ∈ t.scopes.toList := by
  rw [scope_eq, Array.getElem?_eq_getElem h]
  exact Array.mem_toList_iff.2 (Array.getElem_mem h)

/-- Changing one scope of the arena. -/
theorem scope_modify (f : Scope → Scope) (hs : s < t.scopes.size) (i : Nat) :
    ({ t with scopes := t.scopes.modify s f } : NameTable).scope i =
      if i = s then f (t.scope i) else t.scope i := by
  by_cases hi : i = s
  · subst hi
    simp [scope_eq, Array.getElem?_modify, Array.getElem?_eq_getElem hs]
  · simp [scope_eq, Array.getElem?_modify, Ne.symm hi, hi]

theorem scope_openScope (t : NameTable) (p i : Nat) :
    (t.openScope p).2.scope i = if i = t.scopes.size then ⟨some p, [], []⟩ else t.scope i := by
  by_cases hi : i = t.scopes.size
  · simp [openScope, scope_eq, hi]
  · simp [openScope, scope_eq, Array.getElem?_push, hi]

@[simp] theorem size_openScope (t : NameTable) (p : Nat) :
    (t.openScope p).2.scopes.size = t.scopes.size + 1 :=
  Array.size_push _

@[simp] theorem reserved_openScope (t : NameTable) (p : Nat) :
    (t.openScope p).2.reserved = t.reserved := rfl

@[simp] theorem size_take (t : NameTable) (n : String) (s : Nat) :
    (t.take n s).scopes.size = t.scopes.size :=
  Array.size_modify

@[simp] theorem reserved_take (t : NameTable) (n : String) (s : Nat) :
    (t.take n s).reserved = t.reserved := rfl

theorem scope_take (hs : s < t.scopes.size) (i : Nat) :
    (t.take n s).scope i =
      if i = s then { t.scope i with taken := (t.scope i).taken ++ [n] } else t.scope i :=
  scope_modify _ hs i

/-! ### The tree of scopes -/

/-- The scopes form a tree rooted at the global scope: it has no parent, every other scope of
the table has one, and a parent comes before its children. -/
structure Shaped (t : NameTable) : Prop where
  global_lt : global < t.scopes.size
  global_root : (t.scope global).parent = none
  has_parent : ∀ i, global < i → i < t.scopes.size → (t.scope i).parent ≠ none
  parent_lt : ∀ i p, (t.scope i).parent = some p → p < i

/-- A table whose scopes have the parents of another's has its shape. -/
theorem Shaped.congr {t' : NameTable} (h : t.Shaped) (hsize : t'.scopes.size = t.scopes.size)
    (hparent : ∀ i, (t'.scope i).parent = (t.scope i).parent) : t'.Shaped := by
  refine ⟨hsize ▸ h.global_lt, (hparent _).trans h.global_root, fun i hi hlt => ?_,
    fun i p hp => h.parent_lt i p ((hparent i).symm.trans hp)⟩
  rw [hparent]
  exact h.has_parent i hi (hsize ▸ hlt)

theorem Shaped.openScope (h : t.Shaped) (hp : p < t.scopes.size) : (t.openScope p).2.Shaped := by
  refine ⟨?_, ?_, fun i hi hlt => ?_, fun i q hq => ?_⟩
  · rw [size_openScope]
    exact Nat.lt_succ_of_lt h.global_lt
  · rw [scope_openScope, if_neg (Nat.ne_of_lt h.global_lt)]
    exact h.global_root
  · rw [scope_openScope]
    split
    · exact nofun
    · exact h.has_parent i hi (by rw [size_openScope] at hlt; omega)
  · rw [scope_openScope] at hq
    split at hq
    · -- the new scope's parent is the current scope
      cases hq
      omega
    · exact h.parent_lt i q hq

theorem self_mem_chain (t : NameTable) : ∀ f s, s ∈ t.chain f s
  | 0, _ => List.mem_singleton_self _
  | _ + 1, s => by
    unfold chain
    split
    · exact List.mem_cons_self
    · exact List.mem_singleton_self _

theorem self_mem_ancestors (t : NameTable) (s : Nat) : s ∈ t.ancestors s := self_mem_chain t _ s

/-- Following parents from a scope reaches the root within as many steps as the scope's
number. -/
theorem Shaped.global_mem_chain (h : t.Shaped) : ∀ f s, s ≤ f → s < t.scopes.size →
    global ∈ t.chain f s
  | 0, s, hs, _ => by
    rw [Nat.le_zero.1 hs]
    exact self_mem_chain t 0 global
  | f + 1, s, hs, hlt => by
    by_cases hs0 : s = global
    · rw [hs0]
      exact self_mem_chain t _ global
    · obtain ⟨q, hq⟩ := Option.ne_none_iff_exists'.1
        (h.has_parent s (Nat.pos_of_ne_zero hs0) hlt)
      have hqs := h.parent_lt s q hq
      unfold chain
      rw [hq]
      exact List.mem_cons_of_mem _ (h.global_mem_chain f q (by omega) (by omega))

theorem Shaped.global_mem_ancestors (h : t.Shaped) (hs : s < t.scopes.size) :
    global ∈ t.ancestors s :=
  h.global_mem_chain _ s (Nat.le_of_lt hs) hs

theorem Shaped.ancestors_global (h : t.Shaped) : t.ancestors global = [global] := by
  unfold ancestors
  cases t.scopes.size with
  | zero => rfl
  | succ f =>
    unfold chain
    rw [h.global_root]

/-- More steps than a scope's number change nothing. -/
theorem Shaped.chain_succ (h : t.Shaped) : ∀ f s, s ≤ f → t.chain (f + 1) s = t.chain f s
  | 0, s, hs => by
    have hroot : (t.scope 0).parent = none := h.global_root
    rw [Nat.le_zero.1 hs]
    unfold chain
    rw [hroot]
  | f + 1, s, hs => by
    rw [chain, chain]
    rcases hq : (t.scope s).parent with _ | q
    · rfl
    · have hqs := h.parent_lt s q hq
      dsimp only
      rw [h.chain_succ f q (by omega)]

/-- The chain of a scope depends only on the parents of the scopes before it. -/
theorem chain_congr {t' : NameTable} (h : t.Shaped) : ∀ f s,
    (∀ i, i ≤ s → (t'.scope i).parent = (t.scope i).parent) → t'.chain f s = t.chain f s
  | 0, _, _ => rfl
  | f + 1, s, hparent => by
    rw [chain, chain, hparent s (Nat.le_refl s)]
    rcases hq : (t.scope s).parent with _ | q
    · rfl
    · have hqs := h.parent_lt s q hq
      dsimp only
      rw [chain_congr h f q fun i hi => hparent i (by omega)]

theorem ancestors_congr {t' : NameTable} (h : t.Shaped) (hsize : t'.scopes.size = t.scopes.size)
    (hparent : ∀ i, (t'.scope i).parent = (t.scope i).parent) (s : Nat) :
    t'.ancestors s = t.ancestors s := by
  unfold ancestors
  rw [hsize]
  exact chain_congr h _ s fun i _ => hparent i

/-- Opening a scope leaves the ancestors of the others as they are. -/
theorem Shaped.ancestors_openScope (h : t.Shaped) (hs : s < t.scopes.size) (p : Nat) :
    (t.openScope p).2.ancestors s = t.ancestors s := by
  unfold ancestors
  rw [size_openScope, chain_congr h _ s fun i hi => ?_, h.chain_succ _ s (Nat.le_of_lt hs)]
  rw [scope_openScope, if_neg (by omega)]

theorem mem_descendants : d ∈ t.descendants s ↔ d < t.scopes.size ∧ d ≠ s ∧ s ∈ t.ancestors d := by
  simp [descendants]

/-! ### Names taken -/

/-- A name is free for a scope when it is no reserved word and no scope on the path to the
root, nor any scope inside it, holds it. -/
theorem isTaken_eq_false : t.isTaken n s = false ↔ n ∉ t.reserved ∧
    ∀ d, d ∈ t.ancestors s ∨ d ∈ t.descendants s → n ∉ (t.scope d).taken := by
  simp [isTaken, or_imp, forall_and]

/-- Every name the table holds: the reserved words and the names taken in each scope. -/
def held (t : NameTable) : List String := t.reserved ++ t.scopes.toList.flatMap (·.taken)

theorem foldl_taken_length : ∀ (l : List Scope) (k : Nat),
    l.foldl (fun n sc => n + sc.taken.length) k = k + (l.flatMap (·.taken)).length
  | [], k => rfl
  | sc :: l, k => by
    rw [List.foldl_cons, foldl_taken_length l, List.flatMap_cons, List.length_append]
    omega

theorem length_held (t : NameTable) : t.held.length = t.size := by
  rw [held, size, List.length_append, ← Array.foldl_toList, foldl_taken_length, Nat.zero_add]

theorem mem_held_of_mem_taken (h : n ∈ (t.scope d).taken) : n ∈ t.held := by
  by_cases hd : d < t.scopes.size
  · exact List.mem_append_right _ (List.mem_flatMap.2 ⟨_, scope_mem hd, h⟩)
  · rw [scope_of_le (Nat.le_of_not_lt hd)] at h
    exact absurd h List.not_mem_nil

theorem mem_held_of_isTaken (h : t.isTaken n s = true) : n ∈ t.held := by
  simp only [isTaken, Bool.or_eq_true, List.contains_iff_mem, List.any_eq_true] at h
  rcases h with h | ⟨d, _, hd⟩
  · exact List.mem_append_left _ h
  · exact mem_held_of_mem_taken hd

/-- The candidates from the first on are all different. -/
theorem candidate_injective {safe : String} {j k : Nat} (hj : 1 ≤ j) (hk : 1 ≤ k)
    (h : candidate safe j = candidate safe k) : j = k := by
  unfold candidate at h
  by_cases hj1 : j ≤ 1 <;> by_cases hk1 : k ≤ 1
  · omega
  · rw [if_pos hj1, if_neg hk1] at h
    exact absurd (String.append_eq_left_iff.1 h.symm) (nat_toString_ne_empty k)
  · rw [if_neg hj1, if_pos hk1] at h
    exact absurd (String.append_eq_left_iff.1 h) (nat_toString_ne_empty j)
  · rw [if_neg hj1, if_neg hk1] at h
    exact nat_toString_injective ((String.append_right_inj safe).1 h)

theorem candidate_one (safe : String) : candidate safe 1 = safe := rfl

theorem candidate_of_two_le (safe : String) {k : Nat} (hk : 2 ≤ k) :
    candidate safe k = safe ++ toString k := by
  rw [candidate, if_neg (by omega)]

/-- The search from `counter` on, when one of the candidates it tries is free, gives the first
free one: every candidate it passed is taken. -/
theorem firstFree_first {safe : String} : ∀ fuel counter,
    (∃ k, counter ≤ k ∧ k < counter + fuel ∧ t.isTaken (candidate safe k) s = false) →
      ∃ k, counter ≤ k ∧ t.firstFree safe s fuel counter = candidate safe k ∧
        t.isTaken (candidate safe k) s = false ∧
        ∀ j, counter ≤ j → j < k → t.isTaken (candidate safe j) s = true
  | 0, _, ⟨k, hk, hk', _⟩ => by omega
  | fuel + 1, counter, ⟨k, hk, hk', hfree⟩ => by
    unfold firstFree
    by_cases htaken : t.isTaken (candidate safe counter) s = true
    · rw [if_pos htaken]
      -- the first candidate is taken, so the free one comes later
      have hlater : counter + 1 ≤ k := by
        rcases Nat.lt_or_eq_of_le hk with hk | rfl
        · exact hk
        · rw [hfree] at htaken
          cases htaken
      obtain ⟨k', hk', heq, hfree', hpassed⟩ :=
        firstFree_first fuel (counter + 1) ⟨k, hlater, by omega, hfree⟩
      refine ⟨k', by omega, heq, hfree', fun j hj hjk => ?_⟩
      rcases Nat.lt_or_eq_of_le hj with hj | rfl
      · exact hpassed j hj hjk
      · exact htaken
    · rw [if_neg htaken]
      exact ⟨counter, Nat.le_refl _, rfl, by simpa using htaken, fun j hj hjk => by omega⟩

/-- The search for a free candidate finds one if one of those it tries is free. -/
theorem isTaken_firstFree {safe : String} (fuel counter : Nat)
    (h : ∃ k, counter ≤ k ∧ k < counter + fuel ∧ t.isTaken (candidate safe k) s = false) :
    t.isTaken (t.firstFree safe s fuel counter) s = false := by
  obtain ⟨k, -, heq, hfree, -⟩ := firstFree_first fuel counter h
  rw [heq]
  exact hfree

/-- Of the `size + 1` candidates from the first, one is free: they are different names, and the
table holds only `size` names. -/
theorem exists_free_candidate (t : NameTable) (safe : String) (s : Nat) :
    ∃ k, 1 ≤ k ∧ k < 1 + (t.size + 1) ∧ t.isTaken (candidate safe k) s = false := by
  by_contra hall
  have htaken : ∀ k, 1 ≤ k → k < 1 + (t.size + 1) →
      t.isTaken (candidate safe k) s = true := fun k hk1 hk2 => by
    by_contra hk
    exact hall ⟨k, hk1, hk2, Bool.eq_false_iff.2 hk⟩
  -- every candidate tried is held, and they are `size + 1` different names
  let tried := (List.range' 1 (t.size + 1)).map (candidate safe)
  have hnodup : tried.Nodup :=
    (List.nodup_range' 1).map_on fun j hj k hk h =>
      candidate_injective (List.mem_range'_1.1 hj).1 (List.mem_range'_1.1 hk).1 h
  have hheld : tried ⊆ t.held := fun x hx => by
    obtain ⟨k, hk, rfl⟩ := List.mem_map.1 hx
    obtain ⟨hk1, hk2⟩ := List.mem_range'_1.1 hk
    exact mem_held_of_isTaken (htaken k hk1 hk2)
  have hlen := hnodup.length_le_of_subset hheld
  rw [List.length_map, List.length_range', length_held] at hlen
  omega

/-- **A name given out is free for its scope.**  Of the `size + 1` candidates tried, at most
`size` are held by the table. -/
theorem isTaken_distinct (t : NameTable) (base : String) (s : Nat) :
    t.isTaken (t.distinct base s).1 s = false :=
  isTaken_firstFree _ 1 (exists_free_candidate t _ s)

/-- A name given out is not yet taken in its own scope. -/
theorem distinct_not_mem (t : NameTable) (base : String) (s : Nat) :
    (t.distinct base s).1 ∉ (t.scope s).taken :=
  (isTaken_eq_false.1 (isTaken_distinct t base s)).2 s (.inl (self_mem_ancestors t s))

@[simp] theorem size_distinct (t : NameTable) (base : String) (s : Nat) :
    (t.distinct base s).2.scopes.size = t.scopes.size :=
  size_take t _ s

/-- Giving out a name takes it, last, in its scope. -/
theorem scope_distinct (hs : s < t.scopes.size) (base : String) :
    (t.distinct base s).2.scope s =
      { t.scope s with taken := (t.scope s).taken ++ [(t.distinct base s).1] } := by
  rw [distinct, scope_take hs, if_pos rfl]

/-- **A fresh name is the first free candidate, taken in its scope alone.**  The table gives
out the safe form of the base when that is free for the scope, and otherwise the safe form
followed by the least counter from 2 that makes it free.  It takes that name, held there by no
scope before, in the scope, and changes nothing else: the search never runs out of tries. -/
theorem distinct_takes_first_free (t : NameTable) (base : String) (hs : s < t.scopes.size) :
    let safe := Text.safeName base
    let r := t.distinct base s
    ((t.isTaken safe s = false ∧ r.1 = safe) ∨
      (t.isTaken safe s = true ∧ ∃ k, 2 ≤ k ∧ r.1 = safe ++ toString k ∧
        t.isTaken r.1 s = false ∧ ∀ j, 2 ≤ j → j < k → t.isTaken (safe ++ toString j) s = true)) ∧
      r.1 ∉ (t.scope s).taken ∧ r.2.reserved = t.reserved ∧ r.2.scopes.size = t.scopes.size ∧
      ∀ i, r.2.scope i =
        if i = s then { t.scope i with taken := (t.scope i).taken ++ [r.1] } else t.scope i := by
  intro safe r
  obtain ⟨k, hk1, hname, hfree, hpassed⟩ := firstFree_first _ 1 (exists_free_candidate t safe s)
  replace hname : r.1 = candidate safe k := hname
  refine ⟨?_, distinct_not_mem t base s, rfl, size_distinct t base s, scope_take hs⟩
  rcases Nat.lt_or_eq_of_le hk1 with hk2 | rfl
  · -- the safe form is taken, and so is every numbered candidate before the one given
    have hsafe : t.isTaken safe s = true := by
      rw [← candidate_one safe]
      exact hpassed 1 (Nat.le_refl 1) hk2
    rw [candidate_of_two_le safe hk2] at hname hfree
    refine .inr ⟨hsafe, k, hk2, hname, hname ▸ hfree, fun j hj hjk => ?_⟩
    rw [← candidate_of_two_le safe hj]
    exact hpassed j (by omega) hjk
  · exact .inl ⟨hfree, hname⟩

/-- A reserved word asked for in the global scope of a new table gets the counter 2. -/
theorem distinct_numbers_reserved_word :
    global < (create []).scopes.size ∧
      let safe := Text.safeName "if"
      let r := (create []).distinct "if" global
      (((create []).isTaken safe global = false ∧ r.1 = safe) ∨
        ((create []).isTaken safe global = true ∧ ∃ k, 2 ≤ k ∧ r.1 = safe ++ toString k ∧
          (create []).isTaken r.1 global = false ∧
          ∀ j, 2 ≤ j → j < k → (create []).isTaken (safe ++ toString j) global = true)) ∧
        r.1 ∉ ((create []).scope global).taken ∧ r.2.reserved = (create []).reserved ∧
        r.2.scopes.size = (create []).scopes.size ∧
        ∀ i, r.2.scope i = if i = global then
          { (create []).scope i with taken := ((create []).scope i).taken ++ [r.1] }
          else (create []).scope i :=
  ⟨by decide, distinct_takes_first_free (create []) "if" (by decide)⟩

/-! ### Tables whose names are apart -/

/-- The names of a table are apart: no reserved word is taken, and two names taken at two
places of one scope, or in two scopes one of which lies inside the other, differ. -/
structure Apart (t : NameTable) : Prop where
  shaped : t.Shaped
  not_reserved : ∀ d n, n ∈ (t.scope d).taken → n ∉ t.reserved
  taken_nodup : ∀ d, (t.scope d).taken.Nodup
  apart : ∀ d₁ d₂, d₁ ≠ d₂ → d₁ ∈ t.ancestors d₂ → ∀ n ∈ (t.scope d₁).taken,
    n ∉ (t.scope d₂).taken

/-- A name taken in two scopes is taken in scopes neither of which lies inside the other. -/
theorem Apart.unrelated {d₁ d₂ : Nat} (h : t.Apart) (hne : d₁ ≠ d₂) (h₁ : n ∈ (t.scope d₁).taken)
    (h₂ : n ∈ (t.scope d₂).taken) : d₁ ∉ t.ancestors d₂ ∧ d₂ ∉ t.ancestors d₁ :=
  ⟨fun hd => h.apart d₁ d₂ hne hd n h₁ h₂, fun hd => h.apart d₂ d₁ (Ne.symm hne) hd n h₂ h₁⟩

/-- A name taken in a scope other than the global one is not taken in the global scope, which
holds every other scope. -/
theorem Apart.not_mem_global (h : t.Apart) (hd : d ≠ global) (hn : n ∈ (t.scope d).taken) :
    n ∉ (t.scope global).taken := by
  by_cases hlt : d < t.scopes.size
  · exact fun hg => h.apart global d (Ne.symm hd) (h.shaped.global_mem_ancestors hlt) n hg hn
  · rw [scope_of_le (Nat.le_of_not_lt hlt)] at hn
    exact absurd hn List.not_mem_nil

/-- A table whose scopes have the parents and the names of another's has its names apart. -/
theorem Apart.congr {t' : NameTable} (h : t.Apart) (hsize : t'.scopes.size = t.scopes.size)
    (hreserved : t'.reserved = t.reserved)
    (hparent : ∀ i, (t'.scope i).parent = (t.scope i).parent)
    (htaken : ∀ i, (t'.scope i).taken = (t.scope i).taken) : t'.Apart := by
  have hanc := ancestors_congr h.shaped hsize hparent
  refine ⟨h.shaped.congr hsize hparent, fun d n hn => ?_, fun d => ?_,
    fun d₁ d₂ hne hd n hn => ?_⟩
  · rw [hreserved]
    exact h.not_reserved d n (htaken d ▸ hn)
  · rw [htaken]
    exact h.taken_nodup d
  · rw [htaken]
    exact h.apart d₁ d₂ hne (hanc d₂ ▸ hd) n (htaken d₁ ▸ hn)

/-- **Taking a free name keeps the names apart.** -/
theorem Apart.take (h : t.Apart) (hs : s < t.scopes.size) (hn : t.isTaken n s = false) :
    (t.take n s).Apart := by
  obtain ⟨hreserved, hfree⟩ := isTaken_eq_false.1 hn
  have hparent : ∀ i, ((t.take n s).scope i).parent = (t.scope i).parent := fun i => by
    rw [scope_take hs]
    split <;> rfl
  have hanc := ancestors_congr h.shaped (size_take t n s) hparent
  -- the names of each scope after taking `n` in `s`
  have htaken : ∀ i, ((t.take n s).scope i).taken =
      if i = s then (t.scope i).taken ++ [n] else (t.scope i).taken := fun i => by
    rw [scope_take hs]
    split <;> rfl
  -- `n` is held by no scope related to `s`
  have hup : ∀ d, d ∈ t.ancestors s → n ∉ (t.scope d).taken := fun d hd => hfree d (.inl hd)
  have hdown : ∀ d, d ≠ s → s ∈ t.ancestors d → n ∉ (t.scope d).taken := fun d hne hd hmem =>
    if hlt : d < t.scopes.size then hfree d (.inr (mem_descendants.2 ⟨hlt, hne, hd⟩)) hmem
    else by
      rw [scope_of_le (Nat.le_of_not_lt hlt)] at hmem
      exact List.not_mem_nil hmem
  refine ⟨h.shaped.congr (size_take t n s) hparent, fun d m hm => ?_, fun d => ?_,
    fun d₁ d₂ hne hd m hm₁ hm₂ => ?_⟩
  · rw [reserved_take]
    rw [htaken] at hm
    split at hm
    · rcases List.mem_append.1 hm with hm | hm
      · exact h.not_reserved d m hm
      · rw [List.mem_singleton.1 hm]
        exact hreserved
    · exact h.not_reserved d m hm
  · rw [htaken]
    split
    · rename_i hds
      subst hds
      refine List.nodup_append.2 ⟨h.taken_nodup d, List.nodup_singleton n, fun a ha b hb hab => ?_⟩
      have han : a = n := hab.trans (List.mem_singleton.1 hb)
      exact hup d (self_mem_ancestors t d) (han ▸ ha)
    · exact h.taken_nodup d
  · rw [hanc] at hd
    rw [htaken] at hm₁ hm₂
    split at hm₁ <;> split at hm₂
    · rename_i h₁ h₂
      exact hne (h₁.trans h₂.symm)
    · -- `m` is the new name in `s`, or one it already held
      rename_i h₁ _
      subst h₁
      rcases List.mem_append.1 hm₁ with hm₁ | hm₁
      · exact h.apart d₁ d₂ hne hd m hm₁ hm₂
      · rw [List.mem_singleton.1 hm₁] at hm₂
        exact hdown d₂ (Ne.symm hne) hd hm₂
    · rename_i _ h₂
      subst h₂
      rcases List.mem_append.1 hm₂ with hm₂ | hm₂
      · exact h.apart d₁ d₂ hne hd m hm₁ hm₂
      · rw [List.mem_singleton.1 hm₂] at hm₁
        exact hup d₁ hd hm₁
    · exact h.apart d₁ d₂ hne hd m hm₁ hm₂

theorem Apart.distinct (h : t.Apart) (hs : s < t.scopes.size) (base : String) :
    (t.distinct base s).2.Apart :=
  h.take hs (isTaken_distinct t base s)

/-- Opening a scope inside one of the table keeps the names apart. -/
theorem Apart.openScope (h : t.Apart) (hp : p < t.scopes.size) : (t.openScope p).2.Apart := by
  -- the new scope holds no name, and the others keep theirs and their ancestors
  have htaken : ∀ i, ((t.openScope p).2.scope i).taken =
      if i = t.scopes.size then [] else (t.scope i).taken := fun i => by
    rw [scope_openScope]
    split <;> rfl
  refine ⟨h.shaped.openScope hp, fun d n hn => ?_, fun d => ?_, fun d₁ d₂ hne hd n hn₁ hn₂ => ?_⟩
  · rw [htaken] at hn
    split at hn
    · exact absurd hn List.not_mem_nil
    · exact h.not_reserved d n hn
  · rw [htaken]
    split
    · exact List.nodup_nil
    · exact h.taken_nodup d
  · rw [htaken] at hn₁ hn₂
    split at hn₁
    · exact List.not_mem_nil hn₁
    · split at hn₂
      · exact List.not_mem_nil hn₂
      · rename_i h₁ h₂
        by_cases hlt : d₂ < t.scopes.size
        · rw [h.shaped.ancestors_openScope hlt] at hd
          exact h.apart d₁ d₂ hne hd n hn₁ hn₂
        · rw [scope_of_le (by omega)] at hn₂
          exact List.not_mem_nil hn₂

/-- A table with the reserved words and the global scope alone has its names apart. -/
theorem create_apart (extra : List String) : (create extra).Apart := by
  have hscope : ∀ i, (create extra).scope i = noScope := fun i => by
    cases i with
    | zero => rfl
    | succ i => exact scope_of_le (by simp [create])
  refine ⟨⟨by simp [create, global], by rw [hscope]; rfl,
    fun i hi hlt => ?_, fun i p hp => ?_⟩, fun d n hn => ?_, fun d => ?_,
    fun d₁ d₂ _ _ n hn => ?_⟩
  · simp [create, global] at hi hlt
    omega
  · rw [hscope] at hp
    cases hp
  · rw [hscope] at hn
    cases hn
  · rw [hscope]
    exact List.nodup_nil
  · rw [hscope] at hn
    cases hn

/-! ### Keys -/

/-- The name a key has in the global scope: the one recorded there for its kind and spelling
without case. -/
theorem Shaped.lookup_global (h : t.Shaped) (key : String) (kind : NameKind) :
    t.lookup key kind global =
      ((t.scope global).keys.find? (·.1 == (kind, Text.lower key))).map (·.2) := by
  unfold lookup
  rw [h.ancestors_global, List.findSome?_singleton]

/-- Recording a key in a scope: its names and parents stay. -/
def addKey (t : NameTable) (s : Nat) (entry : (NameKind × String) × String) : NameTable :=
  { t with scopes := t.scopes.modify s fun sc => { sc with keys := sc.keys ++ [entry] } }

theorem nameFor_eq (t : NameTable) (key : String) (kind : NameKind) (s : Nat) :
    t.nameFor key kind s =
      match t.lookup key kind s with
      | some name => (name, t)
      | none => ((t.distinct key s).1,
          (t.distinct key s).2.addKey s ((kind, Text.lower key), (t.distinct key s).1)) := rfl

theorem scope_addKey (hs : s < t.scopes.size) (entry : (NameKind × String) × String) (i : Nat) :
    (t.addKey s entry).scope i =
      if i = s then { t.scope i with keys := (t.scope i).keys ++ [entry] } else t.scope i :=
  scope_modify _ hs i

@[simp] theorem size_addKey (t : NameTable) (s : Nat) (entry : (NameKind × String) × String) :
    (t.addKey s entry).scopes.size = t.scopes.size :=
  Array.size_modify

theorem Apart.addKey (h : t.Apart) (hs : s < t.scopes.size)
    (entry : (NameKind × String) × String) : (t.addKey s entry).Apart := by
  refine h.congr (size_addKey t s entry) rfl (fun i => ?_) fun i => ?_ <;>
  · rw [scope_addKey hs]
    split <;> rfl

/-- Naming a key in a scope of the table keeps the names apart. -/
theorem Apart.nameFor (h : t.Apart) (hs : s < t.scopes.size) (key : String) (kind : NameKind) :
    (t.nameFor key kind s).2.Apart := by
  rw [nameFor_eq]
  split
  · exact h
  · exact (h.distinct hs key).addKey (by rw [size_distinct]; exact hs) _

end NameTable

end BlockScribe
