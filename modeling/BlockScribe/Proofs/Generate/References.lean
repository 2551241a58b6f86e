import BlockScribe.Proofs.Generate.Invariants
import BlockScribe.Proofs.Generate.KindTable
import BlockScribe.Proofs.Script.Written
import BlockScribe.Proofs.Text.Identifier
/-!
# Generated names are references

Every name that generated code uses for a variable, a procedure or a helper is read by the
script as a reference (`Script.IsReference`): an identifier, which is a name of the script, and
no reserved word of it.  A fresh name is an identifier (`NameTable.identifier_distinct`) that
the table does not hold, so no reserved word of the table; and the table reserves every reserved
word of the script from its start.

A session whose table reserves the script's reserved words and whose keys and helpers all have
such names (`Session.NamesAreReferences`) stays so through every step of a generation,
whatever its outcome (`namesAreReferences`, an invariant in the sense of `SessionInvariant`), and
a generation starts in such a session (`Generation.start_namesAreReferences`).  The names of
keys are then inline too, which is what `valueCode_eq_none` asks of a session.
-/

namespace BlockScribe

open Script

/-! ### Names of keys and helpers -/

namespace NameTable

variable {t : NameTable} {Q : String → Prop}

/-- Every name that the table has given a key has `Q`. -/
def KeyNames (Q : String → Prop) (t : NameTable) : Prop := ∀ d, ∀ e ∈ (t.scope d).keys, Q e.2

theorem KeyNames.take (h : t.KeyNames Q) (n : String) (s : Nat) : (t.take n s).KeyNames Q := by
  intro d e he
  rw [NameTable.take, scope_keys_modify (f := fun sc => { sc with taken := sc.taken ++ [n] })
    (fun _ => rfl)] at he
  exact h d e he

theorem KeyNames.openScope (h : t.KeyNames Q) (p : Nat) : (t.openScope p).2.KeyNames Q := by
  intro d e he
  rw [scope_openScope] at he
  split at he
  · simp at he
  · exact h d e he

theorem KeyNames.addKey (h : t.KeyNames Q) (s : Nat) {entry : (NameKind × String) × String}
    (hentry : Q entry.2) : (t.addKey s entry).KeyNames Q := by
  intro d e he
  rw [NameTable.addKey, scope_eq, Array.getElem?_modify] at he
  split at he
  · cases hsc : t.scopes[d]? with
    | none => simp [hsc, noScope] at he
    | some sc =>
      rw [hsc] at he
      simp only [Option.map_some, Option.getD_some, List.mem_append, List.mem_singleton] at he
      rcases he with he | rfl
      · exact h d e (by rw [scope_eq, hsc]; exact he)
      · exact hentry
  · exact h d e (by rw [scope_eq]; exact he)

/-- **Naming a key gives a name with `Q`**, when a fresh one would have it, and keeps every key's
name so. -/
theorem KeyNames.nameFor (h : t.KeyNames Q) (key : String) (kind : NameKind) (s : Nat)
    (hfresh : Q (t.distinct key s).1) :
    Q (t.nameFor key kind s).1 ∧ (t.nameFor key kind s).2.KeyNames Q := by
  rw [nameFor_eq]
  split
  · rename_i n hn
    -- a name found for the key is that of an entry of some scope
    unfold NameTable.lookup at hn
    obtain ⟨d, -, hd⟩ := List.exists_of_findSome?_eq_some hn
    obtain ⟨e, he, rfl⟩ := Option.map_eq_some_iff.1 hd
    exact ⟨h d e (List.mem_of_find?_eq_some he), h⟩
  · exact ⟨hfresh, (h.take _ s).addKey s hfresh⟩

end NameTable

namespace Registry

variable {r : Registry} {Q : String → Prop}

/-- Every helper of the registry has a name with `Q`. -/
def HelperNames (Q : String → Prop) (r : Registry) : Prop :=
  ∀ desired d, r.find? (.helper desired) = some d → Q d.name

/-- Providing a helper hands back a name with `Q`, when a fresh one would have it, and keeps
the helpers' names so. -/
theorem HelperNames.provide (hr : r.HelperNames Q) {t : NameTable} (unit desired : String)
    (lines : List String) (hfresh : Q (t.distinct desired NameTable.global).1) :
    Q (r.provide t unit desired lines).1 ∧ (r.provide t unit desired lines).2.1.HelperNames Q := by
  rcases hfind : r.find? (.helper desired) with _ | d
  · unfold Registry.provide
    rw [hfind]
    refine ⟨hfresh, fun desired' d' hd' => ?_⟩
    by_cases hkey : desired' = desired
    · subst hkey
      rw [find?_insert_self] at hd'
      cases hd'
      exact hfresh
    · rw [find?_insert_of_ne (by simpa [eq_comm] using hkey)] at hd'
      exact hr _ _ hd'
  · rw [provide_of_find? hfind]
    exact ⟨hr _ _ hfind, hr⟩

theorem HelperNames.insert (hr : r.HelperNames Q) {key : DefinitionKey} (hkey : ∀ desired, key ≠ .helper desired)
    (d : Definition) : (r.insert key d).1.HelperNames Q := by
  intro desired d' hd
  rw [find?_insert_of_ne (hkey desired)] at hd
  exact hr _ _ hd

end Registry

/-! ### Fresh names -/

namespace Text

theorem Identifier.append_digits {s : String} (h : Identifier s) {ds : String}
    (hds : ∀ c ∈ ds.toList, c.isDigit = true) : Identifier (s ++ ds) := by
  obtain ⟨c, cs, hs⟩ := List.exists_cons_of_ne_nil (mt String.toList_eq_nil_iff.1 h.ne_empty)
  refine ⟨fun he => h.ne_empty ?_, fun x hx => ?_, fun x hx => ?_⟩
  · have := congrArg String.length he
    simp only [String.length_append, String.length_empty] at this
    exact String.length_eq_zero_iff.1 (by omega)
  · rw [String.toList_append, List.mem_append] at hx
    rcases hx with hx | hx
    · exact h.word x hx
    · simp [isWordChar, Char.isAlphanum, hds x hx]
  · rw [String.toList_append, hs, List.cons_append, List.head?_cons, Option.mem_some_iff] at hx
    subst hx
    exact h.head _ (by simp [hs])

/-- An identifier is a name of the script. -/
theorem Identifier.isName {s : String} (h : Identifier s) : Lx.IsName s.toList := by
  obtain ⟨c, cs, hs⟩ := List.exists_cons_of_ne_nil (mt String.toList_eq_nil_iff.1 h.ne_empty)
  have hword : ∀ x ∈ s.toList, isNamePart x = true := fun x hx => by
    have := h.word x hx
    simp only [isWordChar, Bool.or_eq_true, beq_iff_eq] at this
    simp [isNamePart, this]
  refine ⟨c, cs, hs, ?_, fun x hx => hword x (by simp [hs, hx])⟩
  have hc := h.word c (by simp [hs])
  have hd := h.head c (by simp [hs])
  simp only [isWordChar, Char.isAlphanum, Bool.or_eq_true, beq_iff_eq, hd] at hc
  simp only [isNameStart, Bool.or_eq_true, beq_iff_eq]
  tauto

end Text

namespace NameTable

theorem identifier_candidate {safe : String} (h : Text.Identifier safe) (counter : Nat) :
    Text.Identifier (candidate safe counter) := by
  unfold candidate
  split
  · exact h
  · refine h.append_digits fun c hc => ?_
    rw [Nat.toString_eq_repr, Nat.toList_repr] at hc
    exact Nat.isDigit_of_mem_toDigits (by decide) (by decide) hc

theorem identifier_firstFree (t : NameTable) {safe : String} (h : Text.Identifier safe) (s : Nat) :
    ∀ fuel counter, Text.Identifier (t.firstFree safe s fuel counter) := by
  intro fuel
  induction fuel with
  | zero => exact identifier_candidate h
  | succ fuel ih =>
    intro counter
    unfold firstFree
    split
    · exact ih (counter + 1)
    · exact identifier_candidate h counter

/-- **Every fresh name is an identifier.** -/
theorem identifier_distinct (t : NameTable) (base : String) (s : Nat) :
    Text.Identifier (t.distinct base s).1 :=
  identifier_firstFree t (Text.safeName_identifier base) s _ _

/-- A fresh name of a table that reserves the script's reserved words is a reference. -/
theorem isReference_distinct {t : NameTable} (hkw : ∀ k ∈ keywords, k ∈ t.reserved)
    (base : String) (s : Nat) : IsReference (t.distinct base s).1.toList := by
  have hfree := (isTaken_eq_false.1 (isTaken_distinct t base s)).1
  refine ⟨(identifier_distinct t base s).isName, .inl fun hk => hfree ?_⟩
  simpa using hkw _ hk

end NameTable

/-! ### The invariant -/

/-- The names a session has given out are references of the script: its table reserves the
script's reserved words, and every key and every helper has a name that is a reference. -/
structure Session.NamesAreReferences (s : Session) : Prop where
  keywords : ∀ k ∈ keywords, k ∈ s.names.reserved
  keys : s.names.KeyNames fun n => IsReference n.toList
  helpers : s.registry.HelperNames fun n => IsReference n.toList

namespace Session.NamesAreReferences

variable {s : Session}

/-- A reference is inline, so the keys' names of such a session are. -/
theorem keysInline (h : s.NamesAreReferences) : s.names.KeysInline := by
  intro d e he
  obtain ⟨⟨c, cs, hcs, hc, hcs'⟩, -⟩ := h.keys d e he
  refine Text.inline_of_plain (by rw [Ne, ← String.toList_inj, hcs]; simp) fun x hx => ?_
  have hpart : isNamePart x = true := by
    rw [hcs] at hx
    rcases List.mem_cons.1 hx with rfl | hx
    · exact isNamePart_of_isNameStart hc
    · exact hcs' x hx
  have hgap := isGap_eq_false_of_isNamePart hpart
  constructor <;> (rintro rfl; exact absurd hgap (by decide))

/-- A name given to a key is a reference. -/
theorem nameFor (h : s.NamesAreReferences) (key : String) (kind : NameKind) (sc : Nat) :
    IsReference (s.names.nameFor key kind sc).1.toList ∧
      (s.names.nameFor key kind sc).2.KeyNames fun n => IsReference n.toList :=
  h.keys.nameFor key kind sc (NameTable.isReference_distinct h.keywords key sc)

theorem reserved_nameFor (t : NameTable) (key : String) (kind : NameKind) (sc : Nat) :
    (t.nameFor key kind sc).2.reserved = t.reserved := by
  rw [NameTable.nameFor_eq]
  split <;> rfl

/-- A helper's name is a reference. -/
theorem provide (h : s.NamesAreReferences) (unit desired : String) (lines : List String) :
    IsReference (s.registry.provide s.names unit desired lines).1.toList ∧
      (s.registry.provide s.names unit desired lines).2.1.HelperNames
        (fun n => IsReference n.toList) ∧
      ((s.registry.provide s.names unit desired lines).2.2.1.reserved = s.names.reserved ∧
        (s.registry.provide s.names unit desired lines).2.2.1.KeyNames
          fun n => IsReference n.toList) := by
  obtain ⟨hname, hhelpers⟩ := h.helpers.provide (t := s.names) unit desired lines
    (NameTable.isReference_distinct h.keywords desired _)
  refine ⟨hname, hhelpers, ?_⟩
  unfold Registry.provide
  rcases s.registry.find? (.helper desired) with _ | d
  · exact ⟨rfl, h.keys.take _ _⟩
  · exact ⟨rfl, h.keys⟩

end Session.NamesAreReferences

open GenM

/-- **The names given out stay references**: an invariant of every generation. -/
def namesAreReferences : SessionInvariant where
  P := Session.NamesAreReferences
  congr := fun hnames hregistry hs =>
    ⟨hnames ▸ hs.keywords, hnames ▸ hs.keys, hregistry ▸ hs.helpers⟩
  prim := by
    intro β m hm ctx s hs
    cases hm with
    | read => exact hs
    | temporary base =>
      rw [exec_temporary]
      exact ⟨hs.keywords, hs.keys.take _ _, hs.helpers⟩
    | variableName key =>
      rw [exec_variableName]
      exact ⟨by rw [Session.NamesAreReferences.reserved_nameFor]; exact hs.keywords,
        (hs.nameFor key _ _).2, hs.helpers⟩
    | procedureName key =>
      rw [exec_procedureName]
      exact ⟨by rw [Session.NamesAreReferences.reserved_nameFor]; exact hs.keywords,
        (hs.nameFor key _ _).2, hs.helpers⟩
    | provide desired lines =>
      rw [exec_provide]
      obtain ⟨-, hhelpers, hreserved, hkeys⟩ := hs.provide ctx.config.indent desired lines
      revert hhelpers hreserved hkeys
      rcases s.registry.provide s.names ctx.config.indent desired lines with ⟨_, _, _, _⟩
      intro hhelpers hreserved hkeys
      exact ⟨hreserved ▸ hs.keywords, hkeys, hhelpers⟩
    | defineProcedure name code =>
      rw [exec_defineProcedure]
      exact ⟨hs.keywords, hs.keys, hs.helpers.insert (fun _ h => by cases h) _⟩
    | choose b field options =>
      rw [exec_choose]
      split
      · exact hs
      · split <;> exact hs
    | surroundingLoop => exact hs
    | invalidField node kind field value => exact hs
  openScope := fun s p hs => ⟨by simpa using hs.keywords, hs.keys.openScope p, hs.helpers⟩

namespace Generation

/-- **A generation starts with its names references**: the table reserves the script's reserved
words, and the workspace's variables are named before anything else. -/
theorem start_namesAreReferences (w : Workspace) (c : Config) : (start w c).NamesAreReferences := by
  have hkw : ∀ k ∈ keywords, k ∈ reservedWords ++ c.reservedWords := by
    have hall : keywords.all (reservedWords.contains ·) = true := by decide
    intro k hk
    exact List.mem_append_left _ (by simpa using List.all_eq_true.1 hall k hk)
  -- naming the variables one after the other keeps the keys' names references
  have hfold : ∀ (vs acc : List String) (t : NameTable), (∀ k ∈ keywords, k ∈ t.reserved) →
      t.KeyNames (fun n => IsReference n.toList) →
      let r := vs.foldl (fun p v =>
        ((p.1 ++ [(p.2.nameFor v .variable NameTable.global).1]),
          (p.2.nameFor v .variable NameTable.global).2)) (acc, t)
      (∀ k ∈ keywords, k ∈ r.2.reserved) ∧ r.2.KeyNames fun n => IsReference n.toList := by
    intro vs
    induction vs with
    | nil => exact fun _ _ hr hk => ⟨hr, hk⟩
    | cons v vs ih =>
      intro acc t hr hk
      have hnamed := hk.nameFor v .variable NameTable.global (NameTable.isReference_distinct hr _ _)
      exact ih _ _ (by rw [Session.NamesAreReferences.reserved_nameFor]; exact hr) hnamed.2
  have hcreate : (NameTable.create c.reservedWords).KeyNames fun n => IsReference n.toList := by
    intro d e he
    rw [NameTable.scope_eq] at he
    cases d <;> simp [NameTable.create, NameTable.noScope] at he
  obtain ⟨hr, hk⟩ := hfold w.usedVariables [] _ hkw hcreate
  refine ⟨hr, hk, ?_⟩
  unfold start Registry.declareVariables
  dsimp only
  split
  · intro desired d hd
    cases hd
  · refine Registry.HelperNames.insert (fun _ _ hd => ?_) (fun _ h => by cases h) _
    cases hd

end Generation

end BlockScribe
