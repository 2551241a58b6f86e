import BlockScribe.Text.Identifier
/-!
# Identifiers

An identifier of generated code (`Text.Identifier`) is a nonempty text of ASCII letters, digits
and underscores that does not start with a digit.  `Text.safeName` makes one of every text: each
character is written by letters, digits and underscores (`Text.safeChar_word`), and at least one
(`Text.safeChar_ne_nil`), a leading digit gets the prefix `my_`, and the empty text is
`unnamed`.  A character of an identifier is written as itself (`Text.safeChar_of_word`), so an
identifier is its own safe name, and making a safe name twice changes nothing
(`Text.safeName_identifier_idempotent`).
-/

namespace BlockScribe
namespace Text

/-- A nonempty text of ASCII letters, digits and underscores that does not start with a digit. -/
structure Identifier (s : String) : Prop where
  ne_empty : s ≠ ""
  word : ∀ c ∈ s.toList, isWordChar c = true
  head : ∀ c ∈ s.toList.head?, c.isDigit = false

/-! ### Characters -/

theorem hexDigit_word {n : Nat} (h : n < 16) : isWordChar (hexDigit n) = true := by
  have hall : ∀ n < 16, isWordChar (hexDigit n) = true := by decide
  exact hall n h

theorem byteEscape_word (b : UInt8) : ∀ c ∈ byteEscape b, isWordChar c = true := by
  have hlt := b.toNat_lt
  simp only [byteEscape, List.mem_cons, List.not_mem_nil, or_false]
  rintro c (rfl | rfl | rfl)
  · decide
  · exact hexDigit_word (by omega)
  · exact hexDigit_word (Nat.mod_lt _ (by decide))

/-- Every character is written by letters, digits and underscores. -/
theorem safeChar_word (c : Char) : ∀ d ∈ safeChar c, isWordChar d = true := by
  unfold safeChar
  split
  · rename_i hword
    simpa using hword
  · split
    · simp [isWordChar]
    · intro d hd
      obtain ⟨b, -, hdb⟩ := List.mem_flatMap.1 hd
      exact byteEscape_word b d hdb

theorem safeChar_ne_nil (c : Char) : safeChar c ≠ [] := by
  unfold safeChar
  split
  · simp
  · split
    · simp
    · obtain ⟨b, hb⟩ := List.exists_mem_of_ne_nil _ String.utf8EncodeChar_ne_nil
      exact List.ne_nil_of_mem (a := '_') (List.mem_flatMap.2 ⟨b, hb, List.mem_cons_self⟩)

/-- A letter, digit or underscore is written as itself. -/
theorem safeChar_of_word {c : Char} (h : isWordChar c = true) : safeChar c = [c] := by
  simp [safeChar, h]

theorem flatMap_safeChar_of_word {cs : List Char} (h : ∀ c ∈ cs, isWordChar c = true) :
    cs.flatMap safeChar = cs := by
  induction cs with
  | nil => rfl
  | cons c cs ih =>
    rw [List.flatMap_cons, safeChar_of_word (h c List.mem_cons_self),
      ih fun d hd => h d (List.mem_cons_of_mem c hd)]
    rfl

/-! ### Names -/

/-- **Every text has an identifier for a safe name.** -/
theorem safeName_identifier (s : String) : Identifier (safeName s) := by
  unfold safeName
  split
  · refine ⟨by decide, ?_, ?_⟩
    · simp only [String.reduceToList, List.mem_cons, List.not_mem_nil, or_false]
      rintro c (rfl | rfl | rfl | rfl | rfl | rfl | rfl) <;> rfl
    · simp only [String.reduceToList, List.head?_cons, Option.mem_def, Option.some.injEq]
      rintro c rfl
      rfl
  · rename_i hs
    -- the characters written, not empty since the text is not
    have hword : ∀ c ∈ s.toList.flatMap safeChar, isWordChar c = true := fun c hc => by
      obtain ⟨d, -, hcd⟩ := List.mem_flatMap.1 hc
      exact safeChar_word d c hcd
    obtain ⟨c, cs, hcs⟩ := List.exists_cons_of_ne_nil
      (mt String.toList_eq_nil_iff.1 (by simpa using hs))
    obtain ⟨d, ds, hout⟩ := List.exists_cons_of_ne_nil (l := s.toList.flatMap safeChar) (by
      rw [hcs, List.flatMap_cons]
      exact fun h => safeChar_ne_nil c (List.append_eq_nil_iff.1 h).1)
    dsimp only
    rw [hout] at hword ⊢
    dsimp only
    by_cases hd : d.isDigit = true
    · -- a leading digit gets the prefix `my_`
      rw [if_pos hd]
      refine ⟨by simp, fun e he => ?_, by simp⟩
      rw [String.toList_ofList] at he
      simp only [List.mem_cons] at he
      rcases he with rfl | rfl | rfl | he
      · decide
      · decide
      · decide
      · exact hword e (List.mem_cons.2 he)
    · rw [if_neg hd]
      refine ⟨by simp, fun e he => hword e (by simpa using he), ?_⟩
      simpa using hd

/-- An identifier is its own safe name. -/
theorem safeName_of_identifier {s : String} (h : Identifier s) : safeName s = s := by
  have hempty : s.isEmpty = false := by simpa using h.ne_empty
  obtain ⟨c, cs, hcs⟩ := List.exists_cons_of_ne_nil (mt String.toList_eq_nil_iff.1 h.ne_empty)
  have hc : c.isDigit = false := h.head c (by simp [hcs])
  unfold safeName
  rw [if_neg (by simp [hempty]), flatMap_safeChar_of_word h.word]
  dsimp only
  rw [hcs]
  dsimp only
  rw [if_neg (by simp [hc]), ← hcs, String.ofList_toList]

/-- The texts that are their own safe names are exactly the identifiers. -/
theorem safeName_eq_self_iff (s : String) : safeName s = s ↔ Identifier s :=
  ⟨fun h => h ▸ safeName_identifier s, safeName_of_identifier⟩

/-- **A safe name is an identifier, and making it safe again changes nothing.** -/
theorem safeName_identifier_idempotent (s : String) :
    Identifier (safeName s) ∧ safeName (safeName s) = safeName s :=
  ⟨safeName_identifier s, safeName_of_identifier (safeName_identifier s)⟩

end Text
end BlockScribe
