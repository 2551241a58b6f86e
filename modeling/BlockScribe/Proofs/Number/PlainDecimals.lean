import BlockScribe.Generate.Rules.Loops
/-!
# Plain decimals are numbers

The generator asks whether code is a plain decimal (`Text.isNumber`) before it reads the number
in it (`parseNumber`), in two places: the literal test of a counting loop (`Rules.numeral?`) and
the folding of a list position into one literal (`shiftIndex`).  The two are written apart.  The
test trims the code, takes off one minus and looks for digits around at most one point; the
reader trims the code, checks that it holds only characters of numerals and reads it as a
numeral (`Numeral.read?`), which also takes a plus, exponents and the words `inf` and `nan`.

A plain decimal (`PlainDecimal`) is a sign, a run of digits and, if it has a point, a run of
digits after it: its text is `-?digits(.digits)?`.  The test accepts exactly the texts that are
one, blanks around them allowed (`Text.isNumber_iff`), and the reader reads each as the decimal
it spells (`PlainDecimal.read?_text`).  So the reader never fails where the test holds: a loop
bound that passes the test is a number, and a list position that passes it is folded
(`isNumber_reads_as_decimal`).
-/

namespace BlockScribe

/-- A plain decimal `-?digits(.digits)?`: its sign, the digits before its point and, if it has a
point, the digits after it. -/
structure PlainDecimal where
  negative : Bool
  whole : List Char
  frac : Option (List Char)
  whole_digits : Text.isDigits whole = true
  frac_digits : ∀ f ∈ frac, Text.isDigits f = true

namespace PlainDecimal

/-- The point and the digits after it, if written. -/
def fracText (d : PlainDecimal) : List Char := (d.frac.map ('.' :: ·)).getD []

/-- The decimal without its sign. -/
def unsigned (d : PlainDecimal) : List Char := d.whole ++ d.fracText

/-- The decimal as written. -/
def text (d : PlainDecimal) : List Char := (if d.negative then ['-'] else []) ++ d.unsigned

/-- The numeral a decimal spells: all its digits, scaled down by one place per digit after the
point. -/
def numeral (d : PlainDecimal) : Numeral :=
  .decimal d.negative (Numeral.digitsValue (d.whole ++ d.frac.getD []))
    (-((d.frac.getD []).length : Int))

/-- The binary64 value nearest the decimal. -/
def value (d : PlainDecimal) : Binary64 := d.numeral.value

end PlainDecimal

namespace Text

theorem isDigits_iff {cs : List Char} :
    isDigits cs = true ↔ cs ≠ [] ∧ ∀ c ∈ cs, c.isDigit = true := by
  simp [isDigits, List.all_eq_true]

end Text

theorem toLower_of_isDigit {c : Char} (h : c.isDigit = true) : c.toLower = c := by
  simp only [Char.isDigit, Bool.and_eq_true, decide_eq_true_eq] at h
  unfold Char.toLower
  rw [dif_neg]
  -- a digit is below `A`
  rintro ⟨hA, -⟩
  have h9 := UInt32.le_iff_toNat_le.1 h.2
  have hA' := UInt32.le_iff_toNat_le.1 hA
  simp at h9 hA'
  omega

namespace PlainDecimal

variable (d : PlainDecimal)

theorem whole_ne_nil : d.whole ≠ [] := (Text.isDigits_iff.1 d.whole_digits).1

theorem isDigit_of_mem_whole {c : Char} (hc : c ∈ d.whole) : c.isDigit = true :=
  (Text.isDigits_iff.1 d.whole_digits).2 c hc

theorem isDigits_of_frac_eq {f : List Char} (hf : d.frac = some f) : Text.isDigits f = true :=
  d.frac_digits f (by simp [hf])

/-- No character of the digits is one that is not a digit. -/
theorem ne_of_mem_whole {c x : Char} (hc : c ∈ d.whole) (hx : x.isDigit = false) : c ≠ x := by
  rintro rfl
  rw [d.isDigit_of_mem_whole hc] at hx
  exact Bool.noConfusion hx

theorem not_point_of_mem_whole {c : Char} (hc : c ∈ d.whole) : (c != '.') = true :=
  bne_iff_ne.2 (d.ne_of_mem_whole hc (by decide))

theorem takeWhile_unsigned : d.unsigned.takeWhile (· != '.') = d.whole := by
  rw [unsigned, List.takeWhile_append_of_pos fun _ => d.not_point_of_mem_whole]
  cases hf : d.frac <;> simp [fracText, hf]

theorem dropWhile_unsigned : d.unsigned.dropWhile (· != '.') = d.fracText := by
  rw [unsigned, List.dropWhile_append_of_pos fun _ => d.not_point_of_mem_whole]
  cases hf : d.frac <;> simp [fracText, hf]

theorem text_eq_unsigned (h : d.negative = false) : d.text = d.unsigned := by
  simp [text, h]

/-- Digits, with a sign if asked, are a decimal. -/
theorem exists_of_digits (negative : Bool) {u : List Char} (h : Text.isDigits u = true) :
    ∃ d : PlainDecimal, (if negative then ['-'] else []) ++ u = d.text :=
  ⟨⟨negative, u, none, h, by simp⟩, by simp [text, unsigned, fracText]⟩

/-- Digits up to the first point and digits after it, with a sign if asked, are a decimal. -/
theorem exists_of_point (negative : Bool) {u frac : List Char} {p : Char}
    (hpoint : u.dropWhile (· != '.') = p :: frac)
    (h : (Text.isDigits (u.takeWhile (· != '.')) && Text.isDigits frac) = true) :
    ∃ d : PlainDecimal, (if negative then ['-'] else []) ++ u = d.text := by
  rw [Bool.and_eq_true] at h
  have hp : p = '.' := by
    have := @List.head_dropWhile_not _ (· != '.') u (by simp [hpoint])
    simpa [hpoint] using this
  subst hp
  refine ⟨⟨negative, u.takeWhile (· != '.'), some frac, h.1, by simpa using h.2⟩, ?_⟩
  have hu : u = u.takeWhile (· != '.') ++ '.' :: frac := by
    rw [← hpoint, List.takeWhile_append_dropWhile]
  simp only [text, unsigned, fracText, Option.map_some, Option.getD_some]
  rw [← hu]

end PlainDecimal

namespace Text

theorem exists_plainDecimal_of_isNumber {t : String} (h : isNumber t = true) :
    ∃ d : PlainDecimal, (trim t).toList = d.text := by
  simp only [isNumber] at h
  rw [trim, String.toList_ofList]
  generalize dropTrailingBlanks (dropBlanks t.toList) = ds at h ⊢
  rcases ds with _ | ⟨c, rest⟩
  · simp [isDigits] at h
  -- a leading minus is the sign; the digits and the point are looked for after it
  by_cases hc : c = '-'
  · subst hc
    simp only at h
    split at h
    next => exact PlainDecimal.exists_of_digits true h
    next _ _ _ hpoint => exact PlainDecimal.exists_of_point true hpoint h
  · simp [hc] at h
    split at h
    next => exact PlainDecimal.exists_of_digits false h
    next _ _ _ hpoint => exact PlainDecimal.exists_of_point false hpoint h

theorem isNumber_of_text {t : String} {d : PlainDecimal} (h : (trim t).toList = d.text) :
    isNumber t = true := by
  rw [trim, String.toList_ofList] at h
  simp only [isNumber, h]
  obtain ⟨w, ws, hw⟩ := List.exists_cons_of_ne_nil d.whole_ne_nil
  cases hneg : d.negative
  · -- no sign: the text starts with a digit, which the test keeps
    have hminus : w ≠ '-' := d.ne_of_mem_whole (hw ▸ List.mem_cons_self) (by decide)
    have hu : d.unsigned = w :: (ws ++ d.fracText) := by simp [PlainDecimal.unsigned, hw]
    rw [d.text_eq_unsigned hneg, hu]
    simp [hminus]
    rw [← hu, d.dropWhile_unsigned, d.takeWhile_unsigned]
    cases hf : d.frac with
    | none => simp [PlainDecimal.fracText, PlainDecimal.unsigned, hf, d.whole_digits]
    | some f => simp [PlainDecimal.fracText, hf, d.whole_digits, d.isDigits_of_frac_eq hf]
  · simp [PlainDecimal.text, hneg]
    rw [d.dropWhile_unsigned, d.takeWhile_unsigned]
    cases hf : d.frac with
    | none => simp [PlainDecimal.fracText, PlainDecimal.unsigned, hf, d.whole_digits]
    | some f => simp [PlainDecimal.fracText, hf, d.whole_digits, d.isDigits_of_frac_eq hf]

/-- **The test for numbers accepts exactly the plain decimals**, blanks around them allowed:
`^\s*-?\d+(\.\d+)?\s*$`. -/
theorem isNumber_iff (t : String) : isNumber t = true ↔ ∃ d : PlainDecimal, (trim t).toList = d.text :=
  ⟨exists_plainDecimal_of_isNumber, fun ⟨_, hd⟩ => isNumber_of_text hd⟩

end Text

namespace Numeral

theorem spanDigits_of_isDigits {f : List Char} (h : Text.isDigits f = true) :
    spanDigits f = (f, []) := by
  have hall := (Text.isDigits_iff.1 h).2
  have ht := @List.takeWhile_append_of_pos _ _ _ [] hall
  have hd := @List.dropWhile_append_of_pos _ _ _ [] hall
  simp only [List.append_nil, List.takeWhile_nil, List.dropWhile_nil] at ht hd
  simp [spanDigits, ht, hd]

/-- A text that starts with a digit, put in lower case, is no word that starts otherwise. -/
theorem lowered_ne {u : List Char} {w : Char} (hu : u.head? = some w) (hw : w.isDigit = true)
    (s : String) (hs : ∀ x, s.toList.head? = some x → x.isDigit = false) :
    (String.ofList (u.map Char.toLower) == s) = false := by
  rw [beq_eq_false_iff_ne]
  intro h
  have := congrArg (fun s : String => s.toList.head?) h
  simp only [String.toList_ofList, List.head?_map, hu, Option.map_some, toLower_of_isDigit hw] at this
  rw [hs w this.symm] at hw
  exact Bool.noConfusion hw

end Numeral

namespace PlainDecimal

variable (d : PlainDecimal)

theorem spanDigits_unsigned : Numeral.spanDigits d.unsigned = (d.whole, d.fracText) := by
  have hall : ∀ c ∈ d.whole, c.isDigit = true := fun _ => d.isDigit_of_mem_whole
  simp only [Numeral.spanDigits, unsigned, List.takeWhile_append_of_pos hall,
    List.dropWhile_append_of_pos hall]
  cases hf : d.frac <;> simp [fracText, hf]

theorem readUnsigned?_unsigned (negative : Bool) :
    Numeral.readUnsigned? negative d.unsigned = some (.decimal negative
      (Numeral.digitsValue (d.whole ++ d.frac.getD [])) (-((d.frac.getD []).length : Int))) := by
  obtain ⟨w, ws, hw⟩ := List.exists_cons_of_ne_nil d.whole_ne_nil
  have hhead : d.unsigned.head? = some w := by simp [unsigned, hw]
  have hdigit : w.isDigit = true := d.isDigit_of_mem_whole (by simp [hw])
  unfold Numeral.readUnsigned?
  simp only [Numeral.lowered_ne hhead hdigit "inf" (by simp),
    Numeral.lowered_ne hhead hdigit "infinity" (by simp),
    Numeral.lowered_ne hhead hdigit "nan" (by simp), spanDigits_unsigned]
  -- digits before the point, so the reading goes on to the digits after it and the exponent
  cases hf : d.frac with
  | none => simp [fracText, hf, hw, Numeral.readExponent?]
  | some f =>
    simp [fracText, hf, hw, Numeral.spanDigits_of_isDigits (d.isDigits_of_frac_eq hf),
      Numeral.readExponent?]

/-- **A plain decimal is read as the decimal it spells.** -/
theorem read?_text : Numeral.read? d.text = some d.numeral := by
  obtain ⟨w, ws, hw⟩ := List.exists_cons_of_ne_nil d.whole_ne_nil
  have hu : d.unsigned = w :: (ws ++ d.fracText) := by simp [unsigned, hw]
  cases hneg : d.negative
  · -- no sign: the text starts with a digit, neither plus nor minus
    have hplus : w ≠ '+' := d.ne_of_mem_whole (hw ▸ List.mem_cons_self) (by decide)
    have hminus : w ≠ '-' := d.ne_of_mem_whole (hw ▸ List.mem_cons_self) (by decide)
    rw [d.text_eq_unsigned hneg, hu]
    simp [Numeral.read?, hplus, hminus]
    rw [← hu, readUnsigned?_unsigned, numeral, hneg]
  · simp [text, hneg, Numeral.read?, readUnsigned?_unsigned, numeral]

theorem all_isNumeralChar_text : d.text.all isNumeralChar = true := by
  have hdigits : ∀ cs, Text.isDigits cs = true → ∀ c ∈ cs, isNumeralChar c = true :=
    fun cs h c hc => by simp [isNumeralChar, (Text.isDigits_iff.1 h).2 c hc]
  rw [List.all_eq_true]
  intro c hc
  simp only [text, unsigned, fracText, List.mem_append] at hc
  rcases hc with hc | hc | hc
  · cases d.negative <;> simp_all [isNumeralChar]
  · exact hdigits _ d.whole_digits c hc
  · cases hf : d.frac with
    | none => simp [hf] at hc
    | some f =>
      simp only [hf, Option.map_some, Option.getD_some, List.mem_cons] at hc
      rcases hc with rfl | hc
      · rfl
      · exact hdigits f (d.isDigits_of_frac_eq hf) c hc

end PlainDecimal

theorem parseNumber_of_text {t : String} {d : PlainDecimal} (h : (Text.trim t).toList = d.text) :
    parseNumber t = some d.value := by
  rw [Text.trim, String.toList_ofList] at h
  have hne : d.text ≠ [] := by simp [PlainDecimal.text, PlainDecimal.unsigned, d.whole_ne_nil]
  simp [parseNumber, h, hne, d.all_isNumeralChar_text, d.read?_text, PlainDecimal.value]

/-- A list position that is a numeral is folded, with the shift and the negation, into one
number. -/
theorem shiftIndex_of_numeral {pos : String} {v : Binary64} (hn : Text.isNumber pos = true)
    (hv : parseNumber pos = some v) (delta : Int) (negate : Bool) (order : Order) :
    shiftIndex pos delta negate order = formatNumber
      (if negate then (v.add (Binary64.ofInt delta)).neg else v.add (Binary64.ofInt delta)) := by
  simp [shiftIndex, hn, hv]

/-- **What passes the test for numbers is read as a number.**  Code that `isNumber` accepts is,
trimmed, a plain decimal; `parseNumber` reads it as the binary64 value nearest that decimal; the
literal test of a counting loop finds that number; and a list position in that code is folded,
shifted and negated as asked, into one number, whatever the order it stands under. -/
theorem isNumber_reads_as_decimal {t : String} (ht : Text.isNumber t = true) :
    ∃ d : PlainDecimal, (Text.trim t).toList = d.text ∧ parseNumber t = some d.value ∧
      Rules.numeral? t = some d.value ∧
      ∀ delta negate order, shiftIndex t delta negate order = formatNumber
        (if negate then (d.value.add (Binary64.ofInt delta)).neg
          else d.value.add (Binary64.ofInt delta)) := by
  obtain ⟨d, hd⟩ := (Text.isNumber_iff t).1 ht
  have hv := parseNumber_of_text hd
  exact ⟨d, hd, hv, by simp [Rules.numeral?, ht, hv], shiftIndex_of_numeral ht hv⟩

theorem minus_twelve_and_a_half_reads : Text.isNumber " -12.5 " = true ∧
    ∃ d : PlainDecimal, (Text.trim " -12.5 ").toList = d.text ∧
      parseNumber " -12.5 " = some d.value ∧ Rules.numeral? " -12.5 " = some d.value ∧
      ∀ delta negate order, shiftIndex " -12.5 " delta negate order = formatNumber
        (if negate then (d.value.add (Binary64.ofInt delta)).neg
          else d.value.add (Binary64.ofInt delta)) :=
  ⟨by decide, isNumber_reads_as_decimal (by decide)⟩

end BlockScribe
