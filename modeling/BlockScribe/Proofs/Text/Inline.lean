import BlockScribe.Proofs.Text.Reindent
import BlockScribe.Proofs.Generate.IndexConvention
import BlockScribe.Proofs.Naming.Fresh
/-!
# Texts that stand inside a line

Expressions are written inside lines, and a line of generated code keeps its meaning under
re-indenting only if no line of the expressions in it starts with a space.  Every text an
expression is made of is `Text.Inline` (no line starts with a space; not empty, and no final line
break) or at least `Text.Fits` (no line but its first starts with a space, no final line break):

* a quoted literal of a text whose lines start with no space (`Text.inline_quote`), since escaping
  only puts backslashes before characters; a literal of several lines, whatever the text, since
  each of its lines starts with a quote (`Text.inline_multilineQuote`);
* every name a name table hands out, made of letters, digits and underscores
  (`Text.inline_safeName`, `NameTable.KeysInline`);
* every number in generated code (`inline_formatNumber`), and index arithmetic over inline codes
  (`IndexExpr.inline_write`);
* brackets and text coercion around inline code.

Instrumentation snippets are statements: a snippet whose lines start with no space and that ends
its last line keeps both when the block's quoted id is put in for `%1` (`Config.injectId_flush`),
and comment lines, each starting with `//`, are flush and closed (`Workspace.commentLines_flush`).
-/

namespace BlockScribe

namespace Text

/-! ### Quoted literals -/

theorem flushFrom_flatMap_escapeChar (start : Bool) (cs : List Char) :
    flushFrom start (cs.flatMap escapeChar) = flushFrom start cs := by
  induction cs generalizing start with
  | nil => rfl
  | cons c cs ih =>
    -- an escape puts a backslash before the character, which starts nothing
    rw [List.flatMap_cons, flushFrom_append]
    by_cases h₁ : c = '\\'
    · subst h₁
      simp [escapeChar, flushFrom, endsLine, ih]
    by_cases h₂ : c = '\n'
    · subst h₂
      simp [escapeChar, flushFrom, endsLine, ih]
    by_cases h₃ : c = '\''
    · subst h₃
      simp [escapeChar, flushFrom, endsLine, ih]
    have hc : escapeChar c = [c] := by
      unfold escapeChar
      split <;> simp_all
    simp [hc, flushFrom, endsLine, ih]

/-- The literal of a text none of whose lines but the first starts with a space starts no line
with a space, and ends with its closing quote. -/
theorem quoteList_inline {cs : List Char} (h : flushFrom false cs = true) :
    flushFrom true (quoteList cs) = true ∧ endsLine true (quoteList cs) = false := by
  have hbody : flushFrom false (cs.flatMap escapeChar ++ ['\'']) = true := by
    rw [flushFrom_append, flushFrom_flatMap_escapeChar, h]
    cases endsLine false (cs.flatMap escapeChar) <;> rfl
  refine ⟨?_, ?_⟩
  · rw [quoteList, flushFrom]
    exact hbody
  · rw [quoteList, endsLine, endsLine_append]
    rfl

theorem inline_quote {s : String} (h : Flush s) : Inline (quote s) := by
  obtain ⟨h₁, h₂⟩ := quoteList_inline (flushFrom_false h)
  refine ⟨?_, ?_⟩
  · unfold Flush quote
    rw [String.toList_ofList]
    exact h₁
  · unfold Closed quote
    rw [String.toList_ofList, h₂]
    simp

theorem endsLine_of_endsLine_true {cs : List Char} (h : endsLine true cs = false) (start : Bool) :
    endsLine start cs = false := by
  cases cs with
  | nil => cases h
  | cons c cs => exact h

theorem flushFrom_of_inline {cs : List Char} (h : flushFrom true cs = true) (start : Bool) :
    flushFrom start cs = true := by
  cases start with
  | false => exact flushFrom_false h
  | true => exact h

/-- Inline texts joined by a separator none of whose lines but the first starts with a space. -/
theorem intercalate_inline {sep : List Char} (hsep : flushFrom false sep = true) :
    ∀ {xs : List (List Char)}, xs ≠ [] →
      (∀ x ∈ xs, flushFrom true x = true ∧ endsLine true x = false) →
      flushFrom true (sep.intercalate xs) = true ∧ endsLine true (sep.intercalate xs) = false
  | [], hne, _ => absurd rfl hne
  | [x], _, h => by simpa using h x List.mem_cons_self
  | x :: y :: ys, _, h => by
    obtain ⟨hx₁, hx₂⟩ := h x List.mem_cons_self
    obtain ⟨hr₁, hr₂⟩ := intercalate_inline hsep (List.cons_ne_nil y ys)
      fun z hz => h z (List.mem_cons_of_mem x hz)
    rw [List.intercalate_cons_cons, List.append_assoc]
    constructor
    · rw [flushFrom_append, hx₁, hx₂, flushFrom_append, hsep, flushFrom_of_inline hr₁]
      rfl
    · rw [endsLine_append, endsLine_append, endsLine_of_endsLine_true hr₂]

/-- A literal of several lines starts each line with a quote, whatever the text. -/
theorem inline_multilineQuote (s : String) : Inline (multilineQuote s) := by
  have hlines : ∀ x ∈ (lines s.toList).map quoteList,
      flushFrom true x = true ∧ endsLine true x = false := by
    intro x hx
    obtain ⟨l, hl, rfl⟩ := List.mem_map.1 hx
    exact quoteList_inline (flushFrom_false_of_not_mem (not_mem_of_mem_lines hl))
  obtain ⟨h₁, h₂⟩ := intercalate_inline
    (show flushFrom false " + '\\n' +\n".toList = true by decide)
    (by simpa using lines_ne_nil s.toList) hlines
  refine ⟨?_, ?_⟩
  · unfold Flush multilineQuote
    rw [String.toList_ofList]
    exact h₁
  · unfold Closed multilineQuote
    rw [String.toList_ofList, h₂]
    simp

/-! ### Putting in a block's id -/

/-- Replacing a pattern that does not end a line by a text that starts no line with a space and
does not end one keeps a text's lines from starting with a space, and keeps where it ends. -/
theorem replaceList_flushFrom {pat rep : List Char} (hpat : endsLine false pat = false)
    (hrep : flushFrom true rep = true) (hrep' : endsLine true rep = false) (cs : List Char) :
    ∀ start, flushFrom start cs = true →
      flushFrom start (replaceList pat rep cs) = true ∧
        endsLine start (replaceList pat rep cs) = endsLine start cs := by
  fun_induction replaceList pat rep cs with
  | case1 => exact fun _ _ => ⟨rfl, rfl⟩
  | case2 c rest hmatch ih =>
    intro start h
    -- the text is the pattern, then the rest
    obtain ⟨rest', hsplit⟩ := List.isPrefixOf_iff_prefix.1 hmatch.2
    have hdrop : (c :: rest).drop pat.length = rest' := by
      rw [← hsplit, List.drop_left]
    have hpat' : endsLine start pat = false := by
      obtain ⟨p, ps, hp⟩ := List.exists_cons_of_ne_nil hmatch.1
      rw [hp] at hpat ⊢
      exact hpat
    rw [← hsplit, flushFrom_append, hpat', Bool.and_eq_true] at h
    obtain ⟨hrest₁, hrest₂⟩ := ih false (hdrop ▸ h.2)
    rw [hdrop] at hrest₁ hrest₂ ⊢
    refine ⟨?_, ?_⟩
    · rw [flushFrom_append, flushFrom_of_inline hrep, endsLine_of_endsLine_true hrep', hrest₁]
      rfl
    · rw [endsLine_append, endsLine_of_endsLine_true hrep', hrest₂, ← hsplit, endsLine_append, hpat']
  | case3 c rest hmatch ih =>
    intro start h
    simp only [flushFrom, Bool.and_eq_true] at h
    obtain ⟨hrest₁, hrest₂⟩ := ih _ h.2
    exact ⟨by simp [flushFrom, h.1, hrest₁], by simp [endsLine, hrest₂]⟩

end Text

namespace Config

/-- A snippet whose lines start with no space and that ends its last line keeps both when a
block's quoted id, whose lines but the first start with no space, is put in for `%1`. -/
theorem injectId_flush {snippet : String} (hs : Text.Flush snippet) (hc : Text.Closed snippet)
    {b : Block} (hid : Text.Flush b.id) :
    Text.Flush (injectId snippet b) ∧ Text.Closed (injectId snippet b) := by
  have hrep₁ : Text.flushFrom true ("'" ++ b.id ++ "'").toList = true := by
    rw [String.toList_append, String.toList_append, Text.flushFrom_append, Text.flushFrom_append]
    simp only [Text.flushFrom_of_inline hid]
    simp [Text.flushFrom]
  have hrep₂ : Text.endsLine true ("'" ++ b.id ++ "'").toList = false := by
    rw [String.toList_append, Text.endsLine_append]
    rfl
  obtain ⟨h₁, h₂⟩ := Text.replaceList_flushFrom
    (show Text.endsLine false "%1".toList = false by decide) hrep₁ hrep₂
    snippet.toList true hs
  refine ⟨?_, ?_⟩
  · unfold Text.Flush injectId Text.replace
    rw [String.toList_ofList]
    exact h₁
  · unfold Text.Closed injectId Text.replace
    rw [String.toList_ofList, h₂]
    exact hc

end Config

/-! ### Names -/

namespace Text

theorem digit_plain {c : Char} (h : c.isDigit = true) : c ≠ ' ' ∧ c ≠ '\n' := by
  constructor <;> (rintro rfl; exact absurd h (by decide))

theorem toDigits_plain (n : Nat) : Plain (Nat.toDigits 10 n) :=
  fun _ hc => digit_plain (Nat.isDigit_of_mem_toDigits (by decide) (by decide) hc)

theorem inline_toString_nat (n : Nat) : Inline (toString n) := by
  refine inline_of_plain ?_ ?_
  · rw [Ne, ← String.toList_inj, Nat.toString_eq_repr, Nat.toList_repr]
    exact Nat.toDigits_ne_nil
  · rw [Nat.toString_eq_repr, Nat.toList_repr]
    exact toDigits_plain n

theorem inline_toString_int (i : Int) : Inline (toString i) := by
  rw [Int.toString_eq_repr, Int.repr_eq_if]
  split
  · exact inline_toString_nat _
  · exact (show Inline "-" by decide).append (inline_toString_nat _).fits

theorem hexDigit_plain {n : Nat} (h : n < 16) : hexDigit n ≠ ' ' ∧ hexDigit n ≠ '\n' := by
  have hall : ∀ n < 16, hexDigit n ≠ ' ' ∧ hexDigit n ≠ '\n' := by decide
  exact hall n h

theorem byteEscape_plain (b : UInt8) : Plain (byteEscape b) := by
  have hlt := b.toNat_lt
  exact plain_cons (by decide) (plain_cons (hexDigit_plain (by omega))
    (plain_cons (hexDigit_plain (Nat.mod_lt _ (by decide))) plain_nil))

/-- How a character is written in an identifier: at least one character, none a space or a line
break. -/
theorem safeChar_plain (c : Char) : safeChar c ≠ [] ∧ Plain (safeChar c) := by
  unfold safeChar
  split
  · rename_i hword
    refine ⟨by simp, plain_cons ?_ plain_nil⟩
    constructor <;> (rintro rfl; exact absurd hword (by decide))
  · split
    · exact ⟨by simp, plain_cons (by decide) plain_nil⟩
    · obtain ⟨b, hb⟩ := List.exists_mem_of_ne_nil _ String.utf8EncodeChar_ne_nil
      exact ⟨List.ne_nil_of_mem (a := '_') (List.mem_flatMap.2 ⟨b, hb, List.mem_cons_self⟩),
        plain_flatMap fun b _ => byteEscape_plain b⟩

/-- **Identifiers are inline**: not empty, with neither spaces nor line breaks. -/
theorem inline_safeName (s : String) : Inline (safeName s) := by
  unfold safeName
  split
  · decide
  · rename_i hs
    have hplain : Plain (s.toList.flatMap safeChar) := plain_flatMap fun c _ => (safeChar_plain c).2
    have hne : s.toList.flatMap safeChar ≠ [] := by
      obtain ⟨c, cs, hcs⟩ := List.exists_cons_of_ne_nil
        (mt String.toList_eq_nil_iff.1 (by simpa using hs))
      rw [hcs, List.flatMap_cons]
      exact fun h => (safeChar_plain c).1 (List.append_eq_nil_iff.1 h).1
    dsimp only
    split
    · rename_i c rest hout
      split
      · -- a leading digit gets the prefix `my_`
        refine inline_of_plain (by simp) ?_
        rw [String.toList_ofList]
        exact plain_cons (by decide) (plain_cons (by decide) (plain_cons (by decide) hplain))
      · refine inline_of_plain (by rw [hout]; simp) ?_
        rw [String.toList_ofList]
        exact hplain
    · rename_i hout
      exact absurd hout hne

end Text

namespace NameTable

variable {t : NameTable}

theorem inline_candidate {safe : String} (h : Text.Inline safe) (counter : Nat) :
    Text.Inline (candidate safe counter) := by
  unfold candidate
  split
  · exact h
  · exact h.append (Text.inline_toString_nat counter).fits

theorem inline_firstFree {safe : String} (h : Text.Inline safe) (s : Nat) :
    ∀ fuel counter, Text.Inline (t.firstFree safe s fuel counter) := by
  intro fuel
  -- on the tries left: each taken candidate moves on to the next counter
  induction fuel with
  | zero => exact inline_candidate h
  | succ fuel ih =>
    intro counter
    unfold firstFree
    split
    · exact ih (counter + 1)
    · exact inline_candidate h counter

/-- **Every fresh name is inline.** -/
theorem inline_distinct (t : NameTable) (base : String) (s : Nat) :
    Text.Inline (t.distinct base s).1 :=
  inline_firstFree (Text.inline_safeName base) s _ _

/-- Every name that a table has given a key is inline. -/
def KeysInline (t : NameTable) : Prop := ∀ d, ∀ e ∈ (t.scope d).keys, Text.Inline e.2

theorem scope_keys_modify {s : Nat} {f : Scope → Scope} (hf : ∀ sc, (f sc).keys = sc.keys)
    (i : Nat) :
    (({ t with scopes := t.scopes.modify s f } : NameTable).scope i).keys = (t.scope i).keys := by
  rw [scope_eq, scope_eq, Array.getElem?_modify]
  split
  · cases t.scopes[i]? <;> simp [hf]
  · rfl

theorem keysInline_create (extra : List String) : (create extra).KeysInline := by
  intro d e he
  rw [scope_eq] at he
  cases d <;> simp [create, noScope] at he

theorem KeysInline.take (h : t.KeysInline) (n : String) (s : Nat) : (t.take n s).KeysInline := by
  intro d e he
  rw [NameTable.take, scope_keys_modify (f := fun sc => { sc with taken := sc.taken ++ [n] })
    (fun _ => rfl)] at he
  exact h d e he

theorem KeysInline.openScope (h : t.KeysInline) (p : Nat) : (t.openScope p).2.KeysInline := by
  intro d e he
  rw [scope_openScope] at he
  split at he
  · simp at he
  · exact h d e he

theorem KeysInline.addKey (h : t.KeysInline) (s : Nat) {entry : (NameKind × String) × String}
    (hentry : Text.Inline entry.2) : (t.addKey s entry).KeysInline := by
  intro d e he
  rw [NameTable.addKey, scope_eq, Array.getElem?_modify] at he
  split at he
  · cases hsc : t.scopes[d]? with
    | none => simp [hsc, noScope] at he
    | some sc =>
      rw [hsc] at he
      simp only [Option.map_some, Option.getD_some, List.mem_append, List.mem_singleton] at he
      rcases he with he | rfl
      · exact h d e (by rw [scope_eq, hsc]; exact he)
      · exact hentry
  · exact h d e (by rw [scope_eq]; exact he)

/-- A name that a key has in a table whose key names are inline is inline. -/
theorem KeysInline.lookup (h : t.KeysInline) {key : String} {kind : NameKind} {s : Nat}
    {n : String} (hn : t.lookup key kind s = some n) : Text.Inline n := by
  unfold NameTable.lookup at hn
  obtain ⟨d, -, hd⟩ := List.exists_of_findSome?_eq_some hn
  obtain ⟨e, he, rfl⟩ := Option.map_eq_some_iff.1 hd
  exact h d e (List.mem_of_find?_eq_some he)

/-- **Naming a key gives an inline name**, and keeps every key's name inline. -/
theorem KeysInline.nameFor (h : t.KeysInline) (key : String) (kind : NameKind) (s : Nat) :
    Text.Inline (t.nameFor key kind s).1 ∧ (t.nameFor key kind s).2.KeysInline := by
  rw [nameFor_eq]
  split
  · rename_i n hn
    exact ⟨h.lookup hn, h⟩
  · exact ⟨inline_distinct t key s, (h.take _ s).addKey s (inline_distinct t key s)⟩

end NameTable

/-! ### Numbers -/

namespace Notation

/-- A decimal in any notation: at least one character, none a space or a line break. -/
theorem writeDecimal_plain (n : Notation) (d : Decimal) :
    n.writeDecimal d ≠ [] ∧ Text.Plain (n.writeDecimal d) := by
  have hds := Text.toDigits_plain d.digits
  have hzeros : ∀ k, Text.Plain (zeros k) := by
    intro k c hc
    rw [zeros] at hc
    rw [List.eq_of_mem_replicate hc]
    decide
  unfold writeDecimal
  dsimp only
  split
  · split
    · -- the digits, the zeros of the exponent, and the point and zero the notation may want
      refine ⟨by simp [Nat.toDigits_ne_nil], (hds.append (hzeros _)).append ?_⟩
      split
      · exact Text.plain_cons (by decide) (Text.plain_cons (by decide) Text.plain_nil)
      · exact Text.plain_nil
    · split
      · exact ⟨by simp, (hds.sublist (List.take_sublist _ _)).append
          (Text.plain_cons (by decide) (hds.sublist (List.drop_sublist _ _)))⟩
      · exact ⟨by simp,
          Text.plain_cons (by decide) (Text.plain_cons (by decide) ((hzeros _).append hds))⟩
  · -- the mantissa, then `e`, the exponent's sign and its digits
    refine ⟨by simp, Text.Plain.append ?_
      (Text.plain_cons (by decide) (Text.Plain.append ?_ (Text.toDigits_plain _)))⟩
    · -- the mantissa: the digits, with a point after the first
      split
      · rename_i hds'
        rw [hds'] at hds
        exact hds
      · rename_i hds'
        rw [hds'] at hds
        obtain ⟨hc, hrest⟩ := List.forall_mem_cons.1 hds
        exact Text.plain_cons hc (Text.plain_cons (by decide) hrest)
      · exact Text.plain_nil
    · split
      · exact Text.plain_cons (by decide) Text.plain_nil
      · split
        · exact Text.plain_cons (by decide) Text.plain_nil
        · exact Text.plain_nil

end Notation

/-- **Numbers in generated code are inline.** -/
theorem inline_formatNumber (v : Binary64) : Text.Inline (formatNumber v) := by
  unfold formatNumber
  split
  · decide
  · split <;> decide
  · split
    · exact Text.inline_toString_int _
    · rename_i negative m e
      -- a sign, then a decimal
      have hbody : ∀ d : Decimal, Notation.script.writeDecimal d ≠ [] ∧
          Text.Plain (Notation.script.writeDecimal d) :=
        Notation.writeDecimal_plain _
      rw [Notation.write]
      refine Text.inline_of_plain ?_ ?_
      · rw [Ne, ← String.toList_inj, String.toList_ofList, String.toList_empty,
          List.append_eq_nil_iff, not_and_or]
        right
        split
        · exact (hbody _).1
        · exact (hbody _).1
      · rw [String.toList_ofList]
        refine Text.Plain.append ?_ ?_
        · split
          · exact Text.plain_cons (by decide) Text.plain_nil
          · exact Text.plain_nil
        · split
          · exact (hbody _).2
          · exact (hbody _).2

namespace IndexExpr

/-- Index arithmetic whose codes are all inline. -/
def CodesInline : IndexExpr → Prop
  | code c => Text.Inline c
  | num _ => True
  | plus e _ => e.CodesInline
  | minus e _ => e.CodesInline
  | neg e => e.CodesInline
  | paren e => e.CodesInline

/-- **Index arithmetic over inline codes is inline.** -/
theorem inline_write : ∀ {e : IndexExpr}, e.CodesInline → Text.Inline e.write
  | code _, h => h
  | num x, _ => inline_formatNumber x
  | plus e d, h =>
    ((inline_write (e := e) h).append (by decide)).append (Text.inline_toString_int d).fits
  | minus e d, h =>
    ((inline_write (e := e) h).append (by decide)).append (Text.inline_toString_int d).fits
  | neg e, h => (show Text.Inline "-" by decide).append (inline_write (e := e) h).fits
  | paren e, h =>
    ((show Text.Inline "(" by decide).append (inline_write (e := e) h).fits).append (by decide)

theorem codesInline_shifted {pos : String} (h : Text.Inline pos) (delta : Int) (negate : Bool)
    (order : Order) : (shifted pos delta negate order).CodesInline := by
  unfold shifted
  cases numeral pos with
  | some v => trivial
  | none =>
    dsimp only
    split_ifs <;> simp_all [CodesInline, apply_ite CodesInline]

end IndexExpr

/-- **A list position is inline** when the code of its slot is. -/
theorem inline_shiftIndex {pos : String} (h : Text.Inline pos) (delta : Int) (negate : Bool)
    (order : Order) : Text.Inline (shiftIndex pos delta negate order) := by
  rw [← IndexExpr.write_shifted]
  exact IndexExpr.inline_write (IndexExpr.codesInline_shifted h delta negate order)

theorem inline_bracket {code : String} (h : Text.Inline code) (inner outer : Order) :
    Text.Inline (bracket code inner outer) := by
  unfold bracket
  split
  · exact ((show Text.Inline "(" by decide).append h.fits).append (by decide)
  · exact h

theorem inline_forceString {code : String} (h : Text.Inline code) :
    Text.Inline (forceString code) := by
  unfold forceString
  split
  · exact h
  · exact ((show Text.Inline "String(" by decide).append h.fits).append (by decide)

/-! ### Lines with a prefix -/

namespace Text

theorem closed_prefixLines {s : String} (h : Closed s) (pre : String) :
    Closed (prefixLines s pre) := by
  unfold Closed prefixLines
  rw [String.toList_ofList]
  rcases endsLine_iff.1 h with ⟨hs, -⟩ | hlast
  · rw [hs]
    rfl
  · obtain ⟨a, ha⟩ := List.getLast?_eq_some_iff.1 hlast
    rw [ha, prefixList_of_getLast (by simp), endsLine_append]
    rfl

/-- Lines that each start with a prefix that starts with neither a space nor a line break, and
holds no line break, start with no space. -/
theorem flush_prefixLines {s : String} (h : Closed s) {pre : String} {c : Char}
    {rest : List Char} (hpre : pre.toList = c :: rest) (hc : c ≠ ' ') (hnl : '\n' ∉ pre.toList) :
    Flush (prefixLines s pre) := by
  unfold Flush prefixLines
  rw [String.toList_ofList]
  rcases endsLine_iff.1 h with ⟨hs, -⟩ | hlast
  · rw [hs]
    rfl
  · obtain ⟨a, ha⟩ := List.getLast?_eq_some_iff.1 hlast
    rw [ha]
    -- every line of the result but the empty last one starts with the prefix
    have hlines := lines_prefixList (a := a) hnl
    obtain ⟨y, B, hyB⟩ := List.exists_cons_of_ne_nil (lines_ne_nil a)
    rw [hyB, List.map_cons, List.cons_append] at hlines
    refine flushFrom_of_lines hlines (fun _ => by simp [hpre, hc]) fun l hl => ?_
    simp only [List.mem_append, List.mem_map, List.mem_singleton] at hl
    rcases hl with ⟨m, -, rfl⟩ | rfl
    · simp [hpre, hc]
    · simp

theorem Flush.join {xs : List String} (h : ∀ x ∈ xs, Flush x ∧ Closed x) :
    Flush (String.join xs) ∧ Closed (String.join xs) := by
  induction xs with
  | nil => exact ⟨rfl, rfl⟩
  | cons x xs ih =>
    obtain ⟨hx₁, hx₂⟩ := h x List.mem_cons_self
    obtain ⟨hr₁, hr₂⟩ := ih fun y hy => h y (List.mem_cons_of_mem x hy)
    rw [String.join_cons]
    exact ⟨hx₁.append hx₂ hr₁, hx₂.append hr₂⟩

theorem closed_join {xs : List String} (h : ∀ x ∈ xs, Closed x) : Closed (String.join xs) := by
  induction xs with
  | nil => rfl
  | cons x xs ih =>
    rw [String.join_cons]
    exact (h x List.mem_cons_self).append (ih fun y hy => h y (List.mem_cons_of_mem x hy))

/-- Lines after `// `: flush and closed, whatever they say. -/
theorem comment_flush {s : String} (h : Closed s) :
    Flush (prefixLines s "// ") ∧ Closed (prefixLines s "// ") :=
  ⟨flush_prefixLines h rfl (by decide) (by decide), closed_prefixLines h _⟩

end Text

namespace Workspace

/-- **Comment lines are flush and closed**: every line starts with `//`. -/
theorem commentLines_flush (w : Workspace) (reach : Nat) (b : Block) :
    Text.Flush (w.commentLines reach b) ∧ Text.Closed (w.commentLines reach b) := by
  have hnested : ∀ x ∈ b.values.contents.map fun child =>
      Text.prefixLines (w.nestedComments reach child) "// ", Text.Flush x ∧ Text.Closed x := by
    intro x hx
    obtain ⟨child, -, rfl⟩ := List.mem_map.1 hx
    refine Text.comment_flush (Text.closed_join fun y hy => ?_)
    obtain ⟨i, -, hi⟩ := List.mem_filterMap.1 hy
    obtain ⟨note, -, rfl⟩ := Option.map_eq_some_iff.1 hi
    exact Text.closed_append_newline note
  obtain ⟨hj₁, hj₂⟩ := Text.Flush.join hnested
  unfold commentLines
  -- the block's own comment, if any, comes first
  cases b.note? with
  | some c =>
    obtain ⟨hown₁, hown₂⟩ := Text.comment_flush (Text.closed_append_newline c)
    exact ⟨hown₁.append hown₂ hj₁, hown₂.append hj₂⟩
  | none => exact ⟨hj₁, hj₂⟩

end Workspace

end BlockScribe
