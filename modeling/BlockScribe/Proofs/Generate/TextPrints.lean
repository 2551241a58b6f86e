import BlockScribe.Proofs.Generate.RulePrints
import BlockScribe.Proofs.Generate.Substring
import BlockScribe.Proofs.Text.Reindent
/-!
# What the text rules print

Each text rule prints its block's tree (`Printed`).  A text constant is its literal.  A text of
several lines is a literal for each line, each after the first added to an explicit line feed and
broken after its `+` (`Form.multiline`), the whole bracketed: the code holds a line feed exactly
when the text has more than one line, since a line holds none (`Text.not_mem_of_mem_pieces`) and
a literal writes none but for one in its text.  Joined texts are coerced by `forceString`; the
other rules call methods on a text asked for as a member's object, or helpers on operands asked
for as arguments, with list positions from `Children.Operands.adjustedIndex`.  A part of a text
is written inline or through a helper as `Rules.textGetSubstring_eq` says, its ends printed by
`substringStart_printed` and `substringEnd_printed`.
-/

namespace BlockScribe

open Script GenM Rules

/-! ### Lines of a text -/

namespace Text

/-- No piece of a text holds the character it was cut at. -/
theorem not_mem_of_mem_pieces (sep : Char) (cs : List Char) : ∀ p ∈ pieces sep cs, sep ∉ p := by
  induction cs with
  | nil => simp [pieces]
  | cons c rest ih =>
    by_cases hc : c = sep
    · subst hc
      simpa [pieces] using ih
    · obtain ⟨p, ps, hp⟩ := List.exists_cons_of_ne_nil (pieces_ne_nil sep rest)
      rw [pieces_cons_of_ne hc hp]
      rw [hp] at ih
      intro q hq
      rcases List.mem_cons.1 hq with rfl | hq
      · simp [Ne.symm hc, ih p (by simp)]
      · exact ih q (List.mem_cons_of_mem _ hq)

theorem newline_mem_flatMap_escapeChar (cs : List Char) :
    '\n' ∈ cs.flatMap escapeChar ↔ '\n' ∈ cs := by
  induction cs with
  | nil => simp
  | cons c cs ih =>
    rw [List.flatMap_cons, List.mem_append, ih, List.mem_cons, escapeChar_eq]
    split <;> simp [eq_comm]

end Text

theorem List.intercalate_cons_flatten {α : Type} (sep x : List α) (ys : List (List α)) :
    sep.intercalate (x :: ys) = x ++ (ys.map (sep ++ ·)).flatten := by
  induction ys generalizing x with
  | nil => simp
  | cons y ys ih =>
    rw [List.intercalate_cons_cons, ih]
    simp

/-! ### Texts of several lines -/

namespace Script.Form

/-- One more line of a text: the literal so far, an explicit line feed, and the line's literal
on the next line. -/
def addLine (acc : Form) (l : List Char) : Form :=
  addBreak (bin .add acc (str ['\\', 'n'])) (str (l.flatMap Text.escapeChar))

/-- A text of several lines printed, a literal for each line. -/
def multiline (first : List Char) (rest : List (List Char)) : Form :=
  rest.foldl addLine (str (first.flatMap Text.escapeChar))

theorem code_foldl_addLine (acc : Form) (rest : List (List Char)) :
    (rest.foldl addLine acc).code =
      acc.code ++ (rest.map fun l => " + '\\n' +\n".toList ++ Text.quoteList l).flatten := by
  induction rest generalizing acc with
  | nil => simp
  | cons l rest ih => simp [ih, addLine, Text.quoteList, BinOp.text]

theorem sem_foldl_addLine (acc : Form) (rest : List (List Char)) :
    (rest.foldl addLine acc).sem = rest.foldl (fun e l => Expr.bin .add
      (Expr.bin .add e (Expr.str ['\\', 'n'])) (Expr.str (l.flatMap Text.escapeChar))) acc.sem := by
  induction rest generalizing acc with
  | nil => rfl
  | cons l rest ih => simp [ih, addLine]

/-- Lines added to a sum are a sum. -/
theorem wf_foldl_addLine {acc : Form} (hacc : acc.WF Written) (hl : acc.level ≤ .additive)
    (rest : List (List Char)) :
    (rest.foldl addLine acc).WF Written ∧ (rest.foldl addLine acc).level ≤ .additive := by
  induction rest generalizing acc with
  | nil => exact ⟨hacc, hl⟩
  | cons l rest ih =>
    refine ih (.addBreak (.bin hacc (.str (.inl (.escape rfl .nil))) hl (Level.primary_le _))
      (.str (.inr ⟨l, rfl⟩)) (Level.le_refl _) (Level.primary_le _)) (Level.le_refl _)

theorem foldl_addLine_cons (acc : Form) (l : List Char) (rest : List (List Char)) :
    ∃ x y, (l :: rest).foldl addLine acc = addBreak x y := by
  induction rest generalizing acc l with
  | nil => exact ⟨_, _, rfl⟩
  | cons l' rest ih => exact ih (addLine acc l) l'

end Script.Form

section

variable {ch : Children} {w : Workspace} {ob : Bool} {b : Block}

/-! ### Constants -/

theorem text_printed : Gives w ob (Printed w ob .text b) (text ch b) :=
  .pure ⟨_, _, _, rfl, .atom (Operand.quote .atomic _).text_eq (Operand.quote .atomic _).wf rfl
    (fun _ h => by cases h) rfl, (Form.sem_str _).symm ▸ .text⟩

theorem textMultiline_printed : Gives w ob (Printed w ob .textMultiline b) (textMultiline ch b) := by
  obtain ⟨first, rest, hlines⟩ :=
    List.exists_cons_of_ne_nil (Text.lines_ne_nil (textField b "TEXT").toList)
  have hcode : (Text.multilineQuote (textField b "TEXT")).toList = (Form.multiline first rest).code := by
    rw [Text.multilineQuote, String.toList_ofList, hlines, List.map_cons,
      List.intercalate_cons_flatten, Form.multiline, Form.code_foldl_addLine]
    simp [Text.quoteList, Function.comp_def]
  -- a line holds no line feed, and so neither does its literal
  have hfirst : '\n' ∉ first :=
    Text.not_mem_of_mem_pieces '\n' _ first (by rw [← Text.lines, hlines]; simp)
  have hcontains : (Text.multilineQuote (textField b "TEXT")).contains '\n' = !rest.isEmpty := by
    have hlist : ∀ s : String, s.contains '\n' = s.toList.contains '\n' := fun s => by
      simp [String.contains]
    rw [hlist, hcode]
    cases rest with
    | nil =>
      have hlit : '\n' ∉ first.flatMap Text.escapeChar := by
        rwa [Text.newline_mem_flatMap_escapeChar]
      simpa [Form.multiline] using hlit
    | cons l rest =>
      rw [Form.multiline, Form.code_foldl_addLine]
      simp
  have hhead : (Form.str (first.flatMap Text.escapeChar)).WF Written := .str (.inr ⟨first, rfl⟩)
  have hwf := Form.wf_foldl_addLine hhead (Level.primary_le _) rest
  have hsem : (Form.multiline first rest).sem = Expr.multiline first rest := by
    rw [Form.multiline, Form.sem_foldl_addLine, Form.sem_str]
    rfl
  refine .pure ?_
  cases rest with
  | nil =>
    -- one line: its literal
    rw [hcontains]
    exact ⟨_, _, Form.multiline first [], rfl,
      .atom hcode hwf.1 rfl (fun _ h => by cases h) rfl, hsem ▸ .multiline hlines⟩
  | cons l rest =>
    -- several lines: a bracketed sum
    rw [hcontains]
    obtain ⟨x, y, hxy⟩ := Form.foldl_addLine_cons (.str (first.flatMap Text.escapeChar)) l rest
    refine ⟨_, _, .paren (Form.multiline first (l :: rest)), rfl,
      ⟨by simp [hcode], .paren hwf.1, Level.le_refl _, ?_, rfl,
        fun h => by simp [Form.isStr, Form.quotedWord] at h⟩, by rw [Form.sem_paren, hsem]; exact .multiline hlines⟩
    rw [Form.faithful_paren, Form.multiline, hxy, Form.sem_addBreak]
    exact ⟨rfl, rfl⟩

/-! ### Joining texts -/

theorem textJoin_printed (hch : ch.Operands w ob b) :
    Gives w ob (Printed w ob .textJoin b) (textJoin ch b) := by
  unfold textJoin
  -- no item is the empty text, one is coerced, two are added, more are joined as an array
  rcases hn : connectedArity b (b.extra.itemCount.getD 2) ["ADD"] with _ | _ | _ | count
  · exact .pure ⟨_, _, .str [], rfl, .atom (by simp) (.str (.inl .nil)) rfl (fun _ h => by cases h)
      rfl, (Form.sem_str _).symm ▸ .joinNone hn⟩
  · refine .bind (hch.valueOr "ADD0" .unbound (Operand.emptyText _)) fun x hx => .pure ?_
    obtain ⟨ox, fx, hxt, hx, hxs, -, -⟩ := hx
    obtain ⟨hp, hsem⟩ := hx.forceString
    refine ⟨_, _, _, rfl, hp, ?_⟩
    rw [hsem, hxs, Form.sem_str]
    exact .joinOne hn hxt
  · refine .bind (hch.valueOr "ADD0" .unbound (Operand.emptyText _)) fun x hx =>
      .bind (hch.valueOr "ADD1" .unbound (Operand.emptyText _)) fun y hy => .pure ?_
    obtain ⟨ox, fx, hxt, hx, hxs, -, -⟩ := hx
    obtain ⟨oy, fy, hyt, hy, hys, -, -⟩ := hy
    obtain ⟨hpx, hsx⟩ := hx.forceString
    obtain ⟨hpy, hsy⟩ := hy.forceString
    refine ⟨_, _, .bin .add fx.asText fy.asText, rfl,
      .compound (by simp [hpx.text_eq, hpy.text_eq, BinOp.text])
        (.bin hpx.wf hpy.wf (Level.le_trans hpx.level_le (by decide))
          (Level.le_trans hpy.level_le (by decide))) (Level.le_refl _) (Form.compound_bin _ _ _), ?_⟩
    rw [Form.sem_bin, hsx, hsy, hxs, hys, Form.sem_str]
    exact .joinTwo hn hxt hyt
  · refine .bind (Gives.mapM (R := fun i c => Filled w ob b ("ADD" ++ toString i) .comma (.str []) c)
      _ fun _ _ => hch.valueOr _ _ (Operand.emptyText _)) fun xs hxs => .pure ?_
    obtain ⟨ots, fs, htrees, hcodes, hwf, hsems⟩ := Filled.forall₂ hxs
    obtain ⟨hlen, hslots⟩ := SlotTree.forall₂_range htrees
    have harray : (Form.array fs).WF Written :=
      .array (fun f hf => (hwf f hf).1) fun f hf => (hwf f hf).2
    refine ⟨_, _, .call (.member (.array fs) "join".toList) [.str []], rfl,
      .compound (by simp [hcodes]) (Form.WF.method harray (Level.primary_le _) rfl (by decide)
        (by simp [(Operand.emptyText .comma).wf])) (Level.le_refl _) (Form.compound_call _ _), ?_⟩
    simp only [Form.sem_call, Form.sem_member, Form.sem_array, Form.sem_str, List.map_cons,
      List.map_nil, hsems]
    exact .joinMany (by rw [hn, hlen]) (by omega) hslots

/-! ### Measures of a text -/

theorem textLength_printed (hch : ch.Operands w ob b) :
    Gives w ob (Printed w ob .textLength b) (textLength ch b) := by
  refine .bind (hch.valueOr "VALUE" .call (Operand.emptyText _)) fun t ht => .pure ?_
  obtain ⟨ot, f, htree, hf, hsem, hnum⟩ := ht.elim rfl
  refine ⟨_, _, .member f "length".toList, rfl, .compound (by simp [hf.text_eq])
    (.member hf.wf hf.level_le (hf.endsNum_eq_false (Level.le_refl _) hnum)
      (Lx.isName_of_nameText (by decide))) (Level.le_refl _) (Form.compound_member _ _), ?_⟩
  rw [Form.sem_member, hsem, Form.sem_str]
  exact .length htree

theorem textIsEmpty_printed (hch : ch.Operands w ob b) :
    Gives w ob (Printed w ob .textIsEmpty b) (textIsEmpty ch b) := by
  refine .bind (hch.valueOr "VALUE" .member (Operand.emptyText _)) fun t ht => .pure ?_
  obtain ⟨ot, f, htree, hf, hsem, hnum⟩ := ht.elim rfl
  have hmember : (Form.member f "length".toList).WF Written :=
    .member hf.wf hf.level_le (hf.endsNum_eq_false (Level.le_refl _) hnum)
      (Lx.isName_of_nameText (by decide))
  refine ⟨_, _, .not (.member f "length".toList), rfl, .compound (by simp [hf.text_eq])
    (.not hmember (show Level.lhs ≤ .unary by decide) (by simpa [Form.head] using hf.wf.head_ne_eq))
    (Level.le_refl _)
    (Form.compound_not _), ?_⟩
  rw [Form.sem_not, Form.sem_member, hsem, Form.sem_str]
  exact .isEmpty htree

theorem textIndexOf_printed (hch : ch.Operands w ob b) :
    Gives w ob (Printed w ob .textIndexOf b) (textIndexOf ch b) := by
  refine .bind (Gives.choose b "END" rfl) fun first hfirst =>
    .bind (hch.valueOr "FIND" .unbound (Operand.emptyText _)) fun n hn =>
    .bind (hch.valueOr "VALUE" .member (Operand.emptyText _)) fun t ht =>
    .bind Gives.read fun ctx hctx => ?_
  have hfield : (b.field? "END").getD "FIRST" = if first then "FIRST" else "LAST" := by
    cases first <;> simpa using hfirst
  obtain ⟨on, fn, hnt, hn, hns, -, -⟩ := hn
  obtain ⟨ot, ft, htt, ht, hts, htnum⟩ := ht.elim rfl
  have hname : Lx.nameText (if first then "indexOf" else "lastIndexOf").toList = true := by
    cases first <;> decide
  have hfound : (Form.call (.member ft (if first then "indexOf" else "lastIndexOf").toList)
      [fn]).WF Written := ht.method (Level.le_refl _) htnum hname (by simp [hn.wf])
  have htree := @Denotes.indexOf _ ob _ _ _ _ hfield hnt htt
  have hempty : (Form.str []).sem = Expr.emptyText := by rw [Form.sem_str]; rfl
  rw [hempty] at hns hts
  rw [← hns, ← hts] at htree
  rw [hctx.2]
  have hcode : (t ++ "." ++ (if first then "indexOf" else "lastIndexOf") ++ "(" ++ n ++ ")").toList =
      (Form.call (.member ft (if first then "indexOf" else "lastIndexOf").toList) [fn]).code := by
    simp [ht.text_eq, hn.text_eq]
  -- from one, the position found is shifted by one
  cases ob
  · refine .pure ⟨_, _, _, rfl, .compound hcode hfound (Level.le_refl _) (Form.compound_call _ _), ?_⟩
    simpa [Form.sem_call, Form.sem_member, Expr.method_eq] using htree
  · refine .pure ⟨_, _, .bin .add (.call (.member ft (if first then "indexOf" else "lastIndexOf").toList)
      [fn]) (.num ['1']), rfl, .compound (by simp [hcode, BinOp.text])
      (.bin hfound (Operand.firstPosition true .unbound).wf (by rw [Form.level_call]; decide)
        (Level.primary_le _))
      (Level.le_refl _) (Form.compound_bin _ _ _), ?_⟩
    simpa [Form.sem_call, Form.sem_member, Expr.numeral, Expr.method_eq] using htree

/-! ### Letters of a text -/

/-- The numeral `1` negated, as `slice(-1)` writes it. -/
theorem Script.Form.wf_minusOne : (Form.neg (.num ['1'])).WF Written :=
  .neg (Operand.firstPosition true .unbound).wf (Level.primary_le _) (by decide) (by decide)

theorem textCharAt_printed (hch : ch.Operands w ob b) :
    Gives w ob (Printed w ob .textCharAt b) (textCharAt ch b) := by
  have hempty : (Form.str []).sem = Expr.emptyText := by rw [Form.sem_str]; rfl
  have h0 : (Form.num ['0']).sem = Expr.numeral "0" := by simp [Expr.numeral]
  refine .bind (Gives.choose b "WHERE" rfl) fun pos hpos => ?_
  -- the text is asked for as a member's object, but as an argument for a random letter
  cases pos <;> simp only [LetterAt.options, List.mem_cons, Prod.mk.injEq, reduceCtorEq, and_false,
    and_true, false_or, or_false, List.not_mem_nil] at hpos <;> dsimp only <;>
    simp only [bind_assoc, pure_bind]
  · -- from the start: `t.charAt(i)`
    refine .bind (hch.valueOr "VALUE" .member (Operand.emptyText _)) fun t ht =>
      .bind (hch.adjustedIndex "AT" (.inl rfl) (fun h : false = true => absurd h (by decide))
        (show 6 ≤ Order.unbound.tier by decide)) fun i hi => .pure ?_
    obtain ⟨ot, ft, htt, hft, hts, hnum⟩ := ht.elim rfl
    obtain ⟨a, g, hat, hg, hgs⟩ := hi
    refine ⟨_, _, .call (.member ft "charAt".toList) [g], rfl, .compound (by simp [hft.text_eq,
      hg.text_eq]) (hft.method (Level.le_refl _) hnum (by decide) (by simp [hg.wf]))
      (Level.le_refl _) (Form.compound_call _ _), ?_⟩
    rw [hempty] at hts
    simpa [Expr.method_eq, hts, hgs] using Denotes.letterFromStart hpos htt hat
  · -- from the end: `t.slice(-i).charAt(0)`
    refine .bind (hch.valueOr "VALUE" .member (Operand.emptyText _)) fun t ht =>
      .bind (hch.adjustedIndex "AT" (.inr rfl) (fun _ : true = true => rfl)
        (show 6 ≤ Order.unbound.tier by decide)) fun i hi => .pure ?_
    obtain ⟨ot, ft, htt, hft, hts, hnum⟩ := ht.elim rfl
    obtain ⟨a, g, hat, hg, hgs⟩ := hi
    have hslice : (Form.call (.member ft "slice".toList) [g]).WF Written :=
      hft.method (Level.le_refl _) hnum (by decide) (by simp [hg.wf])
    refine ⟨_, _, .call (.member (.call (.member ft "slice".toList) [g]) "charAt".toList)
      [.num ['0']], rfl, .compound (by simp [hft.text_eq, hg.text_eq])
      (Form.WF.method hslice (Level.le_refl _) rfl (by decide) (by simp [(Operand.zero .unbound).wf]))
      (Level.le_refl _) (Form.compound_call _ _), ?_⟩
    rw [hempty] at hts
    simpa [Expr.method_eq, hts, hgs, h0] using Denotes.letterFromEnd hpos htt hat
  · -- the first letter: `t.charAt(0)`
    refine .bind (hch.valueOr "VALUE" .member (Operand.emptyText _)) fun t ht => .pure ?_
    obtain ⟨ot, ft, htt, hft, hts, hnum⟩ := ht.elim rfl
    refine ⟨_, _, .call (.member ft "charAt".toList) [.num ['0']], rfl, .compound
      (by simp [hft.text_eq]) (hft.method (Level.le_refl _) hnum (by decide)
        (by simp [(Operand.zero .unbound).wf])) (Level.le_refl _) (Form.compound_call _ _), ?_⟩
    rw [hempty] at hts
    simpa [Expr.method_eq, hts, h0] using Denotes.firstLetter hpos htt
  · -- the last letter: `t.slice(-1)`
    refine .bind (hch.valueOr "VALUE" .member (Operand.emptyText _)) fun t ht => .pure ?_
    obtain ⟨ot, ft, htt, hft, hts, hnum⟩ := ht.elim rfl
    refine ⟨_, _, .call (.member ft "slice".toList) [.neg (.num ['1'])], rfl, .compound
      (by simp [hft.text_eq]) (hft.method (Level.le_refl _) hnum (by decide)
        (by simp [Form.wf_minusOne])) (Level.le_refl _) (Form.compound_call _ _), ?_⟩
    rw [hempty] at hts
    simpa [Expr.method_eq, hts, Expr.numeral] using Denotes.lastLetter hpos htt
  · -- a random letter, by a helper called on the text
    refine .bind (hch.valueOr "VALUE" .unbound (Operand.emptyText _)) fun t ht =>
      .bind (Gives.provide _ _) fun h hh => .pure ?_
    obtain ⟨ot, ft, htt, hft, hts, -⟩ := ht.elim rfl
    refine ⟨_, _, .call (.name h.toList) [ft], rfl, .compound (by simp [hft.text_eq])
      (Form.WF.callName hh (by simp [hft.wf])) (Level.le_refl _) (Form.compound_call _ _), ?_⟩
    rw [hempty] at hts
    simpa [hts] using Denotes.randomLetter hpos htt hh

/-! ### Parts of a text -/

/-- A start written inline, for a text printed as `ft` and asked for as a call's callee: the
position a slot holds, or a count back from the text's length, or zero. -/
theorem substringStart_printed (hch : ch.Operands w ob b) {t : String} {ft : Form}
    (ht : Operand .call t ft) (hnum : ft.isNumeric = false) (start : PartStart) :
    Gives w ob (fun code => ∃ (a : Option Expr) (f : Form), (start ≠ .first → SlotTree w ob b "AT1" a) ∧
      code.toList = f.code ∧ f.WF Written ∧ f.sem = startAt ob ft.sem start a)
      (substringStart ch t start) := by
  cases start
  · refine (hch.adjustedIndex "AT1" (.inl rfl) (fun h : false = true => absurd h (by decide))
      (show 6 ≤ Order.unbound.tier by decide)).mono ?_
    rintro code ⟨a, g, ha, hg, hgs⟩
    exact ⟨a, g, fun _ => ha, hg.text_eq, hg.wf, hgs⟩
  · -- `t.length - i`, the position asked for as the right operand of the difference
    refine .bind (hch.adjustedIndex "AT1" (.inr rfl) (fun h : false = true => absurd h (by decide))
      (show 6 ≤ Order.subtraction.tier by decide)) fun i hi => .pure ?_
    obtain ⟨a, g, ha, hg, hgs⟩ := hi
    have hlength : (Form.member ft "length".toList).WF Written :=
      .member ht.wf ht.level_le (ht.endsNum_eq_false (Level.le_refl _) hnum)
        (Lx.isName_of_nameText (by decide))
    refine ⟨a, .bin .sub (.member ft "length".toList) g, fun _ => ha,
      by simp [ht.text_eq, hg.text_eq, BinOp.text], .bin hlength hg.wf
        (by rw [Form.level_member]; decide) hg.level_le, by simp [startAt, hgs]⟩
  · exact .pure ⟨none, .num ['0'], fun h => absurd rfl h, by simp, (Operand.zero .unbound).wf,
      by simp [startAt, Expr.numeral]⟩

/-- An end written inline, for a text printed as `ft` and asked for as a call's callee: the
position a slot holds, a count back from the text's length, or that length. -/
theorem substringEnd_printed (hch : ch.Operands w ob b) {t : String} {ft : Form}
    (ht : Operand .call t ft) (hnum : ft.isNumeric = false) (stop : PartEnd) :
    Gives w ob (fun code => ∃ (a : Option Expr) (f : Form), (stop ≠ .last → SlotTree w ob b "AT2" a) ∧
      code.toList = f.code ∧ f.WF Written ∧ f.sem = endAt ob ft.sem stop a)
      (substringEnd ch t stop) := by
  have hlength : (Form.member ft "length".toList).WF Written :=
    .member ht.wf ht.level_le (ht.endsNum_eq_false (Level.le_refl _) hnum)
      (Lx.isName_of_nameText (by decide))
  cases stop
  · refine (hch.adjustedIndex "AT2" (.inr rfl) (fun h : false = true => absurd h (by decide))
      (show 6 ≤ Order.unbound.tier by decide)).mono ?_
    rintro code ⟨a, g, ha, hg, hgs⟩
    exact ⟨a, g, fun _ => ha, hg.text_eq, hg.wf, hgs⟩
  · refine .bind (hch.adjustedIndex "AT2" (.inl rfl) (fun h : false = true => absurd h (by decide))
      (show 6 ≤ Order.subtraction.tier by decide)) fun i hi => .pure ?_
    obtain ⟨a, g, ha, hg, hgs⟩ := hi
    refine ⟨a, .bin .sub (.member ft "length".toList) g, fun _ => ha,
      by simp [ht.text_eq, hg.text_eq, BinOp.text], .bin hlength hg.wf
        (by rw [Form.level_member]; decide) hg.level_le, by simp [endAt, hgs]⟩
  · exact .pure ⟨none, .member ft "length".toList, fun h => absurd rfl h, by simp [ht.text_eq],
      hlength, by simp [endAt]⟩

/-- The position a helper is given for one end, when it takes one. -/
theorem substringArg_printed (hch : ch.Operands w ob b) (slot : String) (takes : Bool) :
    Gives w ob (fun r => ∃ (a : Option Expr) (fs : List Form), (takes = true → SlotTree w ob b slot a) ∧
      r.toList.map String.toList = fs.map Form.code ∧ (∀ f ∈ fs, f.WF Written) ∧
      fs.map Form.sem = if takes then [Expr.position ob 0 false a] else [])
      (substringArg ch slot takes) := by
  unfold substringArg
  cases takes
  · exact .pure ⟨none, [], fun h => absurd h (by decide), rfl, by simp, rfl⟩
  · refine .map _ (hch.adjustedIndex slot (.inl rfl) (fun h : false = true => absurd h (by decide))
      (show 6 ≤ Order.unbound.tier by decide)) fun i hi => ?_
    obtain ⟨a, g, ha, hg, hgs⟩ := hi
    exact ⟨a, [g], fun _ => ha, by simp [hg.text_eq], by simp [hg.wf], by simp [hgs]⟩

theorem textGetSubstring_printed (hch : ch.Operands w ob b) :
    Gives w ob (Printed w ob .textGetSubstring b) (textGetSubstring ch b) := by
  rw [textGetSubstring_eq]
  refine .bind (hch.valueOr "STRING" .call (Operand.emptyText _)) fun t ht =>
    .bind (Gives.choose b "WHERE1" rfl) fun start hstart =>
    .bind (Gives.choose b "WHERE2" rfl) fun stop hstop => ?_
  obtain ⟨ot, ft, htt, hft, hts, hnum⟩ := ht.elim rfl
  have hempty : (Form.str []).sem = Expr.emptyText := by rw [Form.sem_str]; rfl
  rw [hempty] at hts
  have hname₁ : (b.field? "WHERE1").getD "FROM_START" = start.name := by
    cases start <;> simpa [PartStart.options, PartStart.name] using hstart
  have hname₂ : (b.field? "WHERE2").getD "FROM_START" = stop.name := by
    cases stop <;> simpa [PartEnd.options, PartEnd.name] using hstop
  by_cases hwhole : start = .first ∧ stop = .last
  · -- the whole text, as it is
    obtain ⟨rfl, rfl⟩ := hwhole
    refine .pure ⟨t, .call, ft, rfl, ⟨hft.text_eq, hft.wf, hft.level_le,
      hft.faithful (by decide) (by decide), hnum, fun _ => Order.bare_call⟩, ?_⟩
    rw [hts]
    exact .wholeText hname₁ hname₂ htt
  have hnot : (start == .first && stop == .last) = false := by
    simpa using hwhole
  rw [hnot, if_neg (by decide)]
  -- the tests read the text's code as they read its tree
  have hword : Text.isQuotedWord t = (ot.getD Expr.emptyText).isQuotedWord := by
    have := hft.wf.isQuotedWord_code
    rw [← hft.text_eq, String.ofList_toList] at this
    rw [this, (hft.faithful (by decide) (by decide)).2, hts]
  have hlen : (start == .fromEnd || stop == .fromEnd || stop == .last) = needsLength start stop := rfl
  rw [hlen, hword]
  by_cases hin : ((ot.getD Expr.emptyText).isQuotedWord || !needsLength start stop) = true
  · -- inline: `t.slice(at1, at2)`
    rw [if_pos hin]
    refine .bind (substringStart_printed hch hft hnum start) fun at₁ h₁ =>
      .bind (substringEnd_printed hch hft hnum stop) fun at₂ h₂ => .pure ?_
    obtain ⟨a₁, f₁, ha₁, hc₁, hw₁, hs₁⟩ := h₁
    obtain ⟨a₂, f₂, ha₂, hc₂, hw₂, hs₂⟩ := h₂
    refine ⟨_, _, .call (.member ft "slice".toList) [f₁, f₂], rfl, .compound
      (by simp [hft.text_eq, hc₁, hc₂]) (hft.method (Level.le_refl _) hnum (by decide)
        (by simp [hw₁, hw₂])) (Level.le_refl _) (Form.compound_call _ _), ?_⟩
    have htree := Denotes.slice hname₁ hname₂ hwhole htt hin ha₁ ha₂
    rw [← hts] at htree
    simpa [Expr.method_eq, hs₁, hs₂] using htree
  · -- through the helper for the two ends, on the text and the positions it takes
    rw [if_neg hin]
    refine .bind (substringArg_printed hch "AT1" _) fun at₁ h₁ =>
      .bind (substringArg_printed hch "AT2" _) fun at₂ h₂ =>
      .bind (Gives.provide _ _) fun h hh => .pure ?_
    obtain ⟨a₁, fs₁, ha₁, hc₁, hw₁, hs₁⟩ := h₁
    obtain ⟨a₂, fs₂, ha₂, hc₂, hw₂, hs₂⟩ := h₂
    refine ⟨_, _, .call (.name h.toList) (ft :: (fs₁ ++ fs₂)), rfl, .compound ?_
      (Form.WF.callName hh ?_) (Level.le_refl _) (Form.compound_call _ _), ?_⟩
    · rw [Form.code_call, Form.code_name, List.map_cons, List.intercalate_cons_flatten,
        List.map_append, List.map_append, ← hc₁, ← hc₂]
      -- each end gives at most one position
      rcases at₁ with _ | x₁ <;> rcases at₂ with _ | x₂ <;> simp [hft.text_eq]
    · intro f hf
      rcases List.mem_cons.1 hf with rfl | hf
      · exact hft.wf
      · rcases List.mem_append.1 hf with hf | hf
        · exact hw₁ f hf
        · exact hw₂ f hf
    · have htree := Denotes.subsequence hname₁ hname₂ hwhole htt (Bool.eq_false_iff.2 hin)
        (fun h => ha₁ (by simpa using h)) (fun h => ha₂ (by simpa using h)) hh
      rw [← hts] at htree
      simp only [Form.sem_call, Form.sem_name, List.map_cons, List.map_append, hs₁, hs₂]
      convert htree using 4 <;> simp

/-! ### Cases, blanks, prompts, counts, replacements and reversals -/

theorem textChangeCase_printed (hch : ch.Operands w ob b) :
    Gives w ob (Printed w ob .textChangeCase b) (textChangeCase ch b) := by
  have hempty : (Form.str []).sem = Expr.emptyText := by rw [Form.sem_str]; rfl
  refine .bind (Gives.choose b "CASE" rfl) fun method hmethod => ?_
  simp only [List.mem_cons, Prod.mk.injEq, List.not_mem_nil, or_false] at hmethod
  -- upper and lower case call a method on the text, title case a helper
  rcases hmethod with ⟨hm, rfl⟩ | ⟨hm, rfl⟩ | ⟨hm, rfl⟩
  · refine .bind (hch.valueOr "TEXT" .member (Operand.emptyText _)) fun t ht => .pure ?_
    obtain ⟨ot, ft, htt, hft, hts, hnum⟩ := ht.elim rfl
    refine ⟨_, _, .call (.member ft "toUpperCase".toList) [], rfl, .compound (by simp [hft.text_eq])
      (hft.method (Level.le_refl _) hnum (by decide) (by simp)) (Level.le_refl _)
      (Form.compound_call _ _), ?_⟩
    rw [hempty] at hts
    simpa [Expr.method_eq, hts] using Denotes.changeCase (m := "toUpperCase") hm (by simp) htt
  · refine .bind (hch.valueOr "TEXT" .member (Operand.emptyText _)) fun t ht => .pure ?_
    obtain ⟨ot, ft, htt, hft, hts, hnum⟩ := ht.elim rfl
    refine ⟨_, _, .call (.member ft "toLowerCase".toList) [], rfl, .compound (by simp [hft.text_eq])
      (hft.method (Level.le_refl _) hnum (by decide) (by simp)) (Level.le_refl _)
      (Form.compound_call _ _), ?_⟩
    rw [hempty] at hts
    simpa [Expr.method_eq, hts] using Denotes.changeCase (m := "toLowerCase") hm (by simp) htt
  · refine .bind (hch.valueOr "TEXT" .unbound (Operand.emptyText _)) fun t ht =>
      .bind (Gives.provide _ _) fun h hh => .pure ?_
    obtain ⟨ot, ft, htt, hft, hts, -⟩ := ht.elim rfl
    refine ⟨_, _, .call (.name h.toList) [ft], rfl, .compound (by simp [hft.text_eq])
      (Form.WF.callName hh (by simp [hft.wf])) (Level.le_refl _) (Form.compound_call _ _), ?_⟩
    rw [hempty] at hts
    simpa [hts] using Denotes.titleCase hm htt hh

/-- A regular expression literal with no flags, read whole when its body is read so. -/
theorem Script.Form.wf_pattern {body : List Char}
    (h : Lx.run .start ('/' :: (body ++ ['/'])) = some (.flags body [], [])) :
    (Form.regex body []).WF Written :=
  .regex h (by simp)

theorem textTrim_printed (hch : ch.Operands w ob b) :
    Gives w ob (Printed w ob .textTrim b) (textTrim ch b) := by
  have hempty : (Form.str []).sem = Expr.emptyText := by rw [Form.sem_str]; rfl
  have hemptyWF : (Form.str []).WF Written := (Operand.emptyText .unbound).wf
  refine .bind (Gives.choose b "MODE" rfl) fun method hmethod =>
    .bind (hch.valueOr "TEXT" .member (Operand.emptyText _)) fun t ht => .pure ?_
  obtain ⟨ot, ft, htt, hft, hts, hnum⟩ := ht.elim rfl
  rw [hempty] at hts
  simp only [List.mem_cons, Prod.mk.injEq, List.not_mem_nil, or_false] at hmethod
  -- both ends by a method, one end by replacing a pattern with the empty text
  rcases hmethod with ⟨hm, rfl⟩ | ⟨hm, rfl⟩ | ⟨hm, rfl⟩
  · refine ⟨_, _, .call (.member ft "trim".toList) [], rfl, .compound (by simp [hft.text_eq])
      (hft.method (Level.le_refl _) hnum (by decide) (by simp)) (Level.le_refl _)
      (Form.compound_call _ _), ?_⟩
    simpa [Expr.method_eq, hts] using Denotes.trimBoth hm htt
  · have hre : (Form.regex "^[\\s\\xa0]+".toList []).WF Written :=
      Form.wf_pattern (by simp only [String.reduceToList]; decide)
    refine ⟨_, _, .call (.member ft "replace".toList) [.regex "^[\\s\\xa0]+".toList [], .str []],
      rfl, .compound (by simp [hft.text_eq]) (hft.method (Level.le_refl _) hnum (by decide)
        (List.forall_mem_cons.2 ⟨hre, List.forall_mem_singleton.2 hemptyWF⟩)) (Level.le_refl _)
        (Form.compound_call _ _), ?_⟩
    simpa [Expr.method_eq, hts] using Denotes.trimLeft hm htt
  · have hre : (Form.regex "[\\s\\xa0]+$".toList []).WF Written :=
      Form.wf_pattern (by simp only [String.reduceToList]; decide)
    refine ⟨_, _, .call (.member ft "replace".toList) [.regex "[\\s\\xa0]+$".toList [], .str []],
      rfl, .compound (by simp [hft.text_eq]) (hft.method (Level.le_refl _) hnum (by decide)
        (List.forall_mem_cons.2 ⟨hre, List.forall_mem_singleton.2 hemptyWF⟩)) (Level.le_refl _)
        (Form.compound_call _ _), ?_⟩
    simpa [Expr.method_eq, hts] using Denotes.trimRight hm htt

theorem textPrompt_printed {k : BlockKind} (hk : k = .textPrompt ∨ k = .textPromptExt)
    (hch : ch.Operands w ob b) : Gives w ob (Printed w ob k b) (textPrompt ch b) := by
  have hempty : (Form.str []).sem = Expr.emptyText := by rw [Form.sem_str]; rfl
  -- the message is the field's text quoted when the block has the field, else the slot's code
  refine Gives.bind (Q := fun message => ∃ fm : Form, message.toList = fm.code ∧
      fm.WF Written ∧ ∀ asNumber, (b.field? "TYPE").getD "TEXT" =
        (if asNumber then "NUMBER" else "TEXT") → Denotes w ob k b (Expr.prompted asNumber fm.sem))
    ?_ fun message hm => .bind (Gives.choose b "TYPE" rfl) fun asNumber ha => .pure ?_
  · cases hf : b.field? "TEXT" with
    | some m =>
      exact .pure ⟨_, (Operand.quote .unbound m).text_eq, (Operand.quote .unbound m).wf,
        fun asNumber ha => by rw [Form.sem_str]; exact Denotes.promptField hk ha hf⟩
    | none =>
      refine (hch.valueOr "TEXT" .unbound (Operand.emptyText _)).mono fun message hm => ?_
      obtain ⟨ot, fm, hot, hfm, hsem, -⟩ := hm.elim rfl
      rw [hempty] at hsem
      exact ⟨fm, hfm.text_eq, hfm.wf, fun asNumber ha => hsem ▸ Denotes.promptSlot hk ha hf hot⟩
  obtain ⟨fm, hcode, hwf, hdenotes⟩ := hm
  have htype : (b.field? "TYPE").getD "TEXT" = if asNumber then "NUMBER" else "TEXT" := by
    cases asNumber <;> simpa using ha
  have hwindow : IsReference "window".toList := isReference_of_nameText (by decide) (.inl (by decide))
  have hasked : (Form.call (.member (.name "window".toList) "prompt".toList) [fm]).WF Written :=
    Form.WF.method (.name hwindow) (Level.primary_le _) rfl (by decide) (by simp [hwf])
  cases asNumber
  · refine ⟨_, _, .call (.member (.name "window".toList) "prompt".toList) [fm], rfl,
      .compound (by simp [hcode]) hasked (Level.le_refl _) (Form.compound_call _ _), ?_⟩
    simpa [Expr.prompted, Expr.method_eq, Expr.word] using hdenotes false htype
  · have hnumber : IsReference "Number".toList :=
      isReference_of_nameText (by decide) (.inl (by decide))
    refine ⟨_, _, .call (.name "Number".toList)
      [.call (.member (.name "window".toList) "prompt".toList) [fm]], rfl,
      .compound (by simp [hcode]) (Form.WF.callName hnumber (List.forall_mem_singleton.2 hasked))
      (Level.le_refl _)
      (Form.compound_call _ _), ?_⟩
    simpa [Expr.prompted, Expr.method_eq, Expr.word] using hdenotes true htype

theorem textCount_printed (hch : ch.Operands w ob b) :
    Gives w ob (Printed w ob .textCount b) (textCount ch b) := by
  have hempty : (Form.str []).sem = Expr.emptyText := by rw [Form.sem_str]; rfl
  refine .bind (hch.valueOr "TEXT" .member (Operand.emptyText _)) fun t ht =>
    .bind (hch.valueOr "SUB" .unbound (Operand.emptyText _)) fun n hn =>
    .bind (Gives.provide _ _) fun h hh => .pure ?_
  obtain ⟨ot, ft, htt, hft, hts, -⟩ := ht.elim rfl
  obtain ⟨on, fn, hnt, hfn, hns, -⟩ := hn.elim rfl
  rw [hempty] at hts hns
  -- a call, reported as a difference: it binds more tightly than the order says
  refine ⟨_, _, .call (.name h.toList) [ft, fn], rfl, .compound (by simp [hft.text_eq, hfn.text_eq])
    (Form.WF.callName hh (by simp [hft.wf, hfn.wf])) (by rw [Form.level_call]; decide)
    (Form.compound_call _ _), ?_⟩
  simpa [hts, hns] using Denotes.count htt hnt hh

theorem textReplace_printed (hch : ch.Operands w ob b) :
    Gives w ob (Printed w ob .textReplace b) (textReplace ch b) := by
  have hempty : (Form.str []).sem = Expr.emptyText := by rw [Form.sem_str]; rfl
  refine .bind (hch.valueOr "TEXT" .member (Operand.emptyText _)) fun t ht =>
    .bind (hch.valueOr "FROM" .unbound (Operand.emptyText _)) fun x hx =>
    .bind (hch.valueOr "TO" .unbound (Operand.emptyText _)) fun y hy =>
    .bind (Gives.provide _ _) fun h hh => .pure ?_
  obtain ⟨ot, ft, htt, hft, hts, -⟩ := ht.elim rfl
  obtain ⟨ox, fx, hxt, hfx, hxs, -⟩ := hx.elim rfl
  obtain ⟨oy, fy, hyt, hfy, hys, -⟩ := hy.elim rfl
  rw [hempty] at hts hxs hys
  refine ⟨_, _, .call (.name h.toList) [ft, fx, fy], rfl,
    .compound (by simp [hft.text_eq, hfx.text_eq, hfy.text_eq])
      (Form.WF.callName hh (by simp [hft.wf, hfx.wf, hfy.wf])) (Level.le_refl _)
      (Form.compound_call _ _), ?_⟩
  simpa [hts, hxs, hys] using Denotes.replace htt hxt hyt hh

theorem textReverse_printed (hch : ch.Operands w ob b) :
    Gives w ob (Printed w ob .textReverse b) (textReverse ch b) := by
  have hempty : (Form.str []).sem = Expr.emptyText := by rw [Form.sem_str]; rfl
  have hemptyWF : (Form.str []).WF Written := (Operand.emptyText .unbound).wf
  refine .bind (hch.valueOr "TEXT" .member (Operand.emptyText _)) fun t ht => .pure ?_
  obtain ⟨ot, ft, htt, hft, hts, hnum⟩ := ht.elim rfl
  rw [hempty] at hts
  -- three methods called one after the other
  have hsplit : (Form.call (.member ft "split".toList) [.str []]).WF Written :=
    hft.method (Level.le_refl _) hnum (by decide) (by simp [hemptyWF])
  have hreverse : (Form.call (.member (Form.call (.member ft "split".toList) [.str []])
      "reverse".toList) []).WF Written :=
    Form.WF.method hsplit (Level.le_refl _) rfl (by decide) (by simp)
  refine ⟨_, _, .call (.member (.call (.member (.call (.member ft "split".toList) [.str []])
    "reverse".toList) []) "join".toList) [.str []], rfl, .compound (by simp [hft.text_eq])
    (Form.WF.method hreverse (Level.le_refl _) rfl (by decide) (by simp [hemptyWF]))
    (by rw [Form.level_call]; decide) (Form.compound_call _ _), ?_⟩
  simpa [Expr.method_eq, hts] using Denotes.reverse htt

end

end BlockScribe
