import BlockScribe.Proofs.Text.Denotation
/-!
# Block ids in instrumentation

A snippet of instrumentation names the block it stands for where it says `%1`
(`Config.injectId`), by the block's id between single quotes.  Every snippet is its pieces
between the placeholders, none of which holds `%1`; the id's literal takes the place of each
placeholder and the pieces stay as they are, even when the id itself holds `%1`
(`injectId_intercalate`): the replacement never reads what it has written, and no `%1` begins in
a piece and ends in the placeholder after it.

The id is written as it is, without escapes.  So what takes the place of a placeholder is one
complete literal standing for the id exactly when the id holds no single quote, backslash or line
break (`literalOf_quoted_iff`): a quote ends the literal early, a line break ends the reading, and
a backslash starts an escape, so that the literal stands for less than the id or goes on past its
end.  The proof reads the literal back: a reader that goes from inside a literal to outside it
first completes the literal, at the first quote no backslash escapes (`run_inside_closes`), so a
literal that is all the reader completes has all it read as its body (`run_inside_eq_literal`),
and a body stands for a text no longer than itself, shorter when it holds an escape
(`length_bodyText_le`).
-/

namespace BlockScribe
namespace Text

/-! ### Reading a literal back -/

/-- **A literal read to its end.**  Reading from inside a literal until the reader stands
outside literals again, the first token completed is the literal, closed by the first quote that
no backslash escapes; all read before that quote is a body, and what follows it is read from
outside literals. -/
theorem run_inside_closes (xs : List Char) :
    ∀ acc out, (Lex.run (.body acc) xs = some (.code, out) →
        ∃ ys zs rest, xs = ys ++ '\'' :: zs ∧ LiteralBody ys ∧
          out = .literal (acc ++ ys) :: rest ∧ Lex.code.run zs = some (.code, rest)) ∧
      (Lex.run (.escape acc) xs = some (.code, out) →
        ∃ c ys zs rest, xs = c :: (ys ++ '\'' :: zs) ∧ LiteralBody ys ∧
          out = .literal (acc ++ '\\' :: c :: ys) :: rest ∧ Lex.code.run zs = some (.code, rest)) := by
  induction xs with
  | nil => simp
  | cons c zs ih =>
    intro acc out
    refine ⟨fun h => ?_, fun h => ?_⟩
    · by_cases hq : c = '\''
      · -- the closing quote completes the literal
        subst hq
        rw [Lex.run_cons_emit (by rfl)] at h
        obtain ⟨r, hr, hrout⟩ := Option.map_eq_some_iff.1 h
        obtain ⟨h₁, rfl⟩ := Prod.mk.inj hrout
        refine ⟨[], zs, r.2, rfl, .nil, by simp, ?_⟩
        rw [hr, ← h₁]
      by_cases hn : c = '\n'
      · subst hn
        simp [Lex.run_cons, Lex.step] at h
      by_cases hb : c = '\\'
      · subst hb
        rw [Lex.run_cons_of_step (by rfl)] at h
        obtain ⟨c', ys, zs', rest, rfl, hys, rfl, hzs⟩ := (ih acc out).2 h
        exact ⟨'\\' :: c' :: ys, zs', rest, rfl, .escape c' hys, rfl, hzs⟩
      · rw [Lex.run_cons_of_step (Lex.step_body_plain hq hn hb acc)] at h
        obtain ⟨ys, zs', rest, rfl, hys, rfl, hzs⟩ := (ih _ out).1 h
        exact ⟨c :: ys, zs', rest, rfl, .plain hq hn hb hys, by simp, hzs⟩
    · -- the escaped character joins the body, whatever it is
      rw [Lex.run_cons_of_step (by rfl)] at h
      obtain ⟨ys, zs', rest, rfl, hys, rfl, hzs⟩ := (ih _ out).1 h
      exact ⟨c, ys, zs', rest, rfl, hys, by simp, hzs⟩

/-- Reading from outside literals back to outside literals completes no token only when there is
nothing to read. -/
theorem eq_nil_of_run_code {xs : List Char} (h : Lex.code.run xs = some (.code, [])) : xs = [] := by
  cases xs with
  | nil => rfl
  | cons c rest =>
    by_cases hq : c = '\''
    · -- a literal opened here completes a token before the reader is outside again
      subst hq
      rw [Lex.run_cons_of_step (by rfl)] at h
      obtain ⟨_, _, _, -, -, hout, -⟩ := (run_inside_closes rest [] []).1 h
      cases hout
    · rw [Lex.run_cons_emit (show Lex.code.step c = some (.code, [.code c]) by simp [Lex.step, hq])]
        at h
      obtain ⟨r, -, hr⟩ := Option.map_eq_some_iff.1 h
      simp at hr

/-- A literal that is all the reader completes ends with the text: its closing quote is the last
character read, and all read before it is its body. -/
theorem run_inside_eq_literal {acc xs b : List Char}
    (h : Lex.run (.body acc) xs = some (.code, [.literal b])) :
    ∃ ys, xs = ys ++ ['\''] ∧ b = acc ++ ys ∧ LiteralBody ys := by
  obtain ⟨ys, zs, rest, rfl, hys, hout, hzs⟩ := (run_inside_closes xs acc _).1 h
  obtain ⟨hb, rfl⟩ := List.cons.inj hout
  obtain rfl := eq_nil_of_run_code hzs
  exact ⟨ys, rfl, Token.literal.inj hb, hys⟩

theorem length_escapeValue_le {c : Char} {w : List Char} (h : escapeValue c = some w) :
    w.length ≤ 1 := by
  -- every escape stands for nothing or for one character
  unfold escapeValue at h
  split at h <;> grind

/-- **A body stands for a text no longer than itself**, and shorter when it holds a
backslash. -/
theorem length_bodyText_le {xs v : List Char} (h : bodyText xs = some v) :
    v.length ≤ xs.length ∧ ('\\' ∈ xs → v.length < xs.length) := by
  induction xs using bodyText.induct generalizing v with
  | case1 =>
    obtain rfl := Option.some.inj h.symm
    simp
  | case2 => simp [bodyText] at h
  | case3 e rest ih =>
    rw [bodyText_escape] at h
    obtain ⟨w, hw, h⟩ := Option.bind_eq_some_iff.1 h
    obtain ⟨v', hv', rfl⟩ := Option.map_eq_some_iff.1 h
    have := length_escapeValue_le hw
    have := (ih hv').1
    simp only [List.length_append, List.length_cons]
    exact ⟨by omega, fun _ => by omega⟩
  | case4 e rest he ih =>
    rw [bodyText_plain he] at h
    obtain ⟨v', hv', rfl⟩ := Option.map_eq_some_iff.1 h
    refine ⟨by simpa using (ih hv').1, fun hmem => ?_⟩
    have hrest : '\\' ∈ rest := by
      rcases List.mem_cons.1 hmem with h | h
      · exact absurd h.symm he
      · exact h
    simpa using (ih hv').2 hrest

/-- A body without backslashes is made of characters that stand as themselves. -/
theorem LiteralBody.forall_of_not_mem {xs : List Char} (h : LiteralBody xs) (hb : '\\' ∉ xs) :
    ∀ c ∈ xs, c ≠ '\'' ∧ c ≠ '\\' ∧ c ≠ '\n' := by
  induction h with
  | nil => simp
  | plain hq hn hb' _ ih =>
    intro c hc
    rcases List.mem_cons.1 hc with rfl | hc
    · exact ⟨hq, hb', hn⟩
    · exact ih (fun h => hb (List.mem_cons_of_mem _ h)) c hc
  | escape c _ _ => exact absurd List.mem_cons_self hb

/-- `tok` is one complete literal that stands for `v`: read from outside literals it is one
literal token, after which the reader is outside literals again, and its body stands for `v`. -/
def LiteralOf (tok v : List Char) : Prop :=
  ∃ body, Lex.code.run tok = some (.code, [.literal body]) ∧ bodyText body = some v

/-- **A text between quotes, as it is, is a literal of itself** exactly when it holds no single
quote, backslash or line break. -/
theorem literalOf_quoted_iff (id : List Char) :
    LiteralOf ('\'' :: (id ++ ['\''])) id ↔ ∀ c ∈ id, c ≠ '\'' ∧ c ≠ '\\' ∧ c ≠ '\n' := by
  constructor
  · rintro ⟨body, hrun, htext⟩
    rw [Lex.run_cons_of_step (by rfl)] at hrun
    obtain ⟨ys, hys, rfl, hbody⟩ := run_inside_eq_literal hrun
    obtain rfl := List.append_cancel_right hys
    -- the body is the text itself, and it stands for itself only without escapes
    have hnb : '\\' ∉ id := fun hmem =>
      absurd ((length_bodyText_le htext).2 hmem) (by simp)
    exact hbody.forall_of_not_mem hnb
  · intro h
    refine ⟨id, run_quoted (LiteralBody.of_forall fun c hc => ⟨(h c hc).1, (h c hc).2.2, (h c hc).2.1⟩),
      ?_⟩
    simpa [bodyText.eq_1] using bodyText_append_of_forall (fun c hc => (h c hc).2.1) []

/-! ### Putting the id in place -/

@[simp] theorem replaceList_nil (pat rep : List Char) : replaceList pat rep [] = [] :=
  replaceList.eq_1 pat rep

/-- Before a text that does not start with `1`, a piece without `%1` is left as it is. -/
theorem replaceList_append_of_not_infix {p rest : List Char} (hp : ¬['%', '1'] <:+: p)
    (hrest : rest.head? ≠ some '1') (rep : List Char) :
    replaceList ['%', '1'] rep (p ++ rest) = p ++ replaceList ['%', '1'] rep rest := by
  induction p with
  | nil => rfl
  | cons c p ih =>
    have hnot : ¬(['%', '1'] ≠ [] ∧ ['%', '1'].isPrefixOf (c :: (p ++ rest)) = true) := by
      rintro ⟨-, hpre⟩
      cases p with
      | nil =>
        -- a `%` that ends the piece meets no `1`
        cases rest with
        | nil => simp [List.isPrefixOf] at hpre
        | cons d rest =>
          simp [List.isPrefixOf] at hpre hrest
          exact hrest hpre.2.symm
      | cons d p =>
        simp only [List.cons_append, List.isPrefixOf, Bool.and_eq_true, beq_iff_eq] at hpre
        obtain ⟨rfl, rfl, -⟩ := hpre
        exact hp ⟨[], p, rfl⟩
    rw [List.cons_append, replaceList.eq_2, dif_neg hnot,
      ih fun h => hp (h.trans (List.suffix_cons c p).isInfix), List.cons_append]

theorem replaceList_placeholder (rep rest : List Char) :
    replaceList ['%', '1'] rep ('%' :: '1' :: rest) = rep ++ replaceList ['%', '1'] rep rest := by
  rw [replaceList.eq_2, dif_pos (by simp [List.isPrefixOf])]
  rfl

/-- The pieces of a text between its placeholders, joined by `rep`. -/
theorem replaceList_intercalate (rep : List Char) :
    ∀ {ps : List (List Char)}, (∀ p ∈ ps, ¬['%', '1'] <:+: p) →
      replaceList ['%', '1'] rep (['%', '1'].intercalate ps) = rep.intercalate ps
  | [], _ => by simp
  | [p], h => by
    have hnil : ([] : List Char).head? ≠ some '1' := by simp
    simpa using replaceList_append_of_not_infix (h p List.mem_cons_self) hnil rep
  | p :: p' :: ps, h => by
    rw [List.intercalate_cons_cons, List.intercalate_cons_cons, List.append_assoc,
      replaceList_append_of_not_infix (h p List.mem_cons_self) (by simp), List.cons_append,
      List.cons_append, List.nil_append, replaceList_placeholder,
      replaceList_intercalate rep fun q hq => h q (List.mem_cons_of_mem p hq), List.append_assoc]

/-- **The id takes the place of every placeholder**, and the pieces between the placeholders
stay as they are. -/
theorem injectId_intercalate (b : Block) {ps : List String}
    (h : ∀ p ∈ ps, ¬"%1".toList <:+: p.toList) :
    Config.injectId ("%1".intercalate ps) b = ("'" ++ b.id ++ "'").intercalate ps := by
  have hpat : "%1".toList = ['%', '1'] := by simp only [String.reduceToList]
  rw [hpat] at h
  rw [← String.toList_inj, Config.injectId, Text.replace, String.toList_ofList,
    String.toList_intercalate, String.toList_intercalate, hpat,
    replaceList_intercalate _ (by simpa using h)]

/-- **Ids in instrumentation are literals exactly when they need no escapes.**  Every snippet,
given by its pieces between the placeholders `%1`, gets one and the same text in place of each
placeholder, its pieces kept, and that text is one complete literal standing for the block's id,
if and only if the id holds no single quote, backslash or line break. -/
theorem injectId_writes_id_literal_iff (b : Block) :
    (∀ ps : List String, (∀ p ∈ ps, ¬"%1".toList <:+: p.toList) →
      ∃ tok : String, Config.injectId ("%1".intercalate ps) b = tok.intercalate ps ∧
        LiteralOf tok.toList b.id.toList) ↔
    ∀ c ∈ b.id.toList, c ≠ '\'' ∧ c ≠ '\\' ∧ c ≠ '\n' := by
  have hquoted : ("'" ++ b.id ++ "'").toList = '\'' :: (b.id.toList ++ ['\'']) := by simp
  constructor
  · intro h
    -- the snippet that is the placeholder alone
    have hpieces : ∀ p ∈ ["", ""], ¬"%1".toList <:+: p.toList := by simp
    obtain ⟨tok, htok, hlit⟩ := h ["", ""] hpieces
    rw [injectId_intercalate b hpieces] at htok
    have htok' : tok = "'" ++ b.id ++ "'" := by simpa using htok.symm
    rw [htok', hquoted] at hlit
    exact (literalOf_quoted_iff _).1 hlit
  · intro h ps hps
    exact ⟨_, injectId_intercalate b hps, by rw [hquoted]; exact (literalOf_quoted_iff _).2 h⟩

/-- **A quote in an id breaks its literal**: for the block `it's`, the snippet `P(%1);` becomes
`P('it's');`, which reads as the literal `it`, the code `s`, and a literal that never closes. -/
theorem quote_in_id_breaks_literal :
    Config.injectId "P(%1);" { id := "it's", kind := "text_print" } = "P('it's');" ∧
    Lex.code.run "P('it's');".toList =
      some (.body [')', ';'], [.code 'P', .code '(', .literal ['i', 't'], .code 's']) := by
  refine ⟨by decide +kernel, ?_⟩
  simp only [String.reduceToList]
  decide

end Text
end BlockScribe
