import BlockScribe.Proofs.Script.Recognition
/-!
# Literals written by quoting

The generator writes the body of a string literal in one of two ways: a fixed body that keeps
the script's rules, or the body that `Text.quote` writes for a text (`Written`).  Quoting
escapes backslashes, line feeds and single quotes, but leaves a carriage return as it is, and the
script allows none inside a literal.  So a form whose literals are written so is read exactly
when none of them holds a carriage return (`WF.lex_isSome_iff`): then its bodies keep the
script's rules (`WF.strict`) and it is read as its tokens; otherwise the reading stops inside
the first literal that holds one, whatever comes before it or after (`WF.breaks`).
-/

namespace BlockScribe
namespace Script

/-- The body of a string literal as the generator writes it: a fixed body that keeps the
script's rules, or the body `quote` writes for a text. -/
def Written (b : List Char) : Prop := Lx.StrBody b ∨ ∃ cs : List Char, b = cs.flatMap Text.escapeChar

namespace Expr

/-- The bodies of the string literals of an expression, from the left. -/
def strs : Expr → List (List Char)
  | str b => [b]
  | array es => (es.map strs).flatten
  | member e _ => strs e
  | call f args => strs f ++ (args.map strs).flatten
  | not e => strs e
  | neg e => strs e
  | bin _ l r => strs l ++ strs r
  | cond c a b => strs c ++ strs a ++ strs b
  | _ => []

@[simp] theorem strs_name (n : List Char) : strs (name n) = [] := by simp [strs]
@[simp] theorem strs_num (s : List Char) : strs (num s) = [] := by simp [strs]
@[simp] theorem strs_str (b : List Char) : strs (str b) = [b] := by simp [strs]
@[simp] theorem strs_regex (b f : List Char) : strs (regex b f) = [] := by simp [strs]
@[simp] theorem strs_array (es : List Expr) : strs (array es) = (es.map strs).flatten := by
  simp [strs]
@[simp] theorem strs_member (e : Expr) (n : List Char) : strs (member e n) = strs e := by
  simp [strs]
@[simp] theorem strs_call (f : Expr) (args : List Expr) :
    strs (call f args) = strs f ++ (args.map strs).flatten := by simp [strs]
@[simp] theorem strs_not (e : Expr) : strs (not e) = strs e := by simp [strs]
@[simp] theorem strs_neg (e : Expr) : strs (neg e) = strs e := by simp [strs]
@[simp] theorem strs_bin (op : BinOp) (l r : Expr) : strs (bin op l r) = strs l ++ strs r := by
  simp [strs]
@[simp] theorem strs_cond (c a b : Expr) : strs (cond c a b) = strs c ++ strs a ++ strs b := by
  simp [strs]

/-- No string literal of the tree holds a carriage return. -/
def NoCarriageReturn (t : Expr) : Prop := ∀ b ∈ t.strs, '\r' ∉ b

@[simp] theorem noCarriageReturn_name (n : List Char) : (name n).NoCarriageReturn := by
  simp [NoCarriageReturn]
@[simp] theorem noCarriageReturn_num (s : List Char) : (num s).NoCarriageReturn := by
  simp [NoCarriageReturn]
@[simp] theorem noCarriageReturn_str (b : List Char) : (str b).NoCarriageReturn ↔ '\r' ∉ b := by
  simp [NoCarriageReturn]
@[simp] theorem noCarriageReturn_regex (b f : List Char) : (regex b f).NoCarriageReturn := by
  simp [NoCarriageReturn]
@[simp] theorem noCarriageReturn_array (es : List Expr) :
    (array es).NoCarriageReturn ↔ ∀ e ∈ es, e.NoCarriageReturn := by
  simp only [NoCarriageReturn, strs_array, List.mem_flatten, List.mem_map]
  grind
@[simp] theorem noCarriageReturn_member (e : Expr) (n : List Char) :
    (member e n).NoCarriageReturn ↔ e.NoCarriageReturn := by
  simp [NoCarriageReturn]
@[simp] theorem noCarriageReturn_call (f : Expr) (args : List Expr) :
    (call f args).NoCarriageReturn ↔ f.NoCarriageReturn ∧ ∀ a ∈ args, a.NoCarriageReturn := by
  simp only [NoCarriageReturn, strs_call, List.mem_append, List.mem_flatten, List.mem_map]
  grind
@[simp] theorem noCarriageReturn_not (e : Expr) : (not e).NoCarriageReturn ↔ e.NoCarriageReturn := by
  simp [NoCarriageReturn]
@[simp] theorem noCarriageReturn_neg (e : Expr) : (neg e).NoCarriageReturn ↔ e.NoCarriageReturn := by
  simp [NoCarriageReturn]
@[simp] theorem noCarriageReturn_bin (op : BinOp) (l r : Expr) :
    (bin op l r).NoCarriageReturn ↔ l.NoCarriageReturn ∧ r.NoCarriageReturn := by
  simp only [NoCarriageReturn, strs_bin, List.mem_append]
  grind
@[simp] theorem noCarriageReturn_cond (c a b : Expr) :
    (cond c a b).NoCarriageReturn ↔ c.NoCarriageReturn ∧ a.NoCarriageReturn ∧ b.NoCarriageReturn := by
  simp only [NoCarriageReturn, strs_cond, List.mem_append]
  grind

end Expr

/-! ### Written bodies -/

/-- A body that keeps the script's rules holds no carriage return: not as itself, and not
escaped, since the script reads no escape of one. -/
theorem Lx.StrBody.cr_not_mem {b : List Char} (h : Lx.StrBody b) : '\r' ∉ b := by
  induction h with
  | nil => simp
  | plain _ _ _ hr _ ih => simp [Ne.symm hr, ih]
  | @escape c _ he _ ih =>
    have hc : c ≠ '\r' := by
      rintro rfl
      exact absurd he (by decide)
    simp [Ne.symm hc, ih]

theorem cr_mem_flatMap_escapeChar (cs : List Char) : '\r' ∈ cs.flatMap Text.escapeChar ↔ '\r' ∈ cs := by
  induction cs with
  | nil => simp
  | cons c cs ih =>
    rw [List.flatMap_cons, List.mem_append, ih, List.mem_cons, Text.escapeChar_eq]
    split
    · rename_i hc
      have hne : c ≠ '\r' := by rcases hc with rfl | rfl | rfl <;> decide
      simp [Ne.symm hne]
    · simp [eq_comm]

namespace Written

variable {b : List Char}

/-- Every single quote of a written body follows a backslash. -/
theorem quotesEscaped (h : Written b) : Text.quotesEscaped none b = true := by
  rcases h with h | ⟨cs, rfl⟩
  · exact Form.strBody_quotesEscaped h none
  · exact (Text.literalBody_flatMap_escapeChar cs).quotesEscaped none

/-- **A written body keeps the script's rules exactly when it holds no carriage return.** -/
theorem strBody_iff (h : Written b) : Lx.StrBody b ↔ '\r' ∉ b := by
  rcases h with h | ⟨cs, rfl⟩
  · exact ⟨fun h => h.cr_not_mem, fun _ => h⟩
  · rw [Lx.strBody_escape_iff, cr_mem_flatMap_escapeChar]

/-- Inside a literal, a quoted text with a carriage return stops the reader at the first one. -/
theorem run_flatMap_escapeChar_cr {cs : List Char} (h : '\r' ∈ cs) :
    ∀ acc rest, Lx.run (.str acc) (cs.flatMap Text.escapeChar ++ rest) = none := by
  induction cs with
  | nil => simp at h
  | cons c cs ih =>
    intro acc rest
    by_cases hc : c = '\r'
    · subst hc
      rfl
    · -- the first character is read into the literal, the carriage return lies further on
      have hcs : '\r' ∈ cs := by simpa [Ne.symm hc] using h
      have hbody : Lx.StrBody (Text.escapeChar c) := by
        simpa [Ne.symm hc] using (Lx.strBody_escape_iff [c]).2
      rw [List.flatMap_cons, List.append_assoc, Lx.run_strBody hbody, ih hcs]

end Written

/-! ### Stopping the reader -/

/-- Characters after which the reading stops, whatever follows them. -/
def Breaks (xs : List Char) : Prop := ∀ rest, Lx.run .start (xs ++ rest) = none

namespace Breaks

variable {xs ys : List Char}

theorem append (h : Breaks xs) (ys : List Char) : Breaks (xs ++ ys) := fun rest => by
  rw [List.append_assoc]
  exact h _

/-- Nothing stops the reader before it has read anything. -/
theorem ne_nil (h : Breaks xs) : xs ≠ [] := by
  rintro rfl
  exact absurd (h []) (by simp)

/-- What stops the reader stops it after what is read before it, where that reading goes on. -/
theorem after {ts : List Tok} {P : Char → Prop} (hx : Form.Reads xs ts P) (h : Breaks ys)
    (hc : ∀ c t, ys = c :: t → P c) : Breaks (xs ++ ys) := fun rest => by
  obtain ⟨c, t, rfl⟩ := List.exists_cons_of_ne_nil h.ne_nil
  rw [List.append_assoc, List.cons_append, hx c _ (hc c t rfl), ← List.cons_append, h rest]
  rfl

/-- **Code that stops the reader has no tokens.** -/
theorem lex (h : Breaks xs) : Lx.lex xs = none := by
  simp [Lx.lex, h [' ']]

end Breaks

/-- A literal whose written body holds a carriage return stops the reader. -/
theorem breaks_str {b : List Char} (hb : Written b) (hr : '\r' ∈ b) :
    Breaks ('\'' :: (b ++ ['\''])) := by
  rcases hb with hb | ⟨cs, rfl⟩
  · exact absurd hr hb.cr_not_mem
  · intro rest
    have hopen : Lx.step .start '\'' = some (.str [], []) := by decide
    rw [List.cons_append, Lx.run_cons_of_step hopen, List.append_assoc,
      Written.run_flatMap_escapeChar_cr ((cr_mem_flatMap_escapeChar cs).1 hr)]

namespace Form

variable {B B' : List Char → Prop}

/-- **Well-formedness depends on the bodies only through the literals of the tree.** -/
theorem WF.mono {f : Form} (hf : f.WF B) (h : ∀ b ∈ f.sem.strs, B b → B' b) : f.WF B' := by
  induction hf with
  | name hn => exact .name hn
  | num hs => exact .num hs
  | str hb => exact .str (h _ (by simp) hb)
  | regex hb hf => exact .regex hb hf
  | array _ hle ih =>
    refine .array (fun e he => ih e he fun b hb => h b ?_) hle
    simpa using ⟨e, he, hb⟩
  | member _ hle hend hn ih => exact .member (ih fun b hb => h b (by simpa using hb)) hle hend hn
  | call _ hle _ hargs ihf ih =>
    refine .call (ihf fun b hb => h b (by simp [hb])) hle
      (fun a ha => ih a ha fun b hb => h b ?_) hargs
    simp only [sem_call, Expr.strs_call, List.mem_append, List.mem_flatten, List.mem_map]
    exact .inr ⟨_, ⟨a.sem, ⟨a, ha, rfl⟩, rfl⟩, hb⟩
  | not _ hle hh ih => exact .not (ih fun b hb => h b (by simpa using hb)) hle hh
  | neg _ hle hm hh ih => exact .neg (ih fun b hb => h b (by simpa using hb)) hle hm hh
  | bin _ _ hl hr ihl ihr =>
    exact .bin (ihl fun b hb => h b (by simp [hb])) (ihr fun b hb => h b (by simp [hb])) hl hr
  | chain hop _ _ hl hr ihl ihr =>
    exact .chain hop (ihl fun b hb => h b (by simp [hb])) (ihr fun b hb => h b (by simp [hb])) hl hr
  | addBreak _ _ hl hr ihl ihr =>
    exact .addBreak (ihl fun b hb => h b (by simp [hb])) (ihr fun b hb => h b (by simp [hb])) hl hr
  | cond _ _ _ hc ha hb ihc iha ihb =>
    exact .cond (ihc fun x hx => h x (by simp [hx])) (iha fun x hx => h x (by simp [hx]))
      (ihb fun x hx => h x (by simp [hx])) hc ha hb
  | paren _ ih => exact .paren (ih fun b hb => h b (by simpa using hb))

/-- **Written literals with no carriage return keep the script's rules.** -/
theorem WF.strict {f : Form} (hf : f.WF Written) (h : f.sem.NoCarriageReturn) :
    f.WF Lx.StrBody :=
  hf.mono fun b hb hw => (Written.strBody_iff hw).2 (h b hb)

/-- Forms with written literals between separators, one of them with a carriage return: the
reading stops at the first such form, after the clean ones before it. -/
theorem breaks_intercalate {tail : List Char} (hsep : Reads (',' :: tail) [.punct [',']] fun _ => True)
    {es : List Form} (hwf : ∀ e ∈ es, e.WF Written)
    (hbreak : ∀ e ∈ es, ¬e.sem.NoCarriageReturn → Breaks e.code)
    (h : ¬∀ e ∈ es, e.sem.NoCarriageReturn) (post : List Char) :
    Breaks ((',' :: tail).intercalate (es.map code) ++ post) := by
  induction es with
  | nil => simp at h
  | cons e es ih =>
    have he := hwf e List.mem_cons_self
    by_cases hclean : e.sem.NoCarriageReturn
    · -- the clean form is read, with its separator, before the rest
      have hrest : ¬∀ x ∈ es, x.sem.NoCarriageReturn := fun hall =>
        h fun x hx => (List.mem_cons.1 hx).elim (fun hx => hx ▸ hclean) (hall x)
      obtain ⟨e', es, rfl⟩ := List.exists_cons_of_ne_nil (show es ≠ [] by rintro rfl; simp at hrest)
      have hread := (he.strict hclean).reads.append hsep fun _ _ => .inl (by simp)
      have hnext := ih (fun x hx => hwf x (List.mem_cons_of_mem e hx))
        (fun x hx => hbreak x (List.mem_cons_of_mem e hx)) hrest
      have hall := Breaks.after hread hnext fun _ _ _ => trivial
      simpa [List.intercalate_cons_cons, List.append_assoc] using hall
    · -- the reading stops inside the first form
      cases es with
      | nil => simpa using (hbreak e List.mem_cons_self hclean).append post
      | cons e' es =>
        simpa [List.intercalate_cons_cons, List.append_assoc] using
          (hbreak e List.mem_cons_self hclean).append
            (',' :: tail ++ (',' :: tail).intercalate ((e' :: es).map code) ++ post)

/-- **A literal with a carriage return stops the reader**, wherever it stands in a form: what
comes before it is read, being clean, and the reading stops inside it. -/
theorem WF.breaks {f : Form} (hf : f.WF Written) (h : ¬f.sem.NoCarriageReturn) : Breaks f.code := by
  induction hf with
  | name => simp at h
  | num => simp at h
  | str hb => simpa using breaks_str hb (by simpa using h)
  | regex => simp at h
  | array hwf _ ih =>
    have hels := breaks_intercalate reads_comma hwf ih (by simpa using h) [']']
    simpa using Breaks.after reads_openSquare hels fun _ _ _ => trivial
  | member _ _ _ _ ih => simpa using (ih (by simpa using h)).append _
  | @call g args hg _ hwf _ ihg ih =>
    by_cases hclean : g.sem.NoCarriageReturn
    · -- the callee is read, and the reading stops in an argument
      have hargs := breaks_intercalate reads_separator hwf ih (by simpa [hclean] using h) [')']
      have hread := (hg.strict hclean).reads.append reads_open fun _ _ => .inl (by simp)
      simpa using Breaks.after hread hargs fun _ _ _ => trivial
    · simpa using (ihg hclean).append _
  | @not e he _ hh ih =>
    have hhead : ∀ c t, e.code = c :: t → c ≠ '=' := fun c t ht => by
      obtain ⟨u, hu⟩ := he.code_eq_head_cons
      rw [hu, List.cons.injEq] at ht
      exact ht.1 ▸ hh
    simpa using Breaks.after reads_bang (ih (by simpa using h)) hhead
  | @neg e he _ hm hh ih =>
    have hhead : ∀ c t, e.code = c :: t → c ≠ '-' ∧ c ≠ '=' := fun c t ht => by
      obtain ⟨u, hu⟩ := he.code_eq_head_cons
      rw [hu, List.cons.injEq] at ht
      exact ht.1 ▸ ⟨hm, hh⟩
    simpa using Breaks.after reads_minus (ih (by simpa using h)) hhead
  | @bin op l r hl _ _ _ ihl ihr | @chain op l r _ hl _ _ _ ihl ihr =>
    by_cases hclean : l.sem.NoCarriageReturn
    · have hread := (hl.strict hclean).reads.append (reads_operator op) fun _ _ => .inl (by simp)
      have hr := ihr (by simpa [hclean] using h)
      simpa using Breaks.after hread hr fun _ _ _ => trivial
    · simpa using (ihl hclean).append _
  | @addBreak l r hl _ _ _ ihl ihr =>
    by_cases hclean : l.sem.NoCarriageReturn
    · have hread := (hl.strict hclean).reads.append reads_break fun _ _ => .inl (by simp)
      have hr := ihr (by simpa [hclean] using h)
      simpa using Breaks.after hread hr fun _ _ _ => trivial
    · simpa using (ihl hclean).append _
  | @cond c a b hc ha _ _ _ _ ihc iha ihb =>
    by_cases hcc : c.sem.NoCarriageReturn
    · have hreadc := (hc.strict hcc).reads.append reads_question fun _ _ => .inl (by simp)
      by_cases hac : a.sem.NoCarriageReturn
      · -- the condition and the first branch are read, the reading stops in the second
        have hreada := (ha.strict hac).reads.append reads_colon fun _ _ => .inl (by simp)
        have hread := hreadc.append hreada fun _ _ => trivial
        have hb := ihb (by simpa [hcc, hac] using h)
        simpa using Breaks.after hread hb fun _ _ _ => trivial
      · simpa using Breaks.after hreadc ((iha hac).append _) fun _ _ _ => trivial
    · simpa using (ihc hcc).append _
  | paren _ ih =>
    simpa using Breaks.after reads_open ((ih (by simpa using h)).append [')']) fun _ _ _ => trivial

/-- **Code with written literals is read exactly when none of them holds a carriage return**,
and then as its tokens. -/
theorem WF.lex_isSome_iff {f : Form} (hf : f.WF Written) :
    (Lx.lex f.code).isSome ↔ f.sem.NoCarriageReturn := by
  constructor
  · intro hsome
    by_contra hcr
    rw [(hf.breaks hcr).lex] at hsome
    exact absurd hsome (by simp)
  · intro hclean
    rw [(hf.strict hclean).lex]
    rfl

end Form

end Script
end BlockScribe
