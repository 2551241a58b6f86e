import BlockScribe.Proofs.Generate.Trees
/-!
# Code that stands as one operand

The code a value block generates is printed as a form (`Script.Form`) that stands for the
block's tree.  `Operand o code f` says that the code is printed as the well-formed form `f`, of a
level that stands as one operand where the order `o` is asked for, and that the generator's
tests of code (a string literal, a quoted word) read it as they read its tree wherever a rule
asks for code.  A rule's own code, of the order it reports, is `Prints`: once `bracket` has put
it where an order is asked for, it is an operand there (`Prints.bracket`), because a string
literal or a word is reported only at an order that is bracketed nowhere but where a literal is
asked for (`Order.Bare`).

`GenM.Gives w ob P m` says that in a context over the workspace `w`, positions counted from one
when `ob`, and from a session whose names are references, `m` keeps them references and returns
only values with `P`.  The steps the rules share are taken apart here once: a slot's code or its
default (`Children.Operands.valueOr`), a choice field, the names of variables, procedures and
helpers, a text coerced by `forceString`, and a list position (`Children.Operands.adjustedIndex`).
-/

namespace BlockScribe

open Script GenM

/-! ### Orders whose code is never bracketed -/

/-- Code of the order `inner` is bracketed nowhere but where a literal or `new` is asked for. -/
def Order.Bare (inner : Order) : Prop :=
  ∀ o : Order, o ≠ .atomic → o ≠ .new → needsParens o inner = false

namespace Order

theorem bare_atomic : Order.atomic.Bare := by
  intro o
  cases o <;> decide

theorem bare_call : Order.call.Bare := by
  intro o
  cases o <;> decide

/-- Where the rules put list positions, a prefix operation stands as one operand. -/
theorem unary_le_operandLevel {o : Order} (ho : 6 ≤ o.tier) : Script.Level.unary ≤ o.operandLevel := by
  revert ho
  cases o <;> decide

end Order

/-! ### Printed forms as the tests read them -/

namespace Script

theorem Level.primary_le (l : Level) : Level.primary ≤ l := Nat.zero_le _

/-- Whether characters form a name of the script. -/
def Lx.nameText : List Char → Bool
  | [] => false
  | a :: as => isNameStart a && as.all isNamePart

theorem Lx.isName_of_nameText {n : List Char} (h : Lx.nameText n = true) : Lx.IsName n := by
  cases n with
  | nil => cases h
  | cons a as =>
    simp only [Lx.nameText, Bool.and_eq_true, List.all_eq_true] at h
    exact ⟨a, as, rfl, h.1, h.2⟩

/-- A name that is no reserved word, or a literal one, is a reference. -/
theorem isReference_of_nameText {s : String} (h : Lx.nameText s.toList = true)
    (hk : s ∉ keywords ∨ s ∈ literalWords) : IsReference s.toList :=
  ⟨Lx.isName_of_nameText h, by simpa using hk⟩

namespace Form

/-- The generator's tests read a form as they read its tree: a string literal, and a quoted
word, exactly when the tree is one. -/
def Faithful (f : Form) : Prop := f.isStr = f.sem.isStr ∧ f.quotedWord = f.sem.isQuotedWord

/-- Only brackets hide from the tests what a form stands for. -/
theorem faithful_of_ne_paren {f : Form} (h : ∀ e, f ≠ paren e) : f.Faithful := by
  cases f with
  | paren e => exact absurd rfl (h e)
  | _ =>
    simp only [Faithful, sem_name, sem_num, sem_str, sem_regex, sem_array, sem_member, sem_call,
      sem_not, sem_neg, sem_bin, sem_addBreak, sem_cond]
    exact ⟨rfl, rfl⟩

theorem faithful_paren {e : Form} :
    (paren e).Faithful ↔ e.sem.isStr = false ∧ e.sem.isQuotedWord = false := by
  simp only [Faithful, sem_paren]
  exact ⟨fun h => ⟨h.1.symm, h.2.symm⟩, fun h => ⟨h.1.symm, h.2.symm⟩⟩

/-- An operation, a member or a call: no literal, no word and no numeral to the tests. -/
def Compound (f : Form) : Prop :=
  f.isStr = false ∧ f.quotedWord = false ∧ f.isNumeric = false ∧ ∀ e, f ≠ paren e

theorem compound_member (obj : Form) (n : List Char) : (member obj n).Compound :=
  ⟨rfl, rfl, rfl, fun _ h => by cases h⟩

theorem compound_call (g : Form) (args : List Form) : (call g args).Compound :=
  ⟨rfl, rfl, rfl, fun _ h => by cases h⟩

theorem compound_not (e : Form) : (not e).Compound := ⟨rfl, rfl, rfl, fun _ h => by cases h⟩

theorem compound_bin (op : BinOp) (l r : Form) : (bin op l r).Compound :=
  ⟨rfl, rfl, rfl, fun _ h => by cases h⟩

theorem compound_cond (c a b : Form) : (cond c a b).Compound :=
  ⟨rfl, rfl, rfl, fun _ h => by cases h⟩

/-- No form is looser than a conditional. -/
theorem level_le_cond (f : Form) : f.level ≤ .cond := by
  cases f with
  | bin op => cases op <;> simp [level, BinOp.level, Level.le_def, Level.rank]
  | _ => simp [level, Level.le_def, Level.rank]

/-- A form stands wherever an argument or an element is asked for. -/
theorem level_le_assign (f : Form) : f.level ≤ .assign := Level.le_trans (level_le_cond f) (by decide)

/-- A form no looser than the operand of a prefix operator is a member, a call or tighter. -/
theorem level_le_lhs_of_le_update {f : Form} (h : f.level ≤ .update) : f.level ≤ .lhs := by
  cases f with
  | bin op => cases op <;> simp [level, BinOp.level, Level.le_def, Level.rank] at h
  | not | neg | addBreak | cond => simp [level, Level.le_def, Level.rank] at h
  | _ => simp [level, Level.le_def, Level.rank]

/-- A form of a member's level that is no numeral does not end with one. -/
theorem endsNum_eq_false {f : Form} (hl : f.level ≤ .lhs) (hn : f.isNumeric = false) :
    f.endsNum = false := by
  cases f with
  | num => simp [isNumeric] at hn
  | bin op => cases op <;> simp [level, BinOp.level, Level.le_def, Level.rank] at hl
  | not | neg | addBreak | cond => simp [level, Level.le_def, Level.rank] at hl
  | _ => rfl

/-- A form as a text: itself when it is a string literal, and otherwise passed to `String`. -/
def asText (f : Form) : Form := if f.isStr then f else call (name "String".toList) [f]

end Form

end Script

/-! ### Operands and the code of rules -/

/-- `Operand o code f`: `code` is printed as the well-formed form `f`, its literals written by
the generator, of a level that stands as one operand where `o` is asked for; where a rule may
ask (any order but a literal's or `new`'s), the tests read the code as its tree. -/
structure Operand (o : Order) (code : String) (f : Form) : Prop where
  text_eq : code.toList = f.code
  wf : f.WF Written
  level_le : f.level ≤ o.operandLevel
  faithful : o ≠ .atomic → o ≠ .new → f.Faithful

/-- `Prints code inner f`: a rule's code, reported of the order `inner`, is printed as `f`: no
looser than that order, read by the tests as its tree, no numeral, and a string literal or a word
only where the order reported is bracketed nowhere but where a literal is asked for. -/
structure Prints (code : String) (inner : Order) (f : Form) : Prop where
  text_eq : code.toList = f.code
  wf : f.WF Written
  level_le : f.level ≤ inner.level
  faithful : f.Faithful
  not_numeric : f.isNumeric = false
  bare : f.isStr = true ∨ f.quotedWord = true → inner.Bare

namespace Operand

variable {o : Order} {code : String} {f : Form}

/-- A literal or a name stands as one operand wherever it is asked for. -/
theorem atom (htext : code.toList = f.code) (hwf : f.WF Written) (hlevel : f.level = .primary)
    (hne : ∀ e, f ≠ .paren e) : Operand o code f :=
  ⟨htext, hwf, hlevel ▸ Level.primary_le _, fun _ _ => Form.faithful_of_ne_paren hne⟩

theorem zero (o : Order) : Operand o "0" (.num ['0']) :=
  atom (by simp) (.num ⟨⟨'0', [], rfl, rfl⟩, false, by decide⟩) rfl fun _ h => by cases h

theorem half (o : Order) : Operand o "0.5" (.num ['0', '.', '5']) :=
  atom (by simp) (.num ⟨⟨'0', _, rfl, rfl⟩, true, by decide⟩) rfl fun _ h => by cases h

theorem emptyText (o : Order) : Operand o "''" (.str []) :=
  atom (by simp) (.str (.inl .nil)) rfl fun _ h => by cases h

/-- The string literal the generator writes for a text. -/
theorem quote (o : Order) (s : String) :
    Operand o (Text.quote s) (.str (s.toList.flatMap Text.escapeChar)) :=
  atom (by simp [Text.quote, Text.quoteList]) (.str (.inr ⟨_, rfl⟩)) rfl fun _ h => by cases h

theorem word (o : Order) {s : String} (hs : IsReference s.toList) : Operand o s (.name s.toList) :=
  atom (Form.code_name _).symm (.name hs) rfl fun _ h => by cases h

/-- The first position of a list, as the workspace counts. -/
theorem firstPosition (ob : Bool) (o : Order) :
    Operand o (if ob then "1" else "0") (.num (if ob then ['1'] else ['0'])) := by
  cases ob
  · exact zero o
  · exact atom (by simp) (.num ⟨⟨'1', [], rfl, rfl⟩, false, by decide⟩) rfl fun _ h => by cases h

/-- Where a member's object is asked for, an operand that is no numeral ends with none. -/
theorem endsNum_eq_false (h : Operand o code f) (ho : o.operandLevel ≤ .lhs)
    (hn : f.isNumeric = false) : f.endsNum = false :=
  Form.endsNum_eq_false (Level.le_trans h.level_le ho) hn

end Operand

namespace Prints

variable {code : String} {inner : Order} {f : Form}

/-- An operation, a member or a call prints a rule's code of any order it is no looser than. -/
theorem compound (htext : code.toList = f.code) (hwf : f.WF Written) (hlevel : f.level ≤ inner.level)
    (hf : f.Compound) : Prints code inner f :=
  ⟨htext, hwf, hlevel, Form.faithful_of_ne_paren hf.2.2.2, hf.2.2.1,
    fun h => by simp [hf.1, hf.2.1] at h⟩

/-- A literal or a name prints a rule's code of the atomic order. -/
theorem atom (htext : code.toList = f.code) (hwf : f.WF Written) (hlevel : f.level = .primary)
    (hne : ∀ e, f ≠ .paren e) (hnum : f.isNumeric = false) : Prints code .atomic f :=
  ⟨htext, hwf, by rw [hlevel]; exact Level.le_refl _, Form.faithful_of_ne_paren hne, hnum,
    fun _ => Order.bare_atomic⟩

theorem ne_empty (h : Prints code inner f) : code ≠ "" := by
  intro hc
  apply Form.code_ne_nil h.wf
  rw [← h.text_eq, hc]
  rfl

/-- **Put where an order is asked for, a rule's code is one operand there**, bracketed or not,
and stands for the same tree. -/
theorem bracket (h : Prints code inner f) (o : Order) :
    ∃ g, Operand o (BlockScribe.bracket code inner o) g ∧ g.sem = f.sem ∧ g.isNumeric = false := by
  unfold BlockScribe.bracket
  cases hp : needsParens o inner
  · -- left as it is, the code is of a level that stands there
    exact ⟨f, ⟨by simpa using h.text_eq, h.wf, Level.le_trans h.level_le (level_le_operandLevel hp),
      fun _ _ => h.faithful⟩, rfl, h.not_numeric⟩
  · refine ⟨.paren f, ⟨by simp [h.text_eq], .paren h.wf, Level.primary_le _, fun ha hn => ?_⟩,
      by simp, rfl⟩
    -- a literal or a word was reported at an order that is not bracketed here
    have hbare : ¬inner.Bare := fun hb => absurd (hb o ha hn) (by simp [hp])
    rw [Form.faithful_paren, ← h.faithful.1, ← h.faithful.2]
    exact ⟨Bool.eq_false_iff.2 fun hs => hbare (h.bare (.inl hs)),
      Bool.eq_false_iff.2 fun hw => hbare (h.bare (.inr hw))⟩

end Prints

/-- What the code of a value slot is, where `o` is asked for: nothing where the slot holds no
tree, and otherwise an operand there, no numeral, printing the slot's tree. -/
def SlotCode (w : Workspace) (ob : Bool) (b : Block) (slot : String) (o : Order) :
    Option String → Prop
  | none => SlotTree w ob b slot none
  | some code => ∃ f, Operand o code f ∧ f.isNumeric = false ∧ SlotTree w ob b slot (some f.sem)

/-- What a slot's code, or the default printed as `fd` in its place, is: an operand printing the
slot's tree or, where the slot holds none, the default. -/
def Filled (w : Workspace) (ob : Bool) (b : Block) (slot : String) (o : Order) (fd : Form)
    (code : String) : Prop :=
  ∃ ot f, SlotTree w ob b slot ot ∧ Operand o code f ∧ f.sem = ot.getD fd.sem ∧
    (ot = none → f = fd) ∧ (ot ≠ none → f.isNumeric = false)

/-- With a default that is no numeral, a slot's code or its default is none. -/
theorem Filled.elim {w : Workspace} {ob : Bool} {b : Block} {slot : String} {o : Order}
    {fd : Form} {code : String} (h : Filled w ob b slot o fd code) (hd : fd.isNumeric = false) :
    ∃ ot f, SlotTree w ob b slot ot ∧ Operand o code f ∧ f.sem = ot.getD fd.sem ∧
      f.isNumeric = false := by
  obtain ⟨ot, f, htree, hf, hsem, hnone, hsome⟩ := h
  refine ⟨ot, f, htree, hf, hsem, ?_⟩
  by_cases hot : ot = none
  · rw [hnone hot]
    exact hd
  · exact hsome hot

/-! ### What steps give -/

namespace GenM

/-- `Gives w ob P m`: in a context over the workspace `w`, positions counted from one when `ob`,
and from a session whose names are references, `m` ends in such a session and returns only
values with `P`. -/
def Gives (w : Workspace) (ob : Bool) {α : Type} (P : α → Prop) (m : GenM α) : Prop :=
  ∀ ctx s, ctx.workspace = w → ctx.oneBased = ob → s.NamesAreReferences →
    (m.exec ctx s).2.NamesAreReferences ∧ ∀ a, (m.exec ctx s).1 = .ok a → P a

namespace Gives

variable {w : Workspace} {ob : Bool} {α β : Type} {P : α → Prop} {Q : β → Prop}

/-- A step that keeps the names references and returns only values with `P`. -/
theorem of_keeps {m : GenM α} (hm : Keeps namesAreReferences m)
    (hP : ∀ ctx s a, ctx.workspace = w → ctx.oneBased = ob → s.NamesAreReferences →
      (m.exec ctx s).1 = .ok a → P a) : Gives w ob P m :=
  fun ctx s hw hob hs => ⟨hm ctx s hs, fun a ha => hP ctx s a hw hob hs ha⟩

theorem prim {m : GenM α} (hm : Prim m)
    (hP : ∀ ctx s a, ctx.workspace = w → ctx.oneBased = ob → s.NamesAreReferences →
      (m.exec ctx s).1 = .ok a → P a) : Gives w ob P m :=
  of_keeps (Keeps.prim hm) hP

theorem pure {a : α} (h : P a) : Gives w ob P (Pure.pure a) :=
  of_keeps (.pure a) fun _ _ a' _ _ _ ha => by
    simp only [exec_pure, Except.ok.injEq] at ha
    exact ha ▸ h

theorem throw (e : GenerateError) : Gives w ob P (MonadExcept.throw e : GenM α) :=
  of_keeps (.throw e) fun _ _ _ _ _ _ ha => by simp at ha

theorem mono {P' : α → Prop} {m : GenM α} (hm : Gives w ob P m) (h : ∀ a, P a → P' a) :
    Gives w ob P' m := fun ctx s hw hob hs =>
  ⟨(hm ctx s hw hob hs).1, fun a ha => h a ((hm ctx s hw hob hs).2 a ha)⟩

theorem bind {m : GenM β} {k : β → GenM α} (hm : Gives w ob Q m)
    (hk : ∀ x, Q x → Gives w ob P (k x)) : Gives w ob P (m >>= k) := by
  intro ctx s hw hob hs
  obtain ⟨hu, hQ⟩ := hm ctx s hw hob hs
  rw [exec_bind]
  revert hu hQ
  rcases m.exec ctx s with ⟨_ | x, u⟩
  · intro hu _
    exact ⟨hu, fun a ha => by simp at ha⟩
  · intro hu hQ
    exact hk x (hQ x rfl) ctx u hw hob hu

theorem map {m : GenM β} (f : β → α) (hm : Gives w ob Q m) (hf : ∀ x, Q x → P (f x)) :
    Gives w ob P (f <$> m) := by
  rw [← bind_pure_comp]
  exact hm.bind fun x hx => .pure (hf x hx)

theorem ite (c : Prop) [Decidable c] {x y : GenM α} (hx : c → Gives w ob P x)
    (hy : ¬c → Gives w ob P y) : Gives w ob P (if c then x else y) := by
  by_cases h : c
  · rw [if_pos h]
    exact hx h
  · rw [if_neg h]
    exact hy h

theorem read : Gives w ob (fun ctx : Context => ctx.workspace = w ∧ ctx.oneBased = ob)
    (MonadReader.read : GenM Context) :=
  prim .read fun ctx _ a hw hob _ ha => by
    simp only [exec_read, Except.ok.injEq] at ha
    exact ha ▸ ⟨hw, hob⟩

/-- A step run with more blocks around it, in the same workspace and convention. -/
theorem withReader {f : Context → Context} {m : GenM α}
    (hf : ∀ ctx, (f ctx).workspace = ctx.workspace ∧ (f ctx).oneBased = ctx.oneBased)
    (hm : Gives w ob P m) : Gives w ob P (withReader f m) := by
  intro ctx s hw hob hs
  rw [exec_withReader]
  exact hm (f ctx) s ((hf ctx).1.trans hw) ((hf ctx).2.trans hob) hs

/-- Each item's step gives what the item asks for, so the list of results matches the items. -/
theorem mapM {γ : Type} {R : γ → α → Prop} {f : γ → GenM α} (xs : List γ)
    (h : ∀ x ∈ xs, Gives w ob (R x) (f x)) : Gives w ob (List.Forall₂ R xs) (xs.mapM f) := by
  induction xs with
  | nil => exact .pure .nil
  | cons x xs ih =>
    rw [List.mapM_cons]
    exact (h x (by simp)).bind fun y hy =>
      (ih fun x' hx' => h x' (by simp [hx'])).bind fun ys hys => .pure (.cons hy hys)

/-- A choice field picks an option listed with the field's text, the first option's text
standing for an absent field. -/
theorem choose {γ : Type} [Inhabited γ] (b : Block) (field : String) {options : List (String × γ)}
    {k₀ : String} {a₀ : γ} {rest : List (String × γ)} (h : options = (k₀, a₀) :: rest) :
    Gives w ob (fun a => ((b.field? field).getD k₀, a) ∈ options)
      (BlockScribe.choose b field options) :=
  prim (.choose b field options) fun ctx s a _ _ _ ha => by
    rw [exec_choose] at ha
    cases hf : b.field? field with
    | none =>
      rw [hf] at ha
      subst h
      simp only [List.head?_cons, Option.map_some, Option.getD_some, Except.ok.injEq] at ha
      subst ha
      simp
    | some v =>
      rw [hf] at ha
      dsimp only at ha
      rcases hfind : options.find? (·.1 == v) with _ | ⟨k, a'⟩
      · rw [hfind] at ha
        simp at ha
      · rw [hfind] at ha
        simp only [Except.ok.injEq] at ha
        subst ha
        have hkey : k = v := by simpa using List.find?_some hfind
        simpa [← hkey] using List.mem_of_find?_eq_some hfind

theorem variableName (key : String) :
    Gives w ob (fun n => IsReference n.toList) (GenM.variableName key) :=
  prim (.variableName key) fun _ s a _ _ hs ha => by
    simp only [exec_variableName, Except.ok.injEq] at ha
    exact ha ▸ (hs.nameFor key _ _).1

theorem procedureName (key : String) :
    Gives w ob (fun n => IsReference n.toList) (GenM.procedureName key) :=
  prim (.procedureName key) fun _ s a _ _ hs ha => by
    simp only [exec_procedureName, Except.ok.injEq] at ha
    exact ha ▸ (hs.nameFor key _ _).1

theorem provide (desired : String) (lines : List String) :
    Gives w ob (fun n => IsReference n.toList) (GenM.provide desired lines) :=
  prim (.provide desired lines) fun ctx s a _ _ hs ha => by
    rw [exec_provide] at ha
    have hname := (hs.provide ctx.config.indent desired lines).1
    revert ha hname
    rcases s.registry.provide s.names ctx.config.indent desired lines with ⟨n, r, t, fresh⟩
    intro ha hname
    simp only [Except.ok.injEq] at ha
    exact ha ▸ hname

end Gives

end GenM

/-! ### The code of slots -/

/-- Children whose value slots give their code as `SlotCode` says, in the workspace `w` with
positions from one when `ob`. -/
def Children.Operands (ch : Children) (w : Workspace) (ob : Bool) (b : Block) : Prop :=
  ∀ slot o, Gives w ob (SlotCode w ob b slot o) (ch.value slot o)

/-- A slot's code, or a default that is an operand where the slot's code is asked for: filled,
with a tree that is empty exactly when the slot gives no code. -/
theorem SlotCode.filled {w : Workspace} {ob : Bool} {b : Block} {slot : String} {o : Order}
    {r : Option String} (h : SlotCode w ob b slot o r) {d : String} {fd : Form}
    (hd : Operand o d fd) :
    ∃ ot f, SlotTree w ob b slot ot ∧ ot.isNone = r.isNone ∧ Operand o (r.getD d) f ∧
      f.sem = ot.getD fd.sem ∧ (ot = none → f = fd) ∧ (ot ≠ none → f.isNumeric = false) := by
  cases r with
  | none => exact ⟨none, fd, h, rfl, hd, rfl, fun _ => rfl, fun h => absurd rfl h⟩
  | some code =>
    obtain ⟨f, hf, hnum, htree⟩ := h
    exact ⟨some f.sem, f, htree, rfl, hf, rfl, fun h => by simp at h, fun _ => hnum⟩

namespace Children.Operands

variable {ch : Children} {w : Workspace} {ob : Bool} {b : Block}

/-- A slot's code, or a default that is an operand where the slot's code is asked for. -/
theorem valueOr (hch : ch.Operands w ob b) (slot : String) (o : Order) {d : String} {fd : Form}
    (hd : Operand o d fd) : Gives w ob (Filled w ob b slot o fd) (ch.valueOr slot o d) := by
  unfold Children.valueOr
  refine .bind (hch slot o) fun r hr => .pure ?_
  obtain ⟨ot, f, htree, -, hf, hsem, hnone, hsome⟩ := hr.filled hd
  exact ⟨ot, f, htree, hf, hsem, hnone, hsome⟩

end Children.Operands

/-- **`forceString` coerces an operand as its tree is coerced**: the tests take the code for a
string literal exactly when its tree is one, and the coerced code prints a call's order. -/
theorem Operand.forceString {code : String} {f : Form} (h : Operand .unbound code f) :
    Prints (BlockScribe.forceString code) .call f.asText ∧ f.asText.sem = f.sem.asText := by
  have hlit : Text.isStringLiteral code = f.isStr := by
    have := h.wf.isStringLiteral_code fun _ hb => hb.quotesEscaped
    rwa [← h.text_eq, String.ofList_toList] at this
  have hfaith := h.faithful (by decide) (by decide)
  unfold BlockScribe.forceString Form.asText
  rw [hlit]
  cases hs : f.isStr
  · -- passed to `String`, as the tree is
    have hstr : IsReference "String".toList := isReference_of_nameText (by decide) (.inl (by decide))
    refine ⟨.compound (by simp [h.text_eq]) (.call (.name hstr) (by decide) (by simpa using h.wf)
      (by simpa using Form.level_le_assign f)) (Level.le_refl _) (Form.compound_call _ _), ?_⟩
    simp [Expr.asText, ← hfaith.1, hs, Expr.word]
  · -- a string literal, as it is
    obtain ⟨body, rfl⟩ : ∃ body, f = .str body := by cases f <;> simp_all [Form.isStr]
    exact ⟨⟨by simpa using h.text_eq, h.wf, Level.primary_le _, hfaith, rfl,
      fun _ => Order.bare_call⟩, by simp [Expr.asText, Expr.isStr]⟩

end BlockScribe
