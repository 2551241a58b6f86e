import BlockScribe.Proofs.Text.CodeShape
import BlockScribe.Proofs.Generate.Indentation
import BlockScribe.Proofs.Generate.References
/-!
# Two generations that count positions differently

A workspace counts text positions from zero or from one (`Context.oneBased`).  The convention is
read in two places: where a position given in a slot is written (`adjustedIndex`, which shifts
it by one less counting from one, an empty slot standing for `0` or `1`), and where a position
is found (`Rules.textIndexOf`, which adds one counting from one).  Everything else is written
alike, but for the brackets that a value gets where it is used, which follow the order its rule
reports.

The code of the two generations is `Recounted`: made of the same texts, positions written from
positions of the two runs (`Recounted.position`, `Recounted.firstPosition`), positions found
with one added (`Recounted.found`), and values bracketed for the orders of the two runs.

A step is run twice (`Recounts`): in a context counting from zero and in the same context
counting from one, from sessions alike (`SessionsRecounted`): the same names and reached blocks,
and registries whose definitions have the same keys and names and recounted codes
(`Registry.Recounted`).  The two runs stop with the same error or end in sessions alike with
related values.  Each primitive step runs alike in both, and binds of steps that run alike run
alike (`Recounts.bind`).

The code of a value is asked about by the generator (`Text.isStringLiteral`, `Text.isWord`,
`Text.isNumber`, `Text.isQuotedWord`, emptiness).  The values of the two runs are `ValueCodes`:
recounted, told apart by no test of code (`Text.TestedAlike`), a string literal in both or in
neither, and solid at their ends, so that code written before them keeps them from being read
as literals (`Text.isStringLiteral_append_solid`).
-/

namespace BlockScribe

/-- The call that finds one text in another, from its start or from its end. -/
def foundAt (t needle : String) (first : Bool) : String :=
  t ++ "." ++ (if first then "indexOf" else "lastIndexOf") ++ "(" ++ needle ++ ")"

/-- The code of a generation counting positions from zero, and of the same generation counting
them from one. -/
inductive Recounted : String → String → Prop
  /-- The same text in both. -/
  | same (s : String) : Recounted s s
  | append {a₀ a₁ b₀ b₁ : String} : Recounted a₀ a₁ → Recounted b₀ b₁ →
      Recounted (a₀ ++ b₀) (a₁ ++ b₁)
  /-- A position given in a slot, shifted by zero or one counting from zero and by one less
  counting from one. -/
  | position {p₀ p₁ : String} : Recounted p₀ p₁ → ∀ {delta : Int}, (delta = 0 ∨ delta = 1) →
      ∀ negate order,
        Recounted (shiftIndex p₀ delta negate order) (shiftIndex p₁ (delta - 1) negate order)
  /-- An empty slot: the first position of each convention, shifted alike. -/
  | firstPosition {delta : Int} : (delta = 0 ∨ delta = 1) → ∀ negate order,
      Recounted (shiftIndex "0" delta negate order) (shiftIndex "1" (delta - 1) negate order)
  /-- A position found, and one added to it counting from one. -/
  | found {t₀ t₁ n₀ n₁ : String} : Recounted t₀ t₁ → Recounted n₀ n₁ → ∀ first,
      Recounted (foundAt t₀ n₀ first) (foundAt t₁ n₁ first ++ " + 1")
  /-- A value bracketed for the orders of each run. -/
  | bracket {a₀ a₁ : String} : Recounted a₀ a₁ → ∀ inner₀ inner₁ outer₀ outer₁,
      Recounted (bracket a₀ inner₀ outer₀) (bracket a₁ inner₁ outer₁)
  /-- Every line after the same prefix. -/
  | lines {a₀ a₁ : String} : Recounted a₀ a₁ → ∀ pre,
      Recounted (Text.prefixLines a₀ pre) (Text.prefixLines a₁ pre)

namespace Recounted

variable {a₀ a₁ b₀ b₁ : String}

theorem append_same (h : Recounted a₀ a₁) (s : String) : Recounted (a₀ ++ s) (a₁ ++ s) :=
  h.append (same s)

theorem same_append (s : String) (h : Recounted a₀ a₁) : Recounted (s ++ a₀) (s ++ a₁) :=
  (same s).append h

/-- Recounted codes joined by one separator. -/
theorem intercalate (sep : String) {xs ys : List String} (h : List.Forall₂ Recounted xs ys) :
    Recounted (sep.intercalate xs) (sep.intercalate ys) := by
  induction h with
  | nil => exact same _
  | cons hxy hrest ih =>
    cases hrest with
    | nil => simpa only [String.intercalate_singleton] using hxy
    | cons =>
      rw [String.intercalate_cons_cons, String.intercalate_cons_cons]
      exact (hxy.append_same sep).append ih

theorem join {xs ys : List String} (h : List.Forall₂ Recounted xs ys) :
    Recounted (String.join xs) (String.join ys) := by
  induction h with
  | nil => exact same _
  | cons hxy _ ih =>
    rw [String.join_cons, String.join_cons]
    exact hxy.append ih

/-- Recounted codes, each after one text, joined. -/
theorem join_map (sep : String) {xs ys : List String} (h : List.Forall₂ Recounted xs ys) :
    Recounted (String.join (xs.map (sep ++ ·))) (String.join (ys.map (sep ++ ·))) :=
  join (List.rel_map (fun ⦃_ _⦄ hxy => same_append sep hxy) h)

/-- A loop body with the loop's instrumentation around it. -/
theorem addLoopTrap (h : Recounted a₀ a₁) (c : Config) (b : Block) :
    Recounted (c.addLoopTrap a₀ b) (c.addLoopTrap a₁ b) := by
  rw [Config.addLoopTrap_eq, Config.addLoopTrap_eq]
  exact ((same _).append ((same _).append h)).append (same _)

/-- A statement between its prefix and suffix. -/
theorem wrapStatement (h : Recounted a₀ a₁) (c : Config) (kind : BlockKind) (b : Block) :
    Recounted (c.wrapStatement kind b a₀) (c.wrapStatement kind b a₁) := by
  unfold Config.wrapStatement
  split
  · exact h
  · exact ((same _).append h).append (same _)

end Recounted

/-! ### Codes of values and of statements -/

/-- Code of the two runs that is the same but for positions, and that no test of words, numbers
or emptiness tells apart. -/
structure Alike (a b : String) : Prop where
  recounted : Recounted a b
  tested : Text.TestedAlike a b

namespace Alike

variable {a₀ a₁ b₀ b₁ : String}

theorem same (s : String) : Alike s s := ⟨.same s, .refl s⟩

theorem append (ha : Alike a₀ a₁) (hb : Alike b₀ b₁) : Alike (a₀ ++ b₀) (a₁ ++ b₁) :=
  ⟨ha.recounted.append hb.recounted, ha.tested.append hb.tested⟩

theorem append_same (h : Alike a₀ a₁) (s : String) : Alike (a₀ ++ s) (a₁ ++ s) := h.append (same s)

theorem same_append (s : String) (h : Alike a₀ a₁) : Alike (s ++ a₀) (s ++ a₁) := (same s).append h

/-- Codes that both hold a bracket are told apart by no test. -/
theorem of_paren (h : Recounted a₀ a₁) (h₀ : '(' ∈ a₀.toList) (h₁ : '(' ∈ a₁.toList) :
    Alike a₀ a₁ :=
  ⟨h, .inr ⟨h₀, h₁⟩⟩

end Alike

/-- The code of one value in both runs: alike, solid at its end, and a string literal in both or
in neither. -/
structure ValueCodes (a b : String) : Prop where
  alike : Alike a b
  solid₀ : Text.Solid a.toList
  solid₁ : Text.Solid b.toList
  literal : Text.isStringLiteral b = Text.isStringLiteral a

namespace ValueCodes

variable {a₀ a₁ b₀ b₁ x₀ x₁ y₀ y₁ : String}

theorem same {a : String} (h : Text.Solid a.toList) : ValueCodes a a := ⟨.same a, h, h, rfl⟩

/-- Alike codes that end plainly are values of both runs, and no string literals. -/
theorem of_endsPlain (h : Alike a₀ a₁) (h₀ : Text.endsPlain a₀.toList = true)
    (h₁ : Text.endsPlain a₁.toList = true) : ValueCodes a₀ a₁ :=
  ⟨h, Text.solid_of_endsPlain h₀, Text.solid_of_endsPlain h₁,
    by rw [Text.isStringLiteral_eq_false_of_endsPlain h₀, Text.isStringLiteral_eq_false_of_endsPlain h₁]⟩

/-- A value after a lead: an operand and its operator. -/
theorem append_lead (hx : Alike x₀ x₁) (hx₀ : Text.Lead x₀.toList) (hx₁ : Text.Lead x₁.toList)
    (hy : ValueCodes y₀ y₁) : ValueCodes (x₀ ++ y₀) (x₁ ++ y₁) :=
  ⟨hx.append hy.alike, Text.Solid.append_lead hx₀ hy.solid₀, Text.Solid.append_lead hx₁ hy.solid₁,
    by rw [Text.isStringLiteral_append_solid hx₀ hy.solid₀, Text.isStringLiteral_append_solid hx₁ hy.solid₁]⟩

/-- Recounted codes that both hold a bracket and end plainly: most values of rules. -/
theorem bracketed (h : Recounted a₀ a₁) (h₀ : '(' ∈ a₀.toList) (h₁ : '(' ∈ a₁.toList)
    (e₀ : Text.endsPlain a₀.toList = true) (e₁ : Text.endsPlain a₁.toList = true) :
    ValueCodes a₀ a₁ :=
  of_endsPlain (.of_paren h h₀ h₁) e₀ e₁

/-- Recounted code with a bracket in it, closed by a bracket: a call in both runs. -/
theorem call (h : Recounted a₀ a₁) (h₀ : '(' ∈ a₀.toList) (h₁ : '(' ∈ a₁.toList) :
    ValueCodes (a₀ ++ ")") (a₁ ++ ")") :=
  bracketed (h.append_same _) (by simp [h₀]) (by simp [h₁]) (Text.endsPlain_append _ (by decide))
    (Text.endsPlain_append _ (by decide))

/-- Alike code followed by a text that ends plainly: a property or a method call. -/
theorem append_plain (h : Alike a₀ a₁) {s : String} (hs : Text.endsPlain s.toList = true) :
    ValueCodes (a₀ ++ s) (a₁ ++ s) :=
  of_endsPlain (h.append_same s) (Text.endsPlain_append _ hs) (Text.endsPlain_append _ hs)

theorem lead₀ (h : ValueCodes a₀ a₁) : Text.Lead a₀.toList := h.solid₀.lead

theorem lead₁ (h : ValueCodes a₀ a₁) : Text.Lead a₁.toList := h.solid₁.lead

/-- A value that is a string literal in neither run holds a bracket in both, or is the same. -/
theorem forceString (h : ValueCodes a₀ a₁) :
    ValueCodes (BlockScribe.forceString a₀) (BlockScribe.forceString a₁) := by
  have hclose : Text.endsPlain ")".toList = true := by decide
  unfold BlockScribe.forceString
  rw [h.literal]
  split
  · exact h
  · exact of_endsPlain (((Alike.same _).append h.alike).append_same _)
      (Text.endsPlain_append _ hclose) (Text.endsPlain_append _ hclose)

theorem isEmpty_eq (h : ValueCodes a₀ a₁) : a₁.isEmpty = a₀.isEmpty :=
  (h.alike.tested.isEmpty_eq).symm

end ValueCodes

theorem solid_bracket {a : String} (h : Text.Solid a.toList) (inner outer : Order) :
    Text.Solid (bracket a inner outer).toList := by
  unfold bracket
  split
  · exact Text.solid_of_endsPlain (Text.endsPlain_append _ (by decide))
  · exact h

theorem opaque_bracket {a : String} (h : Text.Opaque a) (inner outer : Order) :
    Text.Opaque (bracket a inner outer) := by
  unfold bracket
  split
  · exact ⟨by simp, Text.isStringLiteral_eq_false_of_endsPlain (Text.endsPlain_append _ (by decide))⟩
  · exact h

/-- A rule's value bracketed for one order in both runs: of the same order in both, or opaque in
both, so that the brackets it gets leave it a value of both runs. -/
theorem ValueCodes.bracket {a₀ a₁ : String} (h : ValueCodes a₀ a₁) {inner₀ inner₁ : Order}
    (hi : inner₁ = inner₀ ∨ Text.Opaque a₀ ∧ Text.Opaque a₁) (outer : Order) :
    ValueCodes (BlockScribe.bracket a₀ inner₀ outer) (BlockScribe.bracket a₁ inner₁ outer) := by
  rcases hi with rfl | ⟨ho₀, ho₁⟩
  · unfold BlockScribe.bracket
    split
    · exact of_endsPlain (((Alike.same _).append h.alike).append_same _)
        (Text.endsPlain_append _ (by decide)) (Text.endsPlain_append _ (by decide))
    · exact h
  · -- bracketed or not, opaque code keeps a bracket and is no literal
    have hb₀ := opaque_bracket ho₀ inner₀ outer
    have hb₁ := opaque_bracket ho₁ inner₁ outer
    exact ⟨⟨.bracket h.alike.recounted _ _ _ _, .of_opaqueCodes hb₀ hb₁⟩, solid_bracket h.solid₀ _ _,
      solid_bracket h.solid₁ _ _, by rw [hb₀.2, hb₁.2]⟩

/-- Statements of the two runs: recounted, and empty in both or in neither. -/
structure StatementsRecounted (a b : String) : Prop where
  recounted : Recounted a b
  isEmpty : b.isEmpty = a.isEmpty

namespace StatementsRecounted

variable {a₀ a₁ b₀ b₁ : String}

theorem same (a : String) : StatementsRecounted a a := ⟨.same a, rfl⟩

theorem append (ha : StatementsRecounted a₀ a₁) (hb : StatementsRecounted b₀ b₁) :
    StatementsRecounted (a₀ ++ b₀) (a₁ ++ b₁) :=
  ⟨ha.recounted.append hb.recounted, by
    simp only [Text.isEmpty_append, ha.isEmpty, hb.isEmpty]⟩

/-- Statements that end with some text are empty in neither run. -/
theorem closed (h : Recounted a₀ a₁) {s : String} (hs : s.isEmpty = false) :
    StatementsRecounted (a₀ ++ s) (a₁ ++ s) :=
  ⟨h.append_same s, by simp only [Text.isEmpty_append, hs, Bool.and_false]⟩

end StatementsRecounted

/-! ### Registries -/

theorem forall₂_toList {α β : Type} {R : α → β → Prop} {a : Option α} {b : Option β}
    (h : Option.Rel R a b) : List.Forall₂ R a.toList b.toList := by
  cases h with
  | some hab => exact .cons hab .nil
  | none => exact .nil

/-- A list updated at one place in two lists related place by place, by related elements. -/
theorem forall₂_set {α β : Type} {R : α → β → Prop} {l₀ : List α} {l₁ : List β}
    (h : List.Forall₂ R l₀ l₁) (i : Nat) {a : α} {b : β} (hab : R a b) :
    List.Forall₂ R (l₀.set i a) (l₁.set i b) := by
  induction h generalizing i with
  | nil => exact .nil
  | cons hxy htail ih =>
    cases i with
    | zero => exact .cons hab htail
    | succ i => exact .cons hxy (ih i)

namespace Registry

/-- Two definitions under the same key and name, the code of the second recounted from the
first's. -/
def EntriesRecounted (e₀ e₁ : DefinitionKey × Definition) : Prop :=
  e₁.1 = e₀.1 ∧ e₁.2.name = e₀.2.name ∧ BlockScribe.Recounted e₀.2.code e₁.2.code

/-- Two registries with the same keys and names in the same order, the codes of the second
recounted from those of the first. -/
def Recounted (r₀ r₁ : Registry) : Prop :=
  List.Forall₂ EntriesRecounted r₀.entries.toList r₁.entries.toList

namespace Recounted

variable {r₀ r₁ : Registry}

theorem refl (r : Registry) : r.Recounted r :=
  List.forall₂_same.2 fun _ _ => ⟨rfl, rfl, .same _⟩

/-- Both registries find definitions of the same name under every key. -/
theorem find? (h : r₀.Recounted r₁) (k : DefinitionKey) :
    Option.Rel (fun d₀ d₁ => d₁.name = d₀.name) (r₀.find? k) (r₁.find? k) := by
  rw [find?_eq, find?_eq]
  unfold Recounted at h
  generalize r₀.entries.toList = l₀ at h ⊢
  generalize r₁.entries.toList = l₁ at h ⊢
  induction h with
  | nil => exact .none
  | cons he _ ih =>
    rw [List.find?_cons, List.find?_cons, he.1]
    split
    · exact .some he.2.1
    · exact ih

theorem findIdx?_eq (h : r₀.Recounted r₁) (k : DefinitionKey) :
    r₁.entries.findIdx? (·.1 == k) = r₀.entries.findIdx? (·.1 == k) := by
  rcases r₀ with ⟨⟨l₀⟩⟩
  rcases r₁ with ⟨⟨l₁⟩⟩
  simp only [List.findIdx?_toArray]
  change List.Forall₂ _ l₀ l₁ at h
  induction h with
  | nil => rfl
  | cons he _ ih => rw [List.findIdx?_cons, List.findIdx?_cons, he.1, ih]

/-- Registering a definition under the same key and name in both, its code recounted. -/
theorem insert (h : r₀.Recounted r₁) (k : DefinitionKey) {d₀ d₁ : Definition}
    (hname : d₁.name = d₀.name) (hcode : BlockScribe.Recounted d₀.code d₁.code) :
    (r₀.insert k d₀).1.Recounted (r₁.insert k d₁).1 := by
  unfold Registry.insert
  rw [h.findIdx?_eq]
  cases r₀.entries.findIdx? (·.1 == k) with
  | some i =>
    show List.Forall₂ _ (r₀.entries.set! i (k, d₀)).toList (r₁.entries.set! i (k, d₁)).toList
    rw [Array.toList_set!, Array.toList_set!]
    exact forall₂_set h i ⟨rfl, hname, hcode⟩
  | none =>
    show List.Forall₂ _ (r₀.entries.push (k, d₀)).toList (r₁.entries.push (k, d₁)).toList
    rw [Array.toList_push, Array.toList_push]
    exact List.rel_append h (.cons ⟨rfl, hname, hcode⟩ .nil)

/-- A helper is provided under the same name in both, registered with the same code the first
time. -/
theorem provide (h : r₀.Recounted r₁) (t : NameTable) (unit desired : String)
    (lines : List String) :
    (r₁.provide t unit desired lines).1 = (r₀.provide t unit desired lines).1 ∧
      (r₀.provide t unit desired lines).2.1.Recounted (r₁.provide t unit desired lines).2.1 ∧
      (r₁.provide t unit desired lines).2.2.1 = (r₀.provide t unit desired lines).2.2.1 := by
  have hfind := h.find? (.helper desired)
  unfold Registry.provide
  rcases h₀ : r₀.find? (.helper desired) with _ | d₀ <;>
    rcases h₁ : r₁.find? (.helper desired) with _ | d₁ <;> rw [h₀, h₁] at hfind
  · exact ⟨rfl, h.insert _ rfl (.same _), rfl⟩
  · cases hfind
  · cases hfind
  · cases hfind with
    | some hd => exact ⟨hd, h, rfl⟩

theorem defineProcedure (h : r₀.Recounted r₁) (name : String) {code₀ code₁ : String}
    (hcode : BlockScribe.Recounted code₀ code₁) :
    (r₀.defineProcedure name code₀).1.Recounted (r₁.defineProcedure name code₁).1 :=
  h.insert _ rfl hcode

theorem codes (h : r₀.Recounted r₁) : List.Forall₂ BlockScribe.Recounted r₀.codes r₁.codes := by
  rw [Registry.codes, Registry.codes, List.forall₂_map_left_iff, List.forall₂_map_right_iff]
  exact h.imp fun _ _ he => he.2.2

end Recounted

end Registry

/-! ### Two runs -/

/-- The context counting positions from one, its options saying so. -/
def Context.countingFromOne (ctx : Context) : Context :=
  { ctx with oneBased := true, config := { ctx.config with oneBasedIndex := some true } }

namespace Context

variable (ctx : Context)

@[simp] theorem countingFromOne_workspace : ctx.countingFromOne.workspace = ctx.workspace := rfl

@[simp] theorem countingFromOne_oneBased : ctx.countingFromOne.oneBased = true := rfl

@[simp] theorem countingFromOne_scope : ctx.countingFromOne.scope = ctx.scope := rfl

@[simp] theorem countingFromOne_ancestors : ctx.countingFromOne.ancestors = ctx.ancestors := rfl

@[simp] theorem countingFromOne_reach : ctx.countingFromOne.reach = ctx.reach := rfl

/-- The options that code is written by are the same in both conventions. -/
@[simp] theorem countingFromOne_indent : ctx.countingFromOne.config.indent = ctx.config.indent := rfl

@[simp] theorem countingFromOne_prefixFor :
    ctx.countingFromOne.config.prefixFor = ctx.config.prefixFor := rfl

@[simp] theorem countingFromOne_suffixFor :
    ctx.countingFromOne.config.suffixFor = ctx.config.suffixFor := rfl

@[simp] theorem countingFromOne_earlyExitSuffix :
    ctx.countingFromOne.config.earlyExitSuffix = ctx.config.earlyExitSuffix := rfl

@[simp] theorem countingFromOne_addLoopTrap :
    ctx.countingFromOne.config.addLoopTrap = ctx.config.addLoopTrap := rfl

@[simp] theorem countingFromOne_indentedLoopTrap :
    ctx.countingFromOne.config.indentedLoopTrap = ctx.config.indentedLoopTrap := rfl

@[simp] theorem countingFromOne_wrapStatement :
    ctx.countingFromOne.config.wrapStatement = ctx.config.wrapStatement := rfl

end Context

/-- Two sessions of the two runs: the same names and reached blocks, registries recounted, and
names that are references. -/
structure SessionsRecounted (s t : Session) : Prop where
  names : t.names = s.names
  seen : t.seen = s.seen
  registry : s.registry.Recounted t.registry
  refs : s.NamesAreReferences

/-- Two outcomes: the same error, or related values and sessions alike. -/
def OutcomesRecounted {α β : Type} (R : α → β → Prop) :
    Except GenerateError α × Session → Except GenerateError β × Session → Prop
  | (.ok a, s), (.ok b, t) => R a b ∧ SessionsRecounted s t
  | (.error e, _), (.error e', _) => e = e'
  | _, _ => False

/-- Two steps, run in a context and in the same context counting positions from one, from
sessions alike, stop with the same error or give related values and end in sessions alike. -/
def Recounts {α β : Type} (ctx : Context) (R : α → β → Prop) (m₀ : GenM α) (m₁ : GenM β) : Prop :=
  ∀ s t, SessionsRecounted s t → OutcomesRecounted R (m₀.exec ctx s) (m₁.exec ctx.countingFromOne t)

namespace Recounts

variable {ctx : Context} {α β γ δ : Type}

theorem pure {R : α → β → Prop} {a : α} {b : β} (h : R a b) :
    Recounts ctx R (Pure.pure a : GenM α) (Pure.pure b : GenM β) :=
  fun _ _ hst => ⟨h, hst⟩

/-- Steps that run alike with related values run alike with values related more loosely. -/
theorem imp {R Q : α → β → Prop} {m₀ : GenM α} {m₁ : GenM β} (h : Recounts ctx R m₀ m₁)
    (hRQ : ∀ a b, R a b → Q a b) : Recounts ctx Q m₀ m₁ := by
  intro s t hst
  have hout := h s t hst
  revert hout
  rcases m₀.exec ctx s with ⟨e₀ | a, s'⟩ <;> rcases m₁.exec ctx.countingFromOne t with ⟨e₁ | b, t'⟩
  · exact id
  · exact False.elim
  · exact False.elim
  · rintro ⟨hab, hst'⟩
    exact ⟨hRQ a b hab, hst'⟩

/-- Two binds run alike when their first steps do and their continuations do after every pair of
related values. -/
theorem bind {R : α → β → Prop} {Q : γ → δ → Prop} {m₀ : GenM α} {m₁ : GenM β}
    {k₀ : α → GenM γ} {k₁ : β → GenM δ} (hm : Recounts ctx R m₀ m₁)
    (hk : ∀ a b, R a b → Recounts ctx Q (k₀ a) (k₁ b)) :
    Recounts ctx Q (m₀ >>= k₀) (m₁ >>= k₁) := by
  intro s t hst
  have h := hm s t hst
  rw [GenM.exec_bind, GenM.exec_bind]
  revert h
  rcases m₀.exec ctx s with ⟨e₀ | a, s'⟩ <;> rcases m₁.exec ctx.countingFromOne t with ⟨e₁ | b, t'⟩
  · exact id
  · exact False.elim
  · exact False.elim
  · rintro ⟨hab, hst'⟩
    exact hk a b hab s' t' hst'

/-- A bind whose first steps give the same value, with a property, runs alike when its
continuations do after every such value. -/
theorem bind_same {P : α → Prop} {Q : γ → δ → Prop} {m₀ m₁ : GenM α} {k₀ : α → GenM γ}
    {k₁ : α → GenM δ} (hm : Recounts ctx (Same P) m₀ m₁)
    (hk : ∀ a, P a → Recounts ctx Q (k₀ a) (k₁ a)) :
    Recounts ctx Q (m₀ >>= k₀) (m₁ >>= k₁) :=
  hm.bind fun a _ ⟨hb, ha⟩ => hb ▸ hk a ha

theorem bind_eq {Q : γ → δ → Prop} {m₀ m₁ : GenM α} {k₀ : α → GenM γ} {k₁ : α → GenM δ}
    (hm : Recounts ctx (· = ·) m₀ m₁) (hk : ∀ a, Recounts ctx Q (k₀ a) (k₁ a)) :
    Recounts ctx Q (m₀ >>= k₀) (m₁ >>= k₁) :=
  hm.bind fun a _ h => h ▸ hk a

theorem map {R : α → β → Prop} {Q : γ → δ → Prop} {m₀ : GenM α} {m₁ : GenM β} {f : α → γ}
    {g : β → δ} (hm : Recounts ctx R m₀ m₁) (hf : ∀ a b, R a b → Q (f a) (g b)) :
    Recounts ctx Q (f <$> m₀) (g <$> m₁) := by
  rw [← bind_pure_comp, ← bind_pure_comp]
  exact hm.bind fun a b hab => pure (hf a b hab)

theorem ite (c : Prop) [Decidable c] {R : α → β → Prop} {x₀ y₀ : GenM α} {x₁ y₁ : GenM β}
    (hx : c → Recounts ctx R x₀ x₁) (hy : ¬c → Recounts ctx R y₀ y₁) :
    Recounts ctx R (if c then x₀ else y₀) (if c then x₁ else y₁) := by
  by_cases h : c
  · rw [if_pos h, if_pos h]
    exact hx h
  · rw [if_neg h, if_neg h]
    exact hy h

theorem throw (e : GenerateError) {R : α → β → Prop} :
    Recounts ctx R (MonadExcept.throw e : GenM α) (MonadExcept.throw e : GenM β) :=
  fun _ _ _ => rfl

theorem read : Recounts ctx (fun c₀ c₁ => c₀ = ctx ∧ c₁ = ctx.countingFromOne)
    (MonadReader.read : GenM Context) (MonadReader.read : GenM Context) :=
  fun _ _ hst => ⟨⟨rfl, rfl⟩, hst⟩

/-- A step after reading the context runs alike when it does for the two contexts read. -/
theorem read_bind {R : α → β → Prop} {k₀ : Context → GenM α} {k₁ : Context → GenM β}
    (h : Recounts ctx R (k₀ ctx) (k₁ ctx.countingFromOne)) :
    Recounts ctx R (MonadReader.read >>= k₀) (MonadReader.read >>= k₁) :=
  read.bind fun _ _ hc => by
    obtain ⟨rfl, rfl⟩ := hc
    exact h

theorem block (i : Nat) : Recounts ctx (· = ·) (GenM.block i) (GenM.block i) := by
  intro s t hst
  rw [GenM.exec_block, GenM.exec_block, Context.countingFromOne_workspace]
  cases ctx.workspace.get? i with
  | none => rfl
  | some b => exact ⟨rfl, hst⟩

theorem visit (i : Nat) (b : Block) : Recounts ctx (· = ·) (GenM.visit i b) (GenM.visit i b) := by
  intro s t hst
  rw [GenM.exec_visit, GenM.exec_visit, hst.seen]
  split
  · rfl
  · exact ⟨rfl, hst.names, rfl, hst.registry, namesAreReferences.congr (s := s) rfl rfl hst.refs⟩

theorem emit (e : Event) : Recounts ctx (· = ·) (GenM.emit e) (GenM.emit e) :=
  fun s _ hst => ⟨rfl, hst.names, hst.seen, hst.registry, namesAreReferences.congr (s := s) rfl rfl hst.refs⟩

theorem kindOf (b : Block) : Recounts ctx (· = ·) (GenM.kindOf b) (GenM.kindOf b) := by
  intro s t hst
  rw [GenM.exec_kindOf, GenM.exec_kindOf]
  cases BlockKind.ofName? b.kind with
  | none => rfl
  | some k => exact ⟨rfl, hst⟩

theorem choose {ε : Type} [Inhabited ε] (b : Block) (field : String) (options : List (String × ε)) :
    Recounts ctx (· = ·) (BlockScribe.choose b field options) (BlockScribe.choose b field options) := by
  intro s t hst
  rw [exec_choose, exec_choose]
  cases b.field? field with
  | none => exact ⟨rfl, hst⟩
  | some v =>
    dsimp only
    cases options.find? (·.1 == v) with
    | none => rfl
    | some o => exact ⟨rfl, hst⟩

/-- Both runs choose the same option: one of those listed, or the default when there are none. -/
theorem choose_mem {ε : Type} [Inhabited ε] (b : Block) (field : String) (options : List (String × ε)) :
    Recounts ctx (Same fun a => a ∈ options.map (·.2) ∨ a = default)
      (BlockScribe.choose b field options) (BlockScribe.choose b field options) := by
  intro s t hst
  rw [exec_choose, exec_choose]
  cases b.field? field with
  | none =>
    refine ⟨⟨rfl, ?_⟩, hst⟩
    cases options with
    | nil => exact .inr rfl
    | cons o os => exact .inl (List.mem_map.2 ⟨o, List.mem_cons_self, rfl⟩)
  | some v =>
    dsimp only
    cases hfind : options.find? (·.1 == v) with
    | none => rfl
    | some o => exact ⟨⟨rfl, .inl (List.mem_map.2 ⟨o, List.mem_of_find?_eq_some hfind, rfl⟩)⟩, hst⟩

theorem surroundingLoop :
    Recounts ctx (· = ·) GenM.surroundingLoop GenM.surroundingLoop :=
  fun _ _ hst => ⟨rfl, hst⟩

/-- Both runs name a variable alike, with a name that ends plainly. -/
theorem variableName (key : String) :
    Recounts ctx (Same fun n => Text.endsPlain n.toList = true) (GenM.variableName key)
      (GenM.variableName key) := by
  intro s t hst
  have hrefs := namesAreReferences.prim (.variableName key) ctx s hst.refs
  rw [GenM.exec_variableName] at hrefs
  rw [GenM.exec_variableName, GenM.exec_variableName, hst.names]
  exact ⟨⟨rfl, Text.endsPlain_of_isName (hst.refs.nameFor key .variable NameTable.global).1.1⟩,
    rfl, hst.seen, hst.registry, hrefs⟩

theorem procedureName (key : String) :
    Recounts ctx (· = ·) (GenM.procedureName key) (GenM.procedureName key) := by
  intro s t hst
  have hrefs := namesAreReferences.prim (.procedureName key) ctx s hst.refs
  rw [GenM.exec_procedureName] at hrefs
  rw [GenM.exec_procedureName, GenM.exec_procedureName, hst.names]
  exact ⟨rfl, rfl, hst.seen, hst.registry, hrefs⟩

theorem temporary (base : String) :
    Recounts ctx (· = ·) (GenM.temporary base) (GenM.temporary base) := by
  intro s t hst
  have hrefs := namesAreReferences.prim (.temporary base) ctx s hst.refs
  rw [GenM.exec_temporary] at hrefs
  rw [GenM.exec_temporary, GenM.exec_temporary, hst.names, Context.countingFromOne_scope]
  exact ⟨rfl, rfl, hst.seen, hst.registry, hrefs⟩

/-- A helper gets the same name in both runs, and the same code the first time. -/
theorem provide (desired : String) (lines : List String) :
    Recounts ctx (· = ·) (GenM.provide desired lines) (GenM.provide desired lines) := by
  intro s t hst
  have hrefs := namesAreReferences.prim (.provide desired lines) ctx s hst.refs
  have hprovide := hst.registry.provide s.names ctx.config.indent desired lines
  rw [GenM.exec_provide] at hrefs
  rw [GenM.exec_provide, GenM.exec_provide, hst.names, Context.countingFromOne_indent]
  rcases hp₀ : s.registry.provide s.names ctx.config.indent desired lines with ⟨n₀, r₀, t₀, f₀⟩
  rcases hp₁ : t.registry.provide s.names ctx.config.indent desired lines with ⟨n₁, r₁, t₁, f₁⟩
  rw [hp₀, hp₁] at hprovide
  rw [hp₀] at hrefs
  obtain ⟨rfl, hreg, rfl⟩ := hprovide
  exact ⟨rfl, rfl, hst.seen, hreg, hrefs⟩

/-- A procedure is registered in both runs, its code recounted. -/
theorem defineProcedure (name : String) {code₀ code₁ : String} (h : Recounted code₀ code₁) :
    Recounts ctx (· = ·) (GenM.defineProcedure name code₀) (GenM.defineProcedure name code₁) := by
  intro s t hst
  have hrefs := namesAreReferences.prim (.defineProcedure name code₀) ctx s hst.refs
  rw [GenM.exec_defineProcedure] at hrefs
  rw [GenM.exec_defineProcedure, GenM.exec_defineProcedure]
  exact ⟨rfl, hst.names, hst.seen, hst.registry.defineProcedure name h, hrefs⟩

theorem inChildScope {R : α → β → Prop} {m₀ : GenM α} {m₁ : GenM β}
    (h : ∀ sc, Recounts { ctx with scope := sc } R m₀ m₁) :
    Recounts ctx R (GenM.inChildScope m₀) (GenM.inChildScope m₁) := by
  intro s t hst
  rw [GenM.exec_inChildScope, GenM.exec_inChildScope, hst.names]
  exact h _ _ _ ⟨rfl, hst.seen, hst.registry, namesAreReferences.openScope s _ hst.refs⟩

theorem withReader {f : Context → Context} (hf : ∀ c, f c.countingFromOne = (f c).countingFromOne)
    {R : α → β → Prop} {m₀ : GenM α} {m₁ : GenM β} (h : Recounts (f ctx) R m₀ m₁) :
    Recounts ctx R (MonadWithReader.withReader f m₀) (MonadWithReader.withReader f m₁) := by
  intro s t hst
  rw [GenM.exec_withReader, GenM.exec_withReader, hf]
  exact h s t hst

/-- Two choices on conditions that hold together. -/
theorem ite_of_iff {c c' : Prop} [Decidable c] [Decidable c'] (hcc : c ↔ c') {R : α → β → Prop}
    {x₀ y₀ : GenM α} {x₁ y₁ : GenM β} (hx : c → Recounts ctx R x₀ x₁)
    (hy : ¬c → Recounts ctx R y₀ y₁) :
    Recounts ctx R (if c then x₀ else y₀) (if c' then x₁ else y₁) := by
  by_cases h : c
  · rw [if_pos h, if_pos (hcc.1 h)]
    exact hx h
  · rw [if_neg h, if_neg (mt hcc.2 h)]
    exact hy h

/-- Two loops over one list run alike from related states when their turns do. -/
theorem forIn {σ₀ σ₁ : Type} (I : σ₀ → σ₁ → Prop) (xs : List γ) {init₀ : σ₀} {init₁ : σ₁}
    (hinit : I init₀ init₁) {f₀ : γ → σ₀ → GenM (ForInStep σ₀)} {f₁ : γ → σ₁ → GenM (ForInStep σ₁)}
    (hf : ∀ x a b, I a b → Recounts ctx (Reindents.StepsAlike I) (f₀ x a) (f₁ x b)) :
    Recounts ctx I (ForIn.forIn xs init₀ f₀) (ForIn.forIn xs init₁ f₁) := by
  induction xs generalizing init₀ init₁ with
  | nil => exact pure hinit
  | cons x xs ih =>
    rw [List.forIn_cons, List.forIn_cons]
    refine (hf x _ _ hinit).bind fun s₀ s₁ hs => ?_
    cases s₀ <;> cases s₁
    · exact pure hs
    · exact hs.elim
    · exact hs.elim
    · exact ih hs

/-- Steps that give the same value in both runs, mapped over a list. -/
theorem mapM {P : α → Prop} {f₀ f₁ : γ → GenM α} (hf : ∀ x, Recounts ctx (Same P) (f₀ x) (f₁ x)) :
    ∀ xs : List γ, Recounts ctx (Same fun as => ∀ a ∈ as, P a) (xs.mapM f₀) (xs.mapM f₁)
  | [] => pure ⟨rfl, by simp⟩
  | x :: xs => by
    rw [List.mapM_cons, List.mapM_cons]
    exact (hf x).bind_same fun a ha => (mapM hf xs).bind_same fun as has =>
      pure ⟨rfl, List.forall_mem_cons.2 ⟨ha, has⟩⟩

/-- Steps related pointwise, mapped over a list. -/
theorem mapM_forall₂ {R : α → β → Prop} {f₀ : γ → GenM α} {f₁ : γ → GenM β}
    (hf : ∀ x, Recounts ctx R (f₀ x) (f₁ x)) :
    ∀ xs : List γ, Recounts ctx (List.Forall₂ R) (xs.mapM f₀) (xs.mapM f₁)
  | [] => pure .nil
  | x :: xs => by
    rw [List.mapM_cons, List.mapM_cons]
    exact (hf x).bind fun _ _ hab => (mapM_forall₂ hf xs).bind fun _ _ habs => pure (.cons hab habs)

end Recounts

/-! ### Children and outputs -/

/-- What a rule makes of a block in both runs: values of both runs of one order, or opaque ones;
statements recounted; or nothing in place. -/
def OutputsRecounted : Output → Output → Prop
  | .value c₀ o₀, .value c₁ o₁ => ValueCodes c₀ c₁ ∧ (o₁ = o₀ ∨ Text.Opaque c₀ ∧ Text.Opaque c₁)
  | .statement c₀, .statement c₁ => StatementsRecounted c₀ c₁
  | .hoisted, .hoisted => True
  | _, _ => False

/-- The children of a block in both runs, in every context counting from zero: values of both
runs in a slot asked for at one order, recounted code in a slot asked for at two orders, and
statements recounted. -/
structure ChildrenRecount (ch : Children) : Prop where
  value : ∀ ctx : Context, ctx.oneBased = false → ∀ slot order,
    Recounts ctx (Option.Rel ValueCodes) (ch.value slot order) (ch.value slot order)
  position : ∀ ctx : Context, ctx.oneBased = false → ∀ slot order₀ order₁,
    Recounts ctx (Option.Rel Recounted) (ch.value slot order₀) (ch.value slot order₁)
  body : ∀ ctx : Context, ctx.oneBased = false → ∀ slot,
    Recounts ctx StatementsRecounted (ch.body slot) (ch.body slot)

end BlockScribe
