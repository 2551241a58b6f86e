import BlockScribe.Proofs.Generate.Exec
import BlockScribe.Proofs.Number.SafeIntegers
/-!
# Counting positions from one is transparent

A workspace counts text positions from zero or from one.  The rules that take a position
(`textCharAt`, `textGetSubstring`) write it as index arithmetic over the code of the position's
slot (`shiftIndex`, through `adjustedIndex`): counting from one, they take one off what the user
gave, an empty slot standing for the first position either way.

The arithmetic is `IndexExpr`: slot codes as leaves, number literals, shifts by constants,
negation and brackets, written as the rules write them (`IndexExpr.write_shifted`).  Under a
reading of the leaves (`IndexReading`) it stands for an integer; a numeral is read as its value,
which is folded exactly while it is a safe integer (`IndexExpr.value_shifted`).  A slot whose
code stands for a position one larger counting from one gives the same position in both
conventions (`IndexReading.shifted_recounted`), and so does an empty one
(`IndexReading.first_position`).

Two steps that run in two contexts from one session and leave the same session are `RunsAlike`.
-/

namespace BlockScribe

/-- A reading of index arithmetic: the integer that the code of an index slot stands for. -/
structure IndexReading where
  code : String → Int

/-- Index arithmetic as generated code writes it. -/
inductive IndexExpr where
  /-- The code of an index slot, taken as a whole. -/
  | code (c : String)
  /-- A number folded into a literal. -/
  | num (x : Binary64)
  /-- A shift up by a constant. -/
  | plus (e : IndexExpr) (d : Int)
  /-- A shift down by a constant. -/
  | minus (e : IndexExpr) (d : Int)
  /-- A negation. -/
  | neg (e : IndexExpr)
  /-- Brackets. -/
  | paren (e : IndexExpr)

namespace IndexExpr

/-- The code of index arithmetic. -/
def write : IndexExpr → String
  | code c => c
  | num x => formatNumber x
  | plus e d => e.write ++ " + " ++ toString d
  | minus e d => e.write ++ " - " ++ toString d
  | neg e => "-" ++ e.write
  | paren e => "(" ++ e.write ++ ")"

/-- The integer that index arithmetic stands for. -/
def value (r : IndexReading) : IndexExpr → Int
  | code c => r.code c
  | num x => x.truncate
  | plus e d => e.value r + d
  | minus e d => e.value r - d
  | neg e => -e.value r
  | paren e => e.value r

/-- The number a position's code is folded from, if it is a numeral. -/
def numeral (pos : String) : Option Binary64 := if Text.isNumber pos then parseNumber pos else none

/-- The index arithmetic that `shiftIndex` writes: a numeral folded with the shift, any other
code shifted, negated and bracketed as asked. -/
def shifted (pos : String) (delta : Int) (negate : Bool) (order : Order) : IndexExpr :=
  match numeral pos with
  | some v =>
    let s := v.add (Binary64.ofInt delta)
    num (if negate then s.neg else s)
  | none =>
    let (e, inner) : IndexExpr × Option Order :=
      if delta > 0 then (plus (code pos) delta, some .addition)
      else if delta < 0 then (minus (code pos) (-delta), some .subtraction)
      else (code pos, none)
    let (e, inner) : IndexExpr × Option Order :=
      if negate then (neg (if delta ≠ 0 then paren e else e), some .unaryNegation) else (e, inner)
    match inner with
    | some i => if order.tier ≥ i.tier then paren e else e
    | none => e

theorem minus_bracket (x : String) : "-" ++ ("(" ++ x ++ ")") = "-(" ++ x ++ ")" := by
  rw [← String.append_assoc, ← String.append_assoc]
  rfl

/-- `shifted` is what `shiftIndex` writes. -/
theorem write_shifted (pos : String) (delta : Int) (negate : Bool) (order : Order) :
    (shifted pos delta negate order).write = shiftIndex pos delta negate order := by
  have hfold : ∀ F : Binary64 → String,
      (if Text.isNumber pos = true then (parseNumber pos).map F else none) = (numeral pos).map F := by
    intro F
    unfold numeral
    split <;> rfl
  unfold shifted shiftIndex
  rw [hfold]
  cases numeral pos with
  | some v => rfl
  | none =>
    -- the shift, the negation and the brackets are chosen alike
    rcases lt_trichotomy delta 0 with hd | rfl | hd
    · have hp : ¬delta > 0 := by omega
      cases negate <;> simp [hp, hd] <;> split_ifs <;> simp [minus_bracket, write]
    · cases negate
      · rfl
      · simp only [if_true]
        split_ifs <;> rfl
    · cases negate <;> simp [hd] <;> split_ifs <;> simp [minus_bracket, write]

/-- A code that, if it is a numeral, stands for a safe integer: one below `2^53` in
magnitude. -/
def SafeNumeral (pos : String) : Prop :=
  ∀ x, numeral pos = some x → ∃ n : Int, x = Binary64.ofInt n ∧ n.natAbs < 2 ^ 53

end IndexExpr

/-- The position that a slot's code stands for: the value of a numeral, else what the reading
gives. -/
def IndexReading.position (r : IndexReading) (pos : String) : Int :=
  match IndexExpr.numeral pos with
  | some x => x.truncate
  | none => r.code pos

namespace IndexExpr

/-- A code that is no numeral, shifted and negated if asked, stands for its reading shifted and
negated, whatever its size. -/
theorem value_shifted_of_numeral_none (r : IndexReading) {pos : String} (hnum : numeral pos = none)
    (delta : Int) (negate : Bool) (order : Order) :
    (shifted pos delta negate order).value r =
      if negate then -(r.code pos + delta) else r.code pos + delta := by
  unfold shifted
  rw [hnum]
  -- brackets leave the value as it is
  rcases lt_trichotomy delta 0 with hd | rfl | hd
  · have hp : ¬delta > 0 := by omega
    have hne : delta ≠ 0 := by omega
    cases negate <;> simp only [hp, hd, hne, if_false, if_true, Bool.false_eq_true, ne_eq,
      not_false_eq_true] <;> split_ifs <;> simp [value]
  · cases negate
    · simp [value]
    · simp only [if_true]
      split_ifs <;> simp [value]
  · have hne : delta ≠ 0 := by omega
    cases negate <;> simp only [hd, hne, if_false, if_true, Bool.false_eq_true, ne_eq,
      not_false_eq_true] <;> split_ifs <;> simp [value]

/-- **`shiftIndex` shifts the position, negated if asked**, exactly while the result is at most
`2^53` in magnitude. -/
theorem value_shifted (r : IndexReading) {pos : String} (delta : Int) (negate : Bool)
    (order : Order) (hpos : SafeNumeral pos) (hdelta : delta.natAbs < 2 ^ 53)
    (hsum : (r.position pos + delta).natAbs ≤ 2 ^ 53) :
    (shifted pos delta negate order).value r =
      if negate then -(r.position pos + delta) else r.position pos + delta := by
  cases hnum : numeral pos with
  | some x =>
    -- a numeral is folded: the shift is exact on safe integers
    obtain ⟨n, rfl, hn⟩ := hpos _ hnum
    have hposition : r.position pos = n := by
      rw [IndexReading.position, hnum]
      exact Binary64.truncate_ofInt hn
    rw [hposition] at hsum ⊢
    unfold shifted
    rw [hnum]
    dsimp only
    cases negate
    · exact Binary64.truncate_add_ofInt hn hdelta hsum
    · rw [value, if_pos rfl, Binary64.truncate_neg, Binary64.truncate_add_ofInt hn hdelta hsum]
      rfl
  | none => rw [value_shifted_of_numeral_none r hnum, IndexReading.position, hnum]

end IndexExpr

/-! ## Two runs -/

section Runs

variable {α β γ δ : Type}

/-- Two outcomes that end in the same session and stop with the same error, or give values
related by `R`. -/
def OutcomesAlike (R : α → β → Prop) :
    Except GenerateError α × Session → Except GenerateError β × Session → Prop
  | (.ok a, s), (.ok b, t) => R a b ∧ s = t
  | (.error e, s), (.error e', t) => e = e' ∧ s = t
  | _, _ => False

/-- Two steps whose outcomes are alike when they run, in their two contexts, from any one
session. -/
def RunsAlike (ctx₀ ctx₁ : Context) (R : α → β → Prop) (m₀ : GenM α) (m₁ : GenM β) : Prop :=
  ∀ s, OutcomesAlike R (m₀.exec ctx₀ s) (m₁.exec ctx₁ s)

namespace RunsAlike

variable {ctx₀ ctx₁ : Context}

theorem pure {R : α → β → Prop} {a : α} {b : β} (h : R a b) :
    RunsAlike ctx₀ ctx₁ R (Pure.pure a : GenM α) (Pure.pure b : GenM β) :=
  fun _ => ⟨h, rfl⟩

/-- A step that reads nothing in which the two contexts differ runs alike in both. -/
theorem blind {m : GenM α} (h : ∀ s, m.exec ctx₀ s = m.exec ctx₁ s) :
    RunsAlike ctx₀ ctx₁ (· = ·) m m := by
  intro s
  rw [h s]
  rcases m.exec ctx₁ s with ⟨_ | _, t⟩ <;> exact ⟨rfl, rfl⟩

theorem read : RunsAlike ctx₀ ctx₁ (fun c₀ c₁ => c₀ = ctx₀ ∧ c₁ = ctx₁)
    (MonadReader.read : GenM Context) (MonadReader.read : GenM Context) :=
  fun _ => ⟨⟨rfl, rfl⟩, rfl⟩

/-- Two binds run alike when their first steps do and their continuations do after every pair
of related values. -/
theorem bind {R : α → β → Prop} {Q : γ → δ → Prop} {m₀ : GenM α} {m₁ : GenM β}
    {k₀ : α → GenM γ} {k₁ : β → GenM δ} (hm : RunsAlike ctx₀ ctx₁ R m₀ m₁)
    (hk : ∀ a b, R a b → RunsAlike ctx₀ ctx₁ Q (k₀ a) (k₁ b)) :
    RunsAlike ctx₀ ctx₁ Q (m₀ >>= k₀) (m₁ >>= k₁) := by
  intro s
  have h := hm s
  rw [GenM.exec_bind, GenM.exec_bind]
  revert h
  rcases m₀.exec ctx₀ s with ⟨e₀ | a, t₀⟩ <;> rcases m₁.exec ctx₁ s with ⟨e₁ | b, t₁⟩
  · rintro ⟨rfl, rfl⟩
    exact ⟨rfl, rfl⟩
  · exact False.elim
  · exact False.elim
  · rintro ⟨hab, rfl⟩
    exact hk a b hab t₀

/-- A bind whose first steps give equal values runs alike when its continuations do after
each value. -/
theorem bind_eq {Q : γ → δ → Prop} {m₀ m₁ : GenM α} {k₀ : α → GenM γ} {k₁ : α → GenM δ}
    (hm : RunsAlike ctx₀ ctx₁ (· = ·) m₀ m₁) (hk : ∀ a, RunsAlike ctx₀ ctx₁ Q (k₀ a) (k₁ a)) :
    RunsAlike ctx₀ ctx₁ Q (m₀ >>= k₀) (m₁ >>= k₁) :=
  hm.bind fun a _ h => h ▸ hk a

theorem map {R : α → β → Prop} {Q : γ → δ → Prop} {m₀ : GenM α} {m₁ : GenM β} {f : α → γ}
    {g : β → δ} (hm : RunsAlike ctx₀ ctx₁ R m₀ m₁) (hf : ∀ a b, R a b → Q (f a) (g b)) :
    RunsAlike ctx₀ ctx₁ Q (f <$> m₀) (g <$> m₁) := by
  rw [← bind_pure_comp, ← bind_pure_comp]
  exact hm.bind fun a b hab => pure (hf a b hab)

theorem ite (c : Prop) [Decidable c] {R : α → β → Prop} {x₀ y₀ : GenM α} {x₁ y₁ : GenM β}
    (hx : c → RunsAlike ctx₀ ctx₁ R x₀ x₁) (hy : ¬c → RunsAlike ctx₀ ctx₁ R y₀ y₁) :
    RunsAlike ctx₀ ctx₁ R (if c then x₀ else y₀) (if c then x₁ else y₁) := by
  by_cases h : c
  · rw [if_pos h, if_pos h]
    exact hx h
  · rw [if_neg h, if_neg h]
    exact hy h

theorem choose {ε : Type} [Inhabited ε] (b : Block) (field : String)
    (options : List (String × ε)) :
    RunsAlike ctx₀ ctx₁ (· = ·) (BlockScribe.choose b field options) (BlockScribe.choose b field options) :=
  blind fun s => by rw [exec_choose, exec_choose]

theorem provide (hconfig : ctx₀.config = ctx₁.config) (desired : String) (lines : List String) :
    RunsAlike ctx₀ ctx₁ (· = ·) (GenM.provide desired lines) (GenM.provide desired lines) :=
  blind fun s => by rw [GenM.exec_provide, GenM.exec_provide, hconfig]

end RunsAlike

end Runs

/-! ## The two conventions -/

namespace IndexReading

variable (r : IndexReading)

/-- A code of an index slot that can stand for a position: a numeral in it is a safe integer,
and so is the position it stands for. -/
structure Safe (pos : String) : Prop where
  numeral : IndexExpr.SafeNumeral pos
  bound : (r.position pos).natAbs < 2 ^ 53

/-- The numeral an empty index slot stands for, `0` or `1`, is a safe integer, and the first
position of its convention. -/
theorem first_position (oneBased : Bool) :
    IndexExpr.SafeNumeral (if oneBased then "1" else "0") ∧
      r.position (if oneBased then "1" else "0") = if oneBased then 1 else 0 := by
  cases oneBased
  · have h0 : IndexExpr.numeral "0" = some (Binary64.ofInt 0) := by decide +kernel
    refine ⟨fun x hx => ⟨0, Option.some.inj (hx.symm.trans h0), by decide⟩, ?_⟩
    simp only [Bool.false_eq_true, if_false, position, h0,
      Binary64.truncate_ofInt (show (0 : Int).natAbs < 2 ^ 53 by decide)]
  · have h1 : IndexExpr.numeral "1" = some (Binary64.ofInt 1) := by decide +kernel
    refine ⟨fun x hx => ⟨1, Option.some.inj (hx.symm.trans h1), by decide⟩, ?_⟩
    simp only [if_true, position, h1,
      Binary64.truncate_ofInt (show (1 : Int).natAbs < 2 ^ 53 by decide)]

end IndexReading

/-- **A position is the same in both conventions.**  Where a slot's code counting from one
stands for a position one larger than counting from zero, the slot shifted by `delta` (zero or
one) counting from zero and by one less counting from one, negated or not, stands for the same
integer, both shifts being exact on safe integers. -/
theorem IndexReading.shifted_recounted {r₀ r₁ : IndexReading} {p₀ p₁ : String} (hsafe₀ : r₀.Safe p₀)
    (hsafe₁ : r₁.Safe p₁) (hone : r₁.position p₁ = r₀.position p₀ + 1) {delta : Int}
    (hdelta : delta = 0 ∨ delta = 1) (negate : Bool) (order : Order) :
    (IndexExpr.shifted p₀ delta negate order).value r₀ =
      (IndexExpr.shifted p₁ (delta - 1) negate order).value r₁ := by
  have hbound₀ := hsafe₀.bound
  have hbound₁ := hsafe₁.bound
  rw [IndexExpr.value_shifted r₀ delta negate order hsafe₀.numeral (by omega) (by omega),
    IndexExpr.value_shifted r₁ (delta - 1) negate order hsafe₁.numeral (by omega) (by omega), hone]
  split_ifs <;> omega

end BlockScribe
