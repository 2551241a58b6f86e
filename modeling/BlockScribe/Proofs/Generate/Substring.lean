import BlockScribe.Proofs.Generate.IndexOperand
/-!
# A part of a text is taken alike inline and through a helper

`Rules.textGetSubstring` writes a part of a text in one of two ways
(`Rules.textGetSubstring_eq`).  Inline, it calls `slice` on the text with a start
(`substringStart`) and an end (`substringEnd`), each shifted by `adjustedIndex` and,
when counted from the end, subtracted from the text's length (`PartBound`).  Through a helper,
it passes the positions given to `adjustedIndex` unshifted (`substringArg`), and the helper
`subsequence<Start><End>` computes its start and its end, which is one past the position it
names, from them and from the length of its sequence (`HelperBound`, `subsequenceLines_bounds`).

Read as integer arithmetic over the positions the index slots stand for and the length of the
text, the two ways give the same start and the same end (`substring_inline_and_helper_agree`),
whichever ends are asked for, counting from zero or from one, in every position and for every
length.  It rests on one fact about `adjustedIndex`: two calls on one slot stand for the same
position shifted by their own deltas (`adjustedIndex_alike`).  That needs a numeral in an index
slot to be a safe integer, below `2^53` in magnitude: `adjustedIndex` folds a numeral with its
shift in binary64, so past the safe integers the inline start of a part counted from the end
stands one past the helper's (`substring_start_past_safe_integers`).
-/

namespace BlockScribe

namespace IndexExpr

/-- **A shift by at most one stands for the position shifted**, a numeral being a safe
integer. -/
theorem value_shifted_of_safe (r : IndexReading) {pos : String} (hpos : SafeNumeral pos)
    {delta : Int} (hdelta : delta.natAbs ≤ 1) (order : Order) :
    (shifted pos delta false order).value r = r.position pos + delta := by
  cases hnum : numeral pos with
  | none =>
    rw [value_shifted_of_numeral_none r hnum, IndexReading.position, hnum]
    rfl
  | some x =>
    obtain ⟨n, rfl, hn⟩ := hpos _ hnum
    have hposition : r.position pos = n := by
      rw [IndexReading.position, hnum]
      exact Binary64.truncate_ofInt hn
    rw [value_shifted r delta false order hpos (by omega) (by rw [hposition]; omega), hposition]
    rfl

end IndexExpr

namespace IndexReading

variable (r : IndexReading)

/-- Two codes of one position: both stand for the same integer, and a numeral among them for a
safe integer. -/
def SamePosition (c₀ c₁ : String) : Prop :=
  IndexExpr.SafeNumeral c₀ ∧ IndexExpr.SafeNumeral c₁ ∧ r.position c₀ = r.position c₁

/-- The first position of either convention, written as a numeral, is a safe integer. -/
theorem samePosition_default (oneBased : Bool) :
    r.SamePosition (if oneBased then "1" else "0") (if oneBased then "1" else "0") :=
  ⟨(r.first_position oneBased).1, (r.first_position oneBased).1, rfl⟩

end IndexReading

/-- The index slots of a part of a text stand for one position whatever order they are asked
at: asked at any two orders from one session, they end alike, and give no code or codes of the
same position. -/
def IndexSlotsAgree (r : IndexReading) (ctx : Context) (ch : Children) : Prop :=
  ∀ slot ∈ ["AT1", "AT2"], ∀ order₀ order₁,
    RunsAlike ctx ctx (Option.Rel r.SamePosition) (ch.value slot order₀) (ch.value slot order₁)

/-- **Two calls of `adjustedIndex` on one slot stand for one position**, each shifted by its
own delta (of zero or one), whatever orders they ask for and in either convention. -/
theorem adjustedIndex_alike {r : IndexReading} {ctx : Context} {ch : Children}
    (h : IndexSlotsAgree r ctx ch) {slot : String} (hslot : slot ∈ ["AT1", "AT2"])
    {d₀ d₁ : Int} (hd₀ : 0 ≤ d₀ ∧ d₀ ≤ 1) (hd₁ : 0 ≤ d₁ ∧ d₁ ≤ 1) (o₀ o₁ : Order) :
    RunsAlike ctx ctx
      (fun x₀ x₁ => ∃ e₀ e₁ : IndexExpr, x₀ = e₀.write ∧ x₁ = e₁.write ∧
        e₀.value r - d₀ = e₁.value r - d₁)
      (adjustedIndex ch slot d₀ false o₀) (adjustedIndex ch slot d₁ false o₁) := by
  unfold adjustedIndex Children.valueOr
  refine RunsAlike.read.bind fun c₀ c₁ hc => ?_
  obtain ⟨h₀, h₁⟩ := hc
  rw [h₀, h₁]
  simp only [bind_assoc, pure_bind]
  refine (h slot hslot _ _).bind fun p₀ p₁ hp => RunsAlike.pure ?_
  -- the codes given, or the first position when none is, stand for one position
  have hsame : r.SamePosition (p₀.getD (if ctx.oneBased then "1" else "0"))
      (p₁.getD (if ctx.oneBased then "1" else "0")) := by
    cases hp with
    | none => exact r.samePosition_default ctx.oneBased
    | some h => exact h
  obtain ⟨hs₀, hs₁, hpos⟩ := hsame
  refine ⟨_, _, (IndexExpr.write_shifted _ _ _ _).symm, (IndexExpr.write_shifted _ _ _ _).symm, ?_⟩
  -- counting from one takes one off both deltas
  have hshift : ∀ d : Int, 0 ≤ d ∧ d ≤ 1 →
      (if ctx.oneBased = true then d - 1 else d).natAbs ≤ 1 := by
    intro d hd
    split_ifs <;> omega
  rw [IndexExpr.value_shifted_of_safe r hs₀ (hshift d₀ hd₀),
    IndexExpr.value_shifted_of_safe r hs₁ (hshift d₁ hd₁), hpos]
  split_ifs <;> omega

/-! ## The two ways of writing a part -/

namespace Rules

/-- The start of a part of a text as the inline way writes it. -/
def substringStart (ch : Children) (t : String) : PartStart → GenM String
  | .fromStart => adjustedIndex ch "AT1" 0 false .unbound
  | .fromEnd => do
    let i ← adjustedIndex ch "AT1" 1 false .subtraction
    pure (t ++ ".length - " ++ i)
  | .first => pure "0"

/-- The end of a part of a text as the inline way writes it. -/
def substringEnd (ch : Children) (t : String) : PartEnd → GenM String
  | .fromStart => adjustedIndex ch "AT2" 1 false .unbound
  | .fromEnd => do
    let i ← adjustedIndex ch "AT2" 0 false .subtraction
    pure (t ++ ".length - " ++ i)
  | .last => pure (t ++ ".length")

/-- The position passed to the helper for one end, if the helper takes it. -/
def substringArg (ch : Children) (slot : String) (takes : Bool) : GenM (Option String) :=
  if takes then some <$> adjustedIndex ch slot 0 false .unbound else pure none

/-- **A part of a text is written inline or through a helper**: inline when the text is a
quoted word or no end needs its length, from `substringStart` and `substringEnd`; otherwise a
call of the helper for the two ends on the text and the positions `substringArg` gives. -/
theorem textGetSubstring_eq (ch : Children) (b : Block) :
    textGetSubstring ch b = (do
      let t ← ch.valueOr "STRING" .call "''"
      let start ← choose b "WHERE1" PartStart.options
      let stop ← choose b "WHERE2" PartEnd.options
      if start == .first && stop == .last then return .value t .call
      let needsLength := start == .fromEnd || stop == .fromEnd || stop == .last
      if Text.isQuotedWord t || !needsLength then
        let at1 ← substringStart ch t start
        let at2 ← substringEnd ch t stop
        return .value (t ++ ".slice(" ++ at1 ++ ", " ++ at2 ++ ")") .call
      let at1 ← substringArg ch "AT1" (start != .first)
      let at2 ← substringArg ch "AT2" (stop != .last)
      let desired := "subsequence" ++ Text.pascalCase start.name ++ Text.pascalCase stop.name
      let helper ← GenM.provide desired (subsequenceLines start stop)
      let args := (at1.toList ++ at2.toList).map (", " ++ ·)
      pure (.value (helper ++ "(" ++ t ++ String.join args ++ ")") .call)) := by
  unfold textGetSubstring
  rfl

/-- An end of a part of a text as the inline way writes it: index arithmetic, a count back from
the length of the text, that length, or zero. -/
inductive PartBound where
  | index (e : IndexExpr)
  | fromLength (text : String) (e : IndexExpr)
  | length (text : String)
  | zero

namespace PartBound

/-- The code of an inline end. -/
def write : PartBound → String
  | index e => e.write
  | fromLength text e => text ++ ".length - " ++ e.write
  | length text => text ++ ".length"
  | zero => "0"

/-- The integer an inline end stands for, the text being `len` long. -/
def value (r : IndexReading) (len : Int) : PartBound → Int
  | index e => e.value r
  | fromLength _ e => len - e.value r
  | length _ => len
  | zero => 0

end PartBound

/-- An end as the helper computes it from its parameter: zero, the parameter, a count back
from the last position of the sequence, or that last position. -/
inductive HelperBound where
  | zero
  | param
  | lastMinusParam
  | last
  deriving DecidableEq

namespace HelperBound

/-- The code of a helper's end, its parameter being `p`. -/
def write (p : String) : HelperBound → String
  | zero => "0"
  | param => p
  | lastMinusParam => "sequence.length - 1 - " ++ p
  | last => "sequence.length - 1"

/-- The integer a helper's end stands for, the sequence being `len` long and the parameter
`a`. -/
def value (len a : Int) : HelperBound → Int
  | zero => 0
  | param => a
  | lastMinusParam => len - 1 - a
  | last => len - 1

end HelperBound

/-- How the helper computes the start of a part. -/
def startBound : PartStart → HelperBound
  | .fromStart => .param
  | .fromEnd => .lastMinusParam
  | .first => .zero

/-- How the helper computes the last position of a part, its end being one past it. -/
def endBound : PartEnd → HelperBound
  | .fromStart => .param
  | .fromEnd => .lastMinusParam
  | .last => .last

/-- The helper's start is `startBound`, from `at1`, and its end one past `endBound`, from
`at2`. -/
theorem subsequenceLines_bounds (start : PartStart) (stop : PartEnd) :
    (subsequenceLines start stop)[1]? = some ("  var start = " ++ (startBound start).write "at1" ++ ";") ∧
      (subsequenceLines start stop)[2]? =
        some ("  var end = " ++ (endBound stop).write "at2" ++ " + 1;") := by
  cases start <;> cases stop <;> exact ⟨rfl, rfl⟩

/-- A start written inline, `a`, and the argument passed to the helper, `o`, agree: `a` is an
inline end and `o`, passed exactly when the helper's start reads it, index arithmetic, and `a`
stands for the start the helper computes from `o`. -/
def StartAgree (r : IndexReading) (len : Int) (start : PartStart) (a : String)
    (o : Option String) : Prop :=
  ∃ (e : PartBound) (x : Option IndexExpr), a = e.write ∧ o = x.map IndexExpr.write ∧
    x.isSome = (start != .first) ∧
    e.value r len = (startBound start).value len ((x.map (·.value r)).getD 0)

/-- An end written inline, `a`, and the argument passed to the helper, `o`, agree: `a` stands
for one past the last position the helper computes from `o`. -/
def EndAgree (r : IndexReading) (len : Int) (stop : PartEnd) (a : String)
    (o : Option String) : Prop :=
  ∃ (e : PartBound) (x : Option IndexExpr), a = e.write ∧ o = x.map IndexExpr.write ∧
    x.isSome = (stop != .last) ∧
    e.value r len = (endBound stop).value len ((x.map (·.value r)).getD 0) + 1

section Agree

variable {r : IndexReading} {ctx : Context} {ch : Children}

/-- The inline start and the helper's start agree. -/
theorem substringStart_alike (h : IndexSlotsAgree r ctx ch) (len : Int) (t : String)
    (start : PartStart) :
    RunsAlike ctx ctx (StartAgree r len start) (substringStart ch t start)
      (substringArg ch "AT1" (start != .first)) := by
  have hslot : "AT1" ∈ ["AT1", "AT2"] := List.mem_cons_self
  cases start with
  | fromStart =>
    -- one call on both sides
    have hinline : substringStart ch t .fromStart = id <$> adjustedIndex ch "AT1" 0 false .unbound :=
      (id_map _).symm
    rw [hinline]
    refine (adjustedIndex_alike h hslot ⟨le_rfl, zero_le_one⟩ ⟨le_rfl, zero_le_one⟩ _ _).map
      fun _ _ hx => ?_
    obtain ⟨e₀, e₁, rfl, rfl, hv⟩ := hx
    exact ⟨.index e₀, some e₁, rfl, rfl, rfl, by simpa [PartBound.value, startBound,
      HelperBound.value] using hv⟩
  | fromEnd =>
    -- counted back from the length, past a position shifted by one
    refine (adjustedIndex_alike h hslot ⟨zero_le_one, le_rfl⟩ ⟨le_rfl, zero_le_one⟩ _ _).bind
      fun _ _ hx => RunsAlike.pure ?_
    obtain ⟨e₀, e₁, rfl, rfl, hv⟩ := hx
    refine ⟨.fromLength t e₀, some e₁, rfl, rfl, rfl, ?_⟩
    simp only [PartBound.value, startBound, HelperBound.value, Option.map_some, Option.getD_some]
    omega
  | first => exact RunsAlike.pure ⟨.zero, none, rfl, rfl, rfl, rfl⟩

/-- The inline end and one past the helper's last position agree. -/
theorem substringEnd_alike (h : IndexSlotsAgree r ctx ch) (len : Int) (t : String) (stop : PartEnd) :
    RunsAlike ctx ctx (EndAgree r len stop) (substringEnd ch t stop)
      (substringArg ch "AT2" (stop != .last)) := by
  have hslot : "AT2" ∈ ["AT1", "AT2"] := List.mem_cons_of_mem _ List.mem_cons_self
  cases stop with
  | fromStart =>
    -- one past the position, inline, and the position plus one in the helper
    have hinline : substringEnd ch t .fromStart = id <$> adjustedIndex ch "AT2" 1 false .unbound :=
      (id_map _).symm
    rw [hinline]
    refine (adjustedIndex_alike h hslot ⟨zero_le_one, le_rfl⟩ ⟨le_rfl, zero_le_one⟩ _ _).map
      fun _ _ hx => ?_
    obtain ⟨e₀, e₁, rfl, rfl, hv⟩ := hx
    refine ⟨.index e₀, some e₁, rfl, rfl, rfl, ?_⟩
    simp only [PartBound.value, endBound, HelperBound.value, Option.map_some, Option.getD_some]
    omega
  | fromEnd =>
    refine (adjustedIndex_alike h hslot ⟨le_rfl, zero_le_one⟩ ⟨le_rfl, zero_le_one⟩ _ _).bind
      fun _ _ hx => RunsAlike.pure ?_
    obtain ⟨e₀, e₁, rfl, rfl, hv⟩ := hx
    refine ⟨.fromLength t e₀, some e₁, rfl, rfl, rfl, ?_⟩
    simp only [PartBound.value, endBound, HelperBound.value, Option.map_some, Option.getD_some]
    omega
  | last =>
    refine RunsAlike.pure ⟨.length t, none, rfl, rfl, rfl, ?_⟩
    simp [PartBound.value, endBound, HelperBound.value]

end Agree

/-- **A part of a text is taken alike inline and through a helper.**  `textGetSubstring` writes
a part inline, from `substringStart` and `substringEnd`, or through the helper for its two ends,
called with the positions `substringArg` gives; the helper's start is `startBound` of `at1` and
its end one past `endBound` of `at2`.  For children whose index slots stand for one position
whatever order they are asked at, whichever ends are asked for, counting from zero or from one,
and for every length of the text: run from one session, the inline start and the helper's
argument end alike, the inline start standing for the start the helper computes; and so do the
inline end and the helper's end. -/
theorem substring_inline_and_helper_agree {r : IndexReading} {ctx : Context} {ch : Children}
    (h : IndexSlotsAgree r ctx ch) (len : Int) :
    (∀ b, textGetSubstring ch b = (do
      let t ← ch.valueOr "STRING" .call "''"
      let start ← choose b "WHERE1" PartStart.options
      let stop ← choose b "WHERE2" PartEnd.options
      if start == .first && stop == .last then return .value t .call
      let needsLength := start == .fromEnd || stop == .fromEnd || stop == .last
      if Text.isQuotedWord t || !needsLength then
        let at1 ← substringStart ch t start
        let at2 ← substringEnd ch t stop
        return .value (t ++ ".slice(" ++ at1 ++ ", " ++ at2 ++ ")") .call
      let at1 ← substringArg ch "AT1" (start != .first)
      let at2 ← substringArg ch "AT2" (stop != .last)
      let desired := "subsequence" ++ Text.pascalCase start.name ++ Text.pascalCase stop.name
      let helper ← GenM.provide desired (subsequenceLines start stop)
      let args := (at1.toList ++ at2.toList).map (", " ++ ·)
      pure (.value (helper ++ "(" ++ t ++ String.join args ++ ")") .call))) ∧
      (∀ start stop, (subsequenceLines start stop)[1]? =
          some ("  var start = " ++ (startBound start).write "at1" ++ ";") ∧
        (subsequenceLines start stop)[2]? =
          some ("  var end = " ++ (endBound stop).write "at2" ++ " + 1;")) ∧
      (∀ t start, RunsAlike ctx ctx (StartAgree r len start) (substringStart ch t start)
        (substringArg ch "AT1" (start != .first))) ∧
      (∀ t stop, RunsAlike ctx ctx (EndAgree r len stop) (substringEnd ch t stop)
        (substringArg ch "AT2" (stop != .last))) :=
  ⟨Rules.textGetSubstring_eq ch, subsequenceLines_bounds, substringStart_alike h len,
    substringEnd_alike h len⟩

/-- Index slots that give `i` at every order, read as position `4`, counting from one: the
start of a part from the `i`-th letter from the end of a text ten letters long. -/
theorem substring_agree_from_end :
    IndexSlotsAgree ⟨fun _ => 4⟩
        { config := {}, workspace := default, oneBased := true, scope := 0, ancestors := [],
          reach := 0 }
        ⟨fun _ _ => pure (some "i"), fun _ => pure ""⟩ ∧
      RunsAlike
        { config := {}, workspace := default, oneBased := true, scope := 0, ancestors := [],
          reach := 0 }
        { config := {}, workspace := default, oneBased := true, scope := 0, ancestors := [],
          reach := 0 }
        (StartAgree ⟨fun _ => 4⟩ 10 .fromEnd)
        (substringStart ⟨fun _ _ => pure (some "i"), fun _ => pure ""⟩ "'abcdefghij'" .fromEnd)
        (substringArg ⟨fun _ _ => pure (some "i"), fun _ => pure ""⟩ "AT1"
          (PartStart.fromEnd != .first)) := by
  have hi : IndexExpr.numeral "i" = none := by decide +kernel
  -- `i` is no numeral: it stands for what the reading gives it
  have hsafe : IndexExpr.SafeNumeral "i" := fun x hx => by simp [hi] at hx
  have h : IndexSlotsAgree ⟨fun _ => 4⟩
      { config := {}, workspace := default, oneBased := true, scope := 0, ancestors := [],
        reach := 0 }
      ⟨fun _ _ => pure (some "i"), fun _ => pure ""⟩ :=
    fun _ _ _ _ => RunsAlike.pure (Option.Rel.some ⟨hsafe, hsafe, rfl⟩)
  exact ⟨h, (substring_inline_and_helper_agree h 10).2.2.1 _ _⟩

/-- **Past the safe integers the two ways part.**  Counting from zero, with `9007199254740992`
in the `AT1` slot, a part of `'abc'` from that position counted from the end starts inline at
`'abc'.length - 9007199254740992`, the length less `2^53`, since one past the position is folded
back to `2^53`; the helper, given `9007199254740992`, starts at the length less one less
`2^53`. -/
theorem substring_start_past_safe_integers :
    let ch : Children := ⟨fun _ _ => pure (some "9007199254740992"), fun _ => pure ""⟩
    let ctx : Context :=
      { config := {}, workspace := default, oneBased := false, scope := 0, ancestors := [],
        reach := 0 }
    ((substringStart ch "'abc'" .fromEnd).exec ctx (Generation.start default {})).1 =
        .ok "'abc'.length - 9007199254740992" ∧
      ((substringArg ch "AT1" true).exec ctx (Generation.start default {})).1 =
        .ok (some "9007199254740992") ∧
      ∀ (r : IndexReading) (len : Int),
        (PartBound.fromLength "'abc'"
            (IndexExpr.shifted "9007199254740992" 1 false .subtraction)).write =
          "'abc'.length - 9007199254740992" ∧
        (PartBound.fromLength "'abc'"
            (IndexExpr.shifted "9007199254740992" 1 false .subtraction)).value r len = len - 2 ^ 53 ∧
        (startBound .fromEnd).value len
            ((IndexExpr.shifted "9007199254740992" 0 false .unbound).value r) = len - 1 - 2 ^ 53 := by
  intro ch ctx
  refine ⟨by decide +kernel, by decide +kernel, fun r len => ?_⟩
  obtain ⟨-, hwrite, hvalue⟩ := value_shifted_past_safe_integers r .subtraction
  -- the helper's argument is the numeral itself, within the safe integers but for its last one
  have hzero : (IndexExpr.shifted "9007199254740992" 0 false .unbound).value r = 2 ^ 53 := by
    have hnum : IndexExpr.numeral "9007199254740992" = some (Binary64.ofInt (2 ^ 53)) := by
      decide +kernel
    have hsum : (Binary64.ofInt (2 ^ 53)).add (Binary64.ofInt 0) = Binary64.ofInt (2 ^ 53) := by
      decide +kernel
    unfold IndexExpr.shifted
    rw [hnum]
    simp only [Bool.false_eq_true, if_false, hsum, IndexExpr.value]
    decide +kernel
  refine ⟨by rw [PartBound.write, hwrite]; rfl, by rw [PartBound.value, hvalue], ?_⟩
  rw [hzero]
  rfl

end Rules

end BlockScribe
