import BlockScribe.Proofs.Generate.References
/-!
# The trees that value blocks stand for

A value block stands for an expression of the script (`Denotes`), built from the trees its value
slots hold (`SlotTree`).  A slot holds nothing when it is empty or links a disabled block or a
procedure definition, and otherwise the tree of the value block it links; a block whose slot
holds nothing uses the slot's default there (`Option.getD`).  Choice fields are read by their
text, the first option standing for an absent field.

The trees are those of the script's reader (`Script.Expr`), brackets dropped: a comparison is
an operation with its operator, a connective of two empty slots is `false && false`, a text is a
string literal whose body is its quoted characters (`Expr.lit`), joining texts coerces each part
that is no string literal (`Expr.asText`), and a list position is shifted from the workspace's
convention by an addition or a subtraction, and negated for a position from the end
(`Expr.position`); a position in an empty slot is the folded numeral.  The names of variables,
procedures and helpers are left open: any reference of the script will do, since which one a
generation picks is a matter of naming, not of the tree.

The kinds described are those of `BlockKind.hasTree`; `Built` says that a slot holds a tree made
of blocks of these kinds only.
-/

namespace BlockScribe

namespace Script

namespace Expr

/-- A name or a literal word, such as `true`. -/
def word (s : String) : Expr := name s.toList

/-- A numeral, as written. -/
def numeral (s : String) : Expr := num s.toList

/-- The string literal that denotes a text: its characters quoted. -/
def lit (s : String) : Expr := str (s.toList.flatMap Text.escapeChar)

/-- The empty string literal. -/
def emptyText : Expr := str []

@[simp] theorem emptyText_eq : emptyText = str [] := rfl

/-- A method call `obj.m(args)`. -/
def method (obj : Expr) (m : String) (args : List Expr) : Expr := call (member obj m.toList) args

theorem method_eq (obj : Expr) (m : String) (args : List Expr) :
    method obj m args = call (member obj m.toList) args := rfl

/-- Whether an expression is a string literal. -/
def isStr : Expr → Bool
  | str _ => true
  | _ => false

/-- Whether an expression is a name, a numeral or a string literal made of letters, digits and
underscores. -/
def isQuotedWord : Expr → Bool
  | name n | num n | str n => !n.isEmpty && n.all Text.isWordChar
  | _ => false

/-- A text as it is when it is a string literal, and otherwise converted by `String(...)`. -/
def asText (t : Expr) : Expr := if t.isStr then t else call (word "String") [t]

/-- An integer as a numeral, negated when below zero. -/
def intLit (v : Int) : Expr :=
  if v < 0 then neg (numeral (toString v.natAbs)) else numeral (toString v.natAbs)

/-- A position moved by `d` and negated if asked. -/
def shifted (t : Expr) (d : Int) (negate : Bool) : Expr :=
  let moved := if 0 < d then bin .add t (numeral (toString d.natAbs))
    else if d < 0 then bin .sub t (numeral (toString d.natAbs)) else t
  if negate then neg moved else moved

/-- The list position `delta` places after the one a slot holds, in the workspace's convention
(from one when `ob`), negated if asked; for an empty slot, the first position so moved. -/
def position (ob : Bool) (delta : Int) (negate : Bool) (ot : Option Expr) : Expr :=
  ot.elim (intLit (if negate then -delta else delta)) fun t =>
    t.shifted (delta - if ob then 1 else 0) negate

/-- `a && b` or `a || b` over two slots: each empty one is the operator's neutral element, and
two empty ones make `false && false` (or `false || false`). -/
def connective (isAnd : Bool) (x y : Option Expr) : Expr :=
  let op : BinOp := if isAnd then .and else .or
  let neutral := word (if isAnd then "true" else "false")
  if x.isNone && y.isNone then bin op (word "false") (word "false")
  else bin op (x.getD neutral) (y.getD neutral)

/-- The text of several lines: one literal per line, each after the first joined by an explicit
line feed and a line break. -/
def multiline (first : List Char) (rest : List (List Char)) : Expr :=
  rest.foldl (fun acc l => bin .add (bin .add acc (str ['\\', 'n'])) (str (l.flatMap Text.escapeChar)))
    (str (first.flatMap Text.escapeChar))

/-- Asking the user for a text, converted to a number if asked. -/
def prompted (asNumber : Bool) (message : Expr) : Expr :=
  let asked := method (word "window") "prompt" [message]
  if asNumber then call (word "Number") [asked] else asked

end Expr

/-- The operator a comparison's field names. -/
def compareOperator : String → Option BinOp
  | "EQ" => some .eq
  | "NEQ" => some .ne
  | "LT" => some .lt
  | "LTE" => some .le
  | "GT" => some .gt
  | "GTE" => some .ge
  | _ => none

end Script

open Script Script.Expr Rules

/-- Whether a part of a text needs the text's length: an end counted from the end, or the last
letter. -/
def needsLength (start : PartStart) (stop : PartEnd) : Bool :=
  start == .fromEnd || stop == .fromEnd || stop == .last

/-- Where a part of a text starts, inline. -/
def startAt (ob : Bool) (t : Expr) : PartStart → Option Expr → Expr
  | .fromStart, a => position ob 0 false a
  | .fromEnd, a => bin .sub (member t "length".toList) (position ob 1 false a)
  | .first, _ => numeral "0"

/-- Where a part of a text ends, inline. -/
def endAt (ob : Bool) (t : Expr) : PartEnd → Option Expr → Expr
  | .fromStart, a => position ob 1 false a
  | .fromEnd, a => bin .sub (member t "length".toList) (position ob 0 false a)
  | .last, _ => member t "length".toList

mutual

/-- `Denotes w ob k b t`: the block `b` of the value kind `k`, in the workspace `w` whose list
positions count from one when `ob`, stands for the tree `t`. -/
inductive Denotes (w : Workspace) (ob : Bool) : BlockKind → Block → Expr → Prop
  | compare {b : Block} {op : BinOp} {x y : Option Expr} :
      compareOperator ((b.field? "OP").getD "EQ") = some op →
      SlotTree w ob b "A" x → SlotTree w ob b "B" y →
      Denotes w ob .logicCompare b (bin op (x.getD (numeral "0")) (y.getD (numeral "0")))
  | operation {b : Block} {isAnd : Bool} {x y : Option Expr} :
      (b.field? "OP").getD "AND" = (if isAnd then "AND" else "OR") →
      SlotTree w ob b "A" x → SlotTree w ob b "B" y →
      Denotes w ob .logicOperation b (connective isAnd x y)
  | negate {b : Block} {x : Option Expr} :
      SlotTree w ob b "BOOL" x → Denotes w ob .logicNegate b (not (x.getD (word "true")))
  | boolean {b : Block} {v : Bool} :
      (b.field? "BOOL").getD "TRUE" = (if v then "TRUE" else "FALSE") →
      Denotes w ob .logicBoolean b (word (if v then "true" else "false"))
  | null {b : Block} : Denotes w ob .logicNull b (word "null")
  | ternary {b : Block} {c x y : Option Expr} :
      SlotTree w ob b "IF" c → SlotTree w ob b "THEN" x → SlotTree w ob b "ELSE" y →
      Denotes w ob .logicTernary b
        (cond (c.getD (word "false")) (x.getD (word "null")) (y.getD (word "null")))
  | variable {k : BlockKind} {b : Block} {n : List Char} :
      k = .variablesGet ∨ k = .variablesGetDynamic → IsReference n → Denotes w ob k b (name n)
  | callReturn {b : Block} {n : List Char} {args : List (Option Expr)} : IsReference n →
      args.length = b.extra.params.length →
      (∀ i (h : i < args.length), SlotTree w ob b ("ARG" ++ toString i) args[i]) →
      Denotes w ob .callReturn b (call (name n) (args.map (·.getD (word "null"))))
  | text {b : Block} : Denotes w ob .text b (lit (textField b "TEXT"))
  | multiline {b : Block} {first : List Char} {rest : List (List Char)} :
      Text.lines (textField b "TEXT").toList = first :: rest →
      Denotes w ob .textMultiline b (Expr.multiline first rest)
  | joinNone {b : Block} : connectedArity b (b.extra.itemCount.getD 2) ["ADD"] = 0 →
      Denotes w ob .textJoin b emptyText
  | joinOne {b : Block} {x : Option Expr} : connectedArity b (b.extra.itemCount.getD 2) ["ADD"] = 1 →
      SlotTree w ob b "ADD0" x → Denotes w ob .textJoin b (asText (x.getD emptyText))
  | joinTwo {b : Block} {x y : Option Expr} :
      connectedArity b (b.extra.itemCount.getD 2) ["ADD"] = 2 →
      SlotTree w ob b "ADD0" x → SlotTree w ob b "ADD1" y →
      Denotes w ob .textJoin b (bin .add (asText (x.getD emptyText)) (asText (y.getD emptyText)))
  | joinMany {b : Block} {xs : List (Option Expr)} :
      connectedArity b (b.extra.itemCount.getD 2) ["ADD"] = xs.length → 3 ≤ xs.length →
      (∀ i (h : i < xs.length), SlotTree w ob b ("ADD" ++ toString i) xs[i]) →
      Denotes w ob .textJoin b (method (array (xs.map (·.getD emptyText))) "join" [emptyText])
  | length {b : Block} {x : Option Expr} : SlotTree w ob b "VALUE" x →
      Denotes w ob .textLength b (member (x.getD emptyText) "length".toList)
  | isEmpty {b : Block} {x : Option Expr} : SlotTree w ob b "VALUE" x →
      Denotes w ob .textIsEmpty b (not (member (x.getD emptyText) "length".toList))
  | indexOf {b : Block} {first : Bool} {n x : Option Expr} :
      (b.field? "END").getD "FIRST" = (if first then "FIRST" else "LAST") →
      SlotTree w ob b "FIND" n → SlotTree w ob b "VALUE" x →
      Denotes w ob .textIndexOf b
        (let found := method (x.getD emptyText) (if first then "indexOf" else "lastIndexOf")
          [n.getD emptyText]
        if ob then bin .add found (numeral "1") else found)
  | firstLetter {b : Block} {x : Option Expr} : (b.field? "WHERE").getD "FROM_START" = "FIRST" →
      SlotTree w ob b "VALUE" x →
      Denotes w ob .textCharAt b (method (x.getD emptyText) "charAt" [numeral "0"])
  | lastLetter {b : Block} {x : Option Expr} : (b.field? "WHERE").getD "FROM_START" = "LAST" →
      SlotTree w ob b "VALUE" x →
      Denotes w ob .textCharAt b (method (x.getD emptyText) "slice" [neg (numeral "1")])
  | letterFromStart {b : Block} {x a : Option Expr} :
      (b.field? "WHERE").getD "FROM_START" = "FROM_START" →
      SlotTree w ob b "VALUE" x → SlotTree w ob b "AT" a →
      Denotes w ob .textCharAt b (method (x.getD emptyText) "charAt" [position ob 0 false a])
  | letterFromEnd {b : Block} {x a : Option Expr} :
      (b.field? "WHERE").getD "FROM_START" = "FROM_END" →
      SlotTree w ob b "VALUE" x → SlotTree w ob b "AT" a →
      Denotes w ob .textCharAt b
        (method (method (x.getD emptyText) "slice" [position ob 1 true a]) "charAt" [numeral "0"])
  | randomLetter {b : Block} {x : Option Expr} {h : List Char} :
      (b.field? "WHERE").getD "FROM_START" = "RANDOM" → SlotTree w ob b "VALUE" x →
      IsReference h → Denotes w ob .textCharAt b (call (name h) [x.getD emptyText])
  | wholeText {b : Block} {x : Option Expr} :
      (b.field? "WHERE1").getD "FROM_START" = "FIRST" → (b.field? "WHERE2").getD "FROM_START" = "LAST" →
      SlotTree w ob b "STRING" x → Denotes w ob .textGetSubstring b (x.getD emptyText)
  | slice {b : Block} {start : PartStart} {stop : PartEnd} {x a₁ a₂ : Option Expr} :
      (b.field? "WHERE1").getD "FROM_START" = start.name →
      (b.field? "WHERE2").getD "FROM_START" = stop.name → ¬(start = .first ∧ stop = .last) →
      SlotTree w ob b "STRING" x →
      ((x.getD emptyText).isQuotedWord || !needsLength start stop) = true →
      (start ≠ .first → SlotTree w ob b "AT1" a₁) → (stop ≠ .last → SlotTree w ob b "AT2" a₂) →
      Denotes w ob .textGetSubstring b (method (x.getD emptyText) "slice"
        [startAt ob (x.getD emptyText) start a₁, endAt ob (x.getD emptyText) stop a₂])
  | subsequence {b : Block} {start : PartStart} {stop : PartEnd} {x a₁ a₂ : Option Expr}
      {h : List Char} :
      (b.field? "WHERE1").getD "FROM_START" = start.name →
      (b.field? "WHERE2").getD "FROM_START" = stop.name → ¬(start = .first ∧ stop = .last) →
      SlotTree w ob b "STRING" x →
      ((x.getD emptyText).isQuotedWord || !needsLength start stop) = false →
      (start ≠ .first → SlotTree w ob b "AT1" a₁) → (stop ≠ .last → SlotTree w ob b "AT2" a₂) →
      IsReference h →
      Denotes w ob .textGetSubstring b (call (name h) (x.getD emptyText ::
        ((if start ≠ .first then [position ob 0 false a₁] else []) ++
          (if stop ≠ .last then [position ob 0 false a₂] else []))))
  | changeCase {b : Block} {mode m : String} {x : Option Expr} :
      (b.field? "CASE").getD "UPPERCASE" = mode →
      (mode, m) ∈ [("UPPERCASE", "toUpperCase"), ("LOWERCASE", "toLowerCase")] →
      SlotTree w ob b "TEXT" x → Denotes w ob .textChangeCase b (method (x.getD emptyText) m [])
  | titleCase {b : Block} {x : Option Expr} {h : List Char} :
      (b.field? "CASE").getD "UPPERCASE" = "TITLECASE" → SlotTree w ob b "TEXT" x →
      IsReference h → Denotes w ob .textChangeCase b (call (name h) [x.getD emptyText])
  | trimBoth {b : Block} {x : Option Expr} : (b.field? "MODE").getD "BOTH" = "BOTH" →
      SlotTree w ob b "TEXT" x → Denotes w ob .textTrim b (method (x.getD emptyText) "trim" [])
  | trimLeft {b : Block} {x : Option Expr} : (b.field? "MODE").getD "BOTH" = "LEFT" →
      SlotTree w ob b "TEXT" x → Denotes w ob .textTrim b
        (method (x.getD emptyText) "replace" [regex "^[\\s\\xa0]+".toList [], emptyText])
  | trimRight {b : Block} {x : Option Expr} : (b.field? "MODE").getD "BOTH" = "RIGHT" →
      SlotTree w ob b "TEXT" x → Denotes w ob .textTrim b
        (method (x.getD emptyText) "replace" [regex "[\\s\\xa0]+$".toList [], emptyText])
  | promptField {k : BlockKind} {b : Block} {asNumber : Bool} {message : String} :
      k = .textPrompt ∨ k = .textPromptExt →
      (b.field? "TYPE").getD "TEXT" = (if asNumber then "NUMBER" else "TEXT") →
      b.field? "TEXT" = some message → Denotes w ob k b (prompted asNumber (lit message))
  | promptSlot {k : BlockKind} {b : Block} {asNumber : Bool} {x : Option Expr} :
      k = .textPrompt ∨ k = .textPromptExt →
      (b.field? "TYPE").getD "TEXT" = (if asNumber then "NUMBER" else "TEXT") →
      b.field? "TEXT" = none → SlotTree w ob b "TEXT" x →
      Denotes w ob k b (prompted asNumber (x.getD emptyText))
  | count {b : Block} {x y : Option Expr} {h : List Char} :
      SlotTree w ob b "TEXT" x → SlotTree w ob b "SUB" y → IsReference h →
      Denotes w ob .textCount b (call (name h) [x.getD emptyText, y.getD emptyText])
  | replace {b : Block} {x y z : Option Expr} {h : List Char} :
      SlotTree w ob b "TEXT" x → SlotTree w ob b "FROM" y → SlotTree w ob b "TO" z →
      IsReference h → Denotes w ob .textReplace b
        (call (name h) [x.getD emptyText, y.getD emptyText, z.getD emptyText])
  | reverse {b : Block} {x : Option Expr} : SlotTree w ob b "TEXT" x →
      Denotes w ob .textReverse b
        (method (method (method (x.getD emptyText) "split" [emptyText]) "reverse" []) "join"
          [emptyText])
  | colour {b : Block} : Denotes w ob .colourPicker b (lit ((b.field? "COLOUR").getD "#ff0000"))
  | randomColour {b : Block} {h : List Char} : IsReference h →
      Denotes w ob .colourRandom b (call (name h) [])
  | rgb {b : Block} {r g c : Option Expr} {h : List Char} :
      SlotTree w ob b "RED" r → SlotTree w ob b "GREEN" g → SlotTree w ob b "BLUE" c →
      IsReference h → Denotes w ob .colourRgb b
        (call (name h) [r.getD (numeral "0"), g.getD (numeral "0"), c.getD (numeral "0")])
  | blend {b : Block} {c₁ c₂ r : Option Expr} {h : List Char} :
      SlotTree w ob b "COLOUR1" c₁ → SlotTree w ob b "COLOUR2" c₂ → SlotTree w ob b "RATIO" r →
      IsReference h → Denotes w ob .colourBlend b
        (call (name h) [c₁.getD (lit "#000000"), c₂.getD (lit "#000000"), r.getD (numeral "0.5")])

/-- `SlotTree w ob b slot ot`: the value slot `slot` of `b` holds the tree `ot`, or nothing. -/
inductive SlotTree (w : Workspace) (ob : Bool) : Block → String → Option Expr → Prop
  | empty {b : Block} {slot : String} : b.value? slot = none → SlotTree w ob b slot none
  | disabled {b c : Block} {slot : String} {i : Nat} : b.value? slot = some i → w.get? i = some c →
      c.disabled = true → SlotTree w ob b slot none
  | definition {b c : Block} {slot : String} {i : Nat} {k : BlockKind} :
      b.value? slot = some i → w.get? i = some c → BlockKind.ofName? c.kind = some k →
      k.isDefinition = true → SlotTree w ob b slot none
  | value {b c : Block} {slot : String} {i : Nat} {k : BlockKind} {t : Expr} :
      b.value? slot = some i → w.get? i = some c → c.disabled = false →
      BlockKind.ofName? c.kind = some k → Denotes w ob k c t → SlotTree w ob b slot (some t)

end

/-- The kinds of value blocks whose trees `Denotes` describes: the connectives and comparisons,
variables, procedure calls, texts and colours. -/
def BlockKind.hasTree : BlockKind → Bool
  | .logicCompare | .logicOperation | .logicNegate | .logicBoolean | .logicNull | .logicTernary
  | .variablesGet | .variablesGetDynamic | .callReturn | .text | .textMultiline | .textJoin
  | .textLength | .textIsEmpty | .textIndexOf | .textCharAt | .textGetSubstring | .textChangeCase
  | .textTrim | .textPromptExt | .textPrompt | .textCount | .textReplace | .textReverse
  | .colourPicker | .colourRandom | .colourRgb | .colourBlend => true
  | _ => false

/-- `Built w b slot`: the value slot `slot` of `b` holds a tree of blocks of those kinds, or
nothing: it is empty, or links a disabled block, a procedure definition, or an enabled block of
such a kind all of whose value slots hold such trees. -/
inductive Built (w : Workspace) : Block → String → Prop
  | empty {b : Block} {slot : String} : b.value? slot = none → Built w b slot
  | disabled {b c : Block} {slot : String} {i : Nat} : b.value? slot = some i → w.get? i = some c →
      c.disabled = true → Built w b slot
  | definition {b c : Block} {slot : String} {i : Nat} {k : BlockKind} :
      b.value? slot = some i → w.get? i = some c → BlockKind.ofName? c.kind = some k →
      k.isDefinition = true → Built w b slot
  | value {b c : Block} {slot : String} {i : Nat} {k : BlockKind} :
      b.value? slot = some i → w.get? i = some c → c.disabled = false →
      BlockKind.ofName? c.kind = some k → k.hasTree = true → (∀ s, Built w c s) → Built w b slot

end BlockScribe
