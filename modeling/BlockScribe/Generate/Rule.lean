import BlockScribe.Generate.Monad
import BlockScribe.Number.Literal
/-!
# Rules

A rule turns one block into code.  It reads the block's fields itself and asks for the code of
its children through `Children`: the code of the value in a slot, bracketed for the order the
rule asks for (none when the slot is empty, or holds a disabled or hoisted block), and the
indented code of the statement chain in a slot.  Rules never bracket their own output; the
order they report does that where the code is used.

The helpers here are shared by the rules: a choice field (`choose`: the first option when the
field is absent, an error when it holds none of them), the number of arms of a variadic block
(`connectedArity`), text coercion (`forceString`) and list positions (`adjustedIndex`).

Source: `cumin-compiler/src/generator/compose.rs` (`value_to_code`, `value_or`, `adjusted_index`),
`rules/mod.rs` (`choice`, `connected_arity`, `text_field`) and `rules/text.rs` (`force_string`).
-/

namespace BlockScribe

/-- How a rule gets the code of its children. -/
structure Children where
  /-- The code of the value in a slot, bracketed for an order. -/
  value : String → Order → GenM (Option String)
  /-- The indented code of the statements in a slot. -/
  body : String → GenM String

/-- A rule: the code of a block, given how to get the code of its children. -/
abbrev Rule := Children → Block → GenM Output

namespace Children

/-- The code of the value in a slot, or a default. -/
def valueOr (ch : Children) (slot : String) (order : Order) (default : String) : GenM String := do
  pure ((← ch.value slot order).getD default)

end Children

/-- The option named by a choice field: the first when the field is absent. -/
def choose {α : Type} [Inhabited α] (b : Block) (field : String) (options : List (String × α)) :
    GenM α :=
  match b.field? field with
  | none => pure ((options.head?.map (·.2)).getD default)
  | some v =>
    match options.find? (·.1 == v) with
    | some (_, a) => pure a
    | none => throw (.invalidField b.id b.kind field v)

/-- The greatest count of a variadic block. -/
def countMax : Nat := Nat.pow 2 64 - 1

/-- A slot number: an optional plus and decimal digits, below `2^64`. -/
def slotNumber? (cs : List Char) : Option Nat :=
  let digits := match cs with
    | '+' :: rest => rest
    | _ => cs
  if digits.isEmpty || !digits.all Char.isDigit then none
  else
    let v := digits.foldl (fun n c => 10 * n + (c.toNat - 48)) 0
    if v ≤ countMax then some v else none

/-- The number of a slot named `<prefix><n>` for one of the prefixes (the first that fits). -/
def slotIndex? (prefixes : List String) (slot : String) : Option Nat :=
  prefixes.findSome? fun p =>
    if p.toList.isPrefixOf slot.toList then slotNumber? (slot.toList.drop p.length) else none

/-- The arity of a variadic block: the declared one, cut to one past its last connected
numbered slot. -/
def connectedArity (b : Block) (declared : Nat) (prefixes : List String) : Nat :=
  let connected := ((b.values.names ++ b.statements.names).filterMap (slotIndex? prefixes)).foldl
    (fun m n => max m (min (n + 1) countMax)) 0
  min declared connected

/-- The text of a field, empty when absent. -/
def textField (b : Block) (field : String) : String := (b.field? field).getD ""

/-- Code that is a text: a string literal as it is, anything else through `String(...)`. -/
def forceString (code : String) : String :=
  if Text.isStringLiteral code then code else "String(" ++ code ++ ")"

/-- A list position `pos`, already shifted by `delta` from the user's convention, negated if
asked: a number is folded into one literal, other code is written as a sum and bracketed when
`order` binds as tight as its operator or looser. -/
def shiftIndex (pos : String) (delta : Int) (negate : Bool) (order : Order) : String :=
  let folded : Option String :=
    if Text.isNumber pos then
      (parseNumber pos).map fun v =>
        let shifted := v.add (Binary64.ofInt delta)
        formatNumber (if negate then shifted.neg else shifted)
    else none
  match folded with
  | some text => text
  | none =>
    let (pos, inner) : String × Option Order :=
      if delta > 0 then (pos ++ " + " ++ toString delta, some .addition)
      else if delta < 0 then (pos ++ " - " ++ toString (-delta), some .subtraction)
      else (pos, none)
    let (pos, inner) : String × Option Order :=
      if negate then ((if delta ≠ 0 then "-(" ++ pos ++ ")" else "-" ++ pos), some .unaryNegation)
      else (pos, inner)
    match inner with
    | some i => if order.tier ≥ i.tier then "(" ++ pos ++ ")" else pos
    | none => pos

/-- The code of a list position in a slot, shifted by `delta` (and by one more down when
positions count from one) and negated if asked (`shiftIndex`); the slot's code is asked for at
the order of the operator it will stand under. -/
def adjustedIndex (ch : Children) (slot : String) (delta : Int) (negate : Bool) (order : Order) :
    GenM String := do
  let oneBased := (← read).oneBased
  let delta := if oneBased then delta - 1 else delta
  let default := if oneBased then "1" else "0"
  let childOrder : Order :=
    if delta > 0 then .addition
    else if delta < 0 then .subtraction
    else if negate then .unaryNegation
    else order
  let pos ← ch.valueOr slot childOrder default
  pure (shiftIndex pos delta negate order)

end BlockScribe
