import BlockScribe.Workspace.Slots
/-!
# Blocks of a workspace

A block has an id, a kind (kept as written, since a workspace may name kinds that the
generator does not know), its fields (texts under names), its value inputs and statement
inputs (links to other blocks, by position in the workspace, under slot names), the link to the
block after it, an optional comment, a flag that disables it, and the extra state of variadic
kinds: the number of `else if` arms, whether there is an `else`, the number of items, the
parameter names of a procedure, and whether a conditional return carries a value.

The children of a block (`Block.children`) are its value inputs, then its statement inputs, then
its successor.

Source: `cumin-core/src/node.rs`: `Node`, `ExtraState` and `children`.
-/

namespace BlockScribe

/-- The extra state of variadic kinds. -/
structure ExtraState where
  elseIfCount : Nat := 0
  hasElse : Bool := false
  itemCount : Option Nat := none
  params : List String := []
  hasReturnValue : Option Bool := none
  deriving Repr, Inhabited, DecidableEq

/-- One block of a workspace. -/
structure Block where
  id : String
  kind : String
  fields : Slots String := .empty
  values : Slots Nat := .empty
  statements : Slots Nat := .empty
  next : Option Nat := none
  comment : Option String := none
  disabled : Bool := false
  extra : ExtraState := {}
  deriving Repr, Inhabited

namespace Block

/-- A field's text. -/
def field? (b : Block) (name : String) : Option String := b.fields.get? name

/-- The block linked to a value slot. -/
def value? (b : Block) (slot : String) : Option Nat := b.values.get? slot

/-- The first block linked to a statement slot. -/
def statement? (b : Block) (slot : String) : Option Nat := b.statements.get? slot

/-- The links of a block: value inputs, statement inputs, then the successor. -/
def children (b : Block) : List Nat := b.values.contents ++ b.statements.contents ++ b.next.toList

/-- The comment, if there is a nonempty one. -/
def note? (b : Block) : Option String :=
  match b.comment with
  | some c => if c.isEmpty then none else some c
  | none => none

end Block

end BlockScribe
