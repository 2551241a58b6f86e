/-!
# Generation errors

Generation stops at the first of these, in depth-first order, and yields no code.
`GenerateError.message` gives each its text.  The last one stands for the end of the fuel
that bounds the traversal; a generation is given enough fuel never to meet it.

Source: `cumin-compiler/src/lib.rs`: `Error` and its messages.
-/

namespace BlockScribe

/-- Why a workspace yields no code. -/
inductive GenerateError where
  /-- A block has a kind that the generator does not know. -/
  | unknownKind (node kind : String)
  /-- A choice field holds none of its options, or a count field no number. -/
  | invalidField (node kind field value : String)
  /-- A statement block stands in a value slot. -/
  | expectedValue (node kind slot : String)
  /-- A value block stands in a statement chain. -/
  | expectedStatement (node kind : String)
  /-- A block is reached a second time, through a cycle or a shared link. -/
  | malformedLinkage (node : String)
  /-- A link points past the arena. -/
  | missingNode (index : Nat)
  /-- The traversal ran out of fuel. -/
  | outOfFuel
  deriving DecidableEq, Repr

namespace GenerateError

/-- The name of the kind of error. -/
def kindName : GenerateError → String
  | unknownKind .. => "UnknownKind"
  | invalidField .. => "InvalidField"
  | expectedValue .. => "ExpectedValue"
  | expectedStatement .. => "ExpectedStatement"
  | malformedLinkage .. => "MalformedLinkage"
  | missingNode .. => "MissingNode"
  | outOfFuel => "OutOfFuel"

/-- The text of an error. -/
def message : GenerateError → String
  | unknownKind node kind => "block `" ++ node ++ "`: unknown block kind `" ++ kind ++ "`"
  | invalidField node kind field value =>
    "block `" ++ node ++ "` (" ++ kind ++ "): invalid value `" ++ value ++ "` for field `" ++
      field ++ "`"
  | expectedValue node kind slot =>
    "block `" ++ node ++ "` (" ++ kind ++ ") in slot `" ++ slot ++ "` does not produce a value"
  | expectedStatement node kind =>
    "block `" ++ node ++ "` (" ++ kind ++ ") is a value, not a statement"
  | malformedLinkage node =>
    "block `" ++ node ++ "` is reached more than once (cyclic or shared link)"
  | missingNode index => "link to missing node #" ++ toString index
  | outOfFuel => "generation ran out of fuel"

end GenerateError

end BlockScribe
