/-!
# JSON values as written

A workspace arrives as JSON text.  `JsonValue` keeps what the text says and no more decisions
than the text makes: object members in written order with repeated keys kept, numbers as
their lexemes (sign, integer digits, fraction digits, exponent), and strings with a flag that
tells whether every `\u` escape of a surrogate is part of a well-formed pair.  What a value
means, and whether an unpaired surrogate or a number beyond the binary64 range is an error,
depends on where it stands, and is decided when the workspace is decoded.

Source: `cumin-core/src/json.rs`: the JSON values that `Workspace::from_json` decodes.
-/

namespace BlockScribe

/-- A JSON string: its text, and whether its surrogate escapes are all paired (when they are
not, the text holds a replacement character for each unpaired one). -/
structure JsonText where
  text : String
  wellFormed : Bool
  deriving DecidableEq, Repr, Inhabited

/-- A JSON number as written: `-`? integer digits, optional fraction digits, optional
exponent sign and digits. -/
structure JsonNumber where
  negative : Bool
  whole : List Char
  fraction : Option (List Char)
  exponent : Option (Bool × List Char)
  deriving DecidableEq, Repr, Inhabited

/-- A JSON value as written. -/
inductive JsonValue where
  | null
  | bool (b : Bool)
  | number (n : JsonNumber)
  | string (s : JsonText)
  | array (items : List JsonValue)
  | object (members : List (JsonText × JsonValue))
  deriving Repr, Inhabited

end BlockScribe
