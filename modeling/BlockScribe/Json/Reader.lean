import BlockScribe.Json.Value
/-!
# Reading JSON text

`readJson` reads a whole text as one JSON value, blanks (space, tab, line feed, carriage
return) allowed around it and between tokens, and nothing else after it.  The grammar is the
strict one: no comments, no trailing commas, numbers without leading zeros or a bare point,
strings without raw control characters and with only the escapes `\" \\ \/ \b \f \n \r \t` and
`\u` followed by four hexadecimal digits.  Unpaired surrogate escapes are read, and recorded in
`JsonText.wellFormed`.

The reader is a recursive descent over the characters.  Each call either consumes a character
or hands over to one that does, so twice the length of the text, plus two, bounds the depth of
calls; that bound is its fuel.

Source: `cumin-core/src/json.rs`: the text that `Workspace::from_json` accepts as JSON.
-/

namespace BlockScribe

namespace JsonRead

/-- The blanks that may separate JSON tokens. -/
def isBlank (c : Char) : Bool := c == ' ' || c == '\n' || c == '\t' || c == '\r'

/-- The characters after leading blanks. -/
def skipBlanks (cs : List Char) : List Char := cs.dropWhile isBlank

/-- The value of a hexadecimal digit. -/
def hexValue (c : Char) : Option Nat :=
  if c.isDigit then some (c.toNat - 48)
  else if 'a' ≤ c && c ≤ 'f' then some (c.toNat - 87)
  else if 'A' ≤ c && c ≤ 'F' then some (c.toNat - 55)
  else none

/-- The value of four hexadecimal digits. -/
def hex4 (a b c d : Char) : Option Nat := do
  let w ← hexValue a
  let x ← hexValue b
  let y ← hexValue c
  let z ← hexValue d
  pure (((w * 16 + x) * 16 + y) * 16 + z)

/-- A piece of a string body: a character, or a UTF-16 code unit from a `\u` escape. -/
inductive Piece where
  | char (c : Char)
  | unit (n : Nat)

/-- The pieces of a string body up to its closing quote, and what follows the quote. -/
def readPieces : List Char → List Piece → Option (List Piece × List Char)
  | [], _ => none
  | '"' :: rest, acc => some (acc.reverse, rest)
  | '\\' :: 'u' :: a :: b :: c :: d :: rest, acc =>
    match hex4 a b c d with
    | some n => readPieces rest (.unit n :: acc)
    | none => none
  | '\\' :: e :: rest, acc =>
    let escaped : Option Char := match e with
      | '"' => some '"'
      | '\\' => some '\\'
      | '/' => some '/'
      | 'b' => some (Char.ofNat 8)
      | 'f' => some (Char.ofNat 12)
      | 'n' => some '\n'
      | 'r' => some '\r'
      | 't' => some '\t'
      | _ => none
    match escaped with
    | some c => readPieces rest (.char c :: acc)
    | none => none
  | c :: rest, acc => if c.toNat < 0x20 then none else readPieces rest (.char c :: acc)

/-- The replacement character, standing for an unpaired surrogate. -/
def replacement : Char := Char.ofNat 0xFFFD

/-- The characters of string pieces, pairing surrogates, and whether all of them paired. -/
def joinPieces : List Piece → List Char × Bool
  | [] => ([], true)
  | .char c :: rest => let (cs, ok) := joinPieces rest; (c :: cs, ok)
  | .unit hi :: .unit lo :: rest =>
    if 0xD800 ≤ hi && hi < 0xDC00 && 0xDC00 ≤ lo && lo < 0xE000 then
      let (cs, ok) := joinPieces rest
      (Char.ofNat (0x10000 + (hi - 0xD800) * 0x400 + (lo - 0xDC00)) :: cs, ok)
    else if 0xD800 ≤ hi && hi < 0xE000 then
      let (cs, _) := joinPieces (.unit lo :: rest)
      (replacement :: cs, false)
    else
      let (cs, ok) := joinPieces (.unit lo :: rest)
      (Char.ofNat hi :: cs, ok)
  | .unit n :: rest =>
    let (cs, ok) := joinPieces rest
    if 0xD800 ≤ n && n < 0xE000 then (replacement :: cs, false) else (Char.ofNat n :: cs, ok)

/-- Reads a string body after its opening quote. -/
def readString (cs : List Char) : Option (JsonText × List Char) :=
  (readPieces cs []).map fun (ps, rest) =>
    let (chars, ok) := joinPieces ps
    (⟨String.ofList chars, ok⟩, rest)

/-- Splits off leading digits. -/
def spanDigits (cs : List Char) : List Char × List Char :=
  (cs.takeWhile Char.isDigit, cs.dropWhile Char.isDigit)

/-- Reads a number: `-`? (`0` | a nonzero digit and digits), then optionally `.` and digits,
then optionally `e` or `E`, a sign and digits. -/
def readNumber (cs : List Char) : Option (JsonNumber × List Char) := do
  let (negative, cs) := match cs with
    | '-' :: rest => (true, rest)
    | _ => (false, cs)
  let (whole, rest) ← match cs with
    | '0' :: rest => if (rest.head?.map Char.isDigit).getD false then none else some (['0'], rest)
    | c :: _ => if c.isDigit then some (spanDigits cs) else none
    | [] => none
  let (fraction, rest) ← match rest with
    | '.' :: more =>
      let (ds, after) := spanDigits more
      if ds.isEmpty then none else some (some ds, after)
    | _ => some (none, rest)
  let (exponent, rest) ← match rest with
    | e :: more =>
      if e == 'e' || e == 'E' then
        let (negExp, body) := match more with
          | '+' :: r => (false, r)
          | '-' :: r => (true, r)
          | _ => (false, more)
        let (ds, after) := spanDigits body
        if ds.isEmpty then none else some (some (negExp, ds), after)
      else some (none, rest)
    | [] => some (none, rest)
  pure (⟨negative, whole, fraction, exponent⟩, rest)

mutual

/-- Reads one value at the start of `cs` (no leading blanks). -/
def readValue : Nat → List Char → Option (JsonValue × List Char)
  | 0, _ => none
  | fuel + 1, cs =>
    match cs with
    | 'n' :: 'u' :: 'l' :: 'l' :: rest => some (.null, rest)
    | 't' :: 'r' :: 'u' :: 'e' :: rest => some (.bool true, rest)
    | 'f' :: 'a' :: 'l' :: 's' :: 'e' :: rest => some (.bool false, rest)
    | '"' :: rest => (readString rest).map fun (s, r) => (.string s, r)
    | '[' :: rest =>
      match skipBlanks rest with
      | ']' :: r => some (.array [], r)
      | r => readElements fuel r []
    | '{' :: rest =>
      match skipBlanks rest with
      | '}' :: r => some (.object [], r)
      | r => readMembers fuel r []
    | _ => (readNumber cs).map fun (n, r) => (.number n, r)

/-- Reads the elements of an array from its first element on, and its closing bracket. -/
def readElements : Nat → List Char → List JsonValue → Option (JsonValue × List Char)
  | 0, _, _ => none
  | fuel + 1, cs, acc =>
    match readValue fuel cs with
    | none => none
    | some (v, r) =>
      match skipBlanks r with
      | ',' :: more => readElements fuel (skipBlanks more) (v :: acc)
      | ']' :: more => some (.array (v :: acc).reverse, more)
      | _ => none

/-- Reads the members of an object from its first key on, and its closing brace. -/
def readMembers : Nat → List Char → List (JsonText × JsonValue) → Option (JsonValue × List Char)
  | 0, _, _ => none
  | fuel + 1, cs, acc =>
    match cs with
    | '"' :: rest =>
      match readString rest with
      | none => none
      | some (key, r) =>
        match skipBlanks r with
        | ':' :: more =>
          match readValue fuel (skipBlanks more) with
          | none => none
          | some (v, r) =>
            match skipBlanks r with
            | ',' :: more => readMembers fuel (skipBlanks more) ((key, v) :: acc)
            | '}' :: more => some (.object ((key, v) :: acc).reverse, more)
            | _ => none
        | _ => none
    | _ => none

end

end JsonRead

/-- Reads a whole text as one JSON value with blanks around it. -/
def readJson (s : String) : Option JsonValue :=
  let cs := s.toList
  match JsonRead.readValue (2 * cs.length + 2) (JsonRead.skipBlanks cs) with
  | some (v, rest) => if (JsonRead.skipBlanks rest).isEmpty then some v else none
  | none => none

end BlockScribe
