import BlockScribe.Text.Blank
import BlockScribe.Text.Unicode.Alphanumeric
/-!
# Well-formed patterns

A field value in a log filter that is neither a boolean nor a number is a regular expression,
and a filter whose expression does not compile does not read.  `Pattern.wellFormed` decides
which texts compile.  The grammar:

* an expression is a sequence of alternatives separated by `|`; parentheses group, and a
  group may be named (`(?P<name>…)` or `(?<name>…)`, each name used once, starting with a
  letter or `_` and going on with letters, digits, `_`, `.`, `[` and `]`) or set flags
  (`(?flags)` or `(?flags:…)`, flags among `imsUuRx`, each at most once, with at most one `-`
  that is followed by a flag); look-around groups are not supported;
* `*`, `+`, `?` and counted repetitions `{n}`, `{n,}` and `{n,m}` (with `n ≤ m`, blanks
  allowed around the numbers) apply to the item before them, which must exist and not be a
  flag setting, and may be followed by `?`;
* a class in brackets holds characters, ranges `a-z` of ordered characters, escapes, named
  classes such as `[:alpha:]`, nested classes and the operators `&&`, `--` and `~~`; a `]`
  first in a class is a character;
* an escape is a punctuation character, one of `\a \f \t \n \r \v`, a hexadecimal character
  (`\x` with two digits, `\u` with four, `\U` with eight, or any of them with up to eight digits
  in braces), a class `\d \s \w` or their capitals, a Unicode class `\p` or `\P`, or an
  assertion `\A \z \b \B \< \>` (and `\b{start}`, `\b{end}`, `\b{start-half}`,
  `\b{end-half}`); back references do not exist;
* with the flag `x`, blanks and comments from `#` to the end of the line are skipped.

The matcher carries no Unicode tables and matches text only, so what compiles depends on the
flag `u` (on unless cleared).  With it, the classes `\d \s \w` and their capitals, Unicode
classes, word boundaries, and any character or bracket class under the flag `i` are refused;
without it, characters beyond ASCII, `.`, negated classes and Unicode classes are refused.
Last, no expression may nest deeper than 250: groups, repetitions, brackets, and sequences,
alternations, unions and class operations of two or more parts each add a level.

Every scan consumes at least one character per step, so the length of the text plus one is
enough fuel.

Source: `cumin-cli/src/logging.rs`: the field values of filter directives.
-/

namespace BlockScribe.Cli.Pattern

/-- The characters with a meaning of their own. -/
def isMeta (c : Char) : Bool := "\\.+*?()|[]\x7b\x7d^$#&-~".contains c

/-- Whether a backslash before a character makes it that character: the characters with a
meaning and every ASCII character other than letters, digits, `<` and `>`. -/
def isEscapable (c : Char) : Bool :=
  isMeta c || (c.toNat < 128 && !c.isAlphanum && c != '<' && c != '>')

/-- A hexadecimal digit. -/
def isHexDigit (c : Char) : Bool :=
  c.isDigit || ('a' ≤ c && c ≤ 'f') || ('A' ≤ c && c ≤ 'F')

/-- The value of a hexadecimal digit. -/
def hexDigitValue (c : Char) : Nat :=
  if c.isDigit then c.toNat - '0'.toNat
  else if 'a' ≤ c && c ≤ 'f' then c.toNat - 'a'.toNat + 10
  else c.toNat - 'A'.toNat + 10

/-- The value of hexadecimal digits. -/
def hexValue (ds : List Char) : Nat := ds.foldl (fun n d => 16 * n + hexDigitValue d) 0

/-- Whether a number is a Unicode scalar value. -/
def isScalar (n : Nat) : Bool := n < 0xD800 || (0xE000 ≤ n && n ≤ 0x10FFFF)

/-- The deepest nesting an expression may have. -/
def nestLimit : Nat := 250

/-- The flags that decide what compiles: case-insensitive (`i`), Unicode (`u`) and verbose
(`x`). -/
structure Flags where
  caseless : Bool := false
  unicode : Bool := true
  verbose : Bool := false
  deriving DecidableEq, Repr

/-- The flags after a flag group's letters: those before a `-` are set, those after cleared. -/
def Flags.apply (f : Flags) : Bool → List Char → Flags
  | _, [] => f
  | _, '-' :: rest => f.apply false rest
  | on, c :: rest =>
    let f' := match c with
      | 'i' => { f with caseless := on }
      | 'u' => { f with unicode := on }
      | 'x' => { f with verbose := on }
      | _ => f
    f'.apply on rest

/-- What follows blanks and comments, skipped only in verbose mode; `inComment` tells whether
a comment is open. -/
def skipComment (inComment : Bool) : List Char → List Char
  | [] => []
  | c :: rest =>
    if inComment then skipComment (c != '\n') rest
    else if Text.isBlank c then skipComment false rest
    else if c == '#' then skipComment true rest
    else c :: rest

/-- What follows the blanks and comments at the start, in verbose mode. -/
def skipBlank (f : Flags) (cs : List Char) : List Char :=
  if f.verbose then skipComment false cs else cs

/-- What an escape or a character stands for. -/
inductive Piece where
  /-- One character, by its code point. -/
  | literal (code : Nat)
  /-- One of the classes `\d \s \w`, or their capitals when negated. -/
  | perl (negated : Bool)
  /-- A Unicode class `\p` or `\P`. -/
  | property
  /-- The start or the end of the text. -/
  | edge
  /-- A word boundary or its absence. -/
  | boundary
  deriving DecidableEq, Repr

/-- Whether a piece compiles under the flags, outside a class or inside one (where only
characters and classes may stand, and case folding is decided for the class as a whole). -/
def Piece.compiles (f : Flags) (inClass : Bool) : Piece → Bool
  | .literal c => if f.unicode then inClass || !f.caseless else c < 0x80
  | .perl negated => !f.unicode && !negated
  | .property => false
  | .edge => !inClass
  | .boundary => !inClass && !f.unicode

/-- A hexadecimal escape after its letter, with `count` digits when not in braces. -/
def hexEscape (count : Nat) : List Char → Option (Piece × List Char)
  | '{' :: rest =>
    let ds := rest.takeWhile (· != '}')
    match rest.drop ds.length with
    | '}' :: after =>
      if ds.isEmpty || !ds.all isHexDigit || ds.length > 8 || !isScalar (hexValue ds) then none
      else some (.literal (hexValue ds), after)
    | _ => none
  | cs =>
    let ds := cs.take count
    if ds.length == count && ds.all isHexDigit && isScalar (hexValue ds) then
      some (.literal (hexValue ds), cs.drop count)
    else none

/-- A Unicode class after `\p` or `\P`: a letter, or a name in braces. -/
def unicodeClass : List Char → Option (Piece × List Char)
  | [] => none
  | '{' :: rest =>
    let inside := rest.takeWhile (· != '}')
    match rest.drop inside.length with
    | '}' :: after => some (.property, after)
    | _ => none
  | _ :: rest => some (.property, rest)

/-- The kinds of word boundary written in braces after `\b`. -/
def boundaryKinds : List String := ["start", "end", "start-half", "end-half"]

/-- What follows `\b`: a kind in braces when the brace opens with a letter or `-`; another
brace starts a counted repetition of the boundary. -/
def boundaryKind : List Char → Option (List Char)
  | '{' :: rest =>
    match rest with
    | [] => none
    | c :: _ =>
      if c.isAlpha || c == '-' then
        let name := rest.takeWhile fun d => d.isAlpha || d == '-'
        match rest.drop name.length with
        | '}' :: after => if boundaryKinds.contains (String.ofList name) then some after else none
        | _ => none
      else some ('{' :: rest)
  | cs => some cs

/-- An escape after its backslash: what it stands for and what follows it. -/
def escape : List Char → Option (Piece × List Char)
  | [] => none
  | c :: rest =>
    if c.isDigit then none
    else if c == 'x' then hexEscape 2 rest
    else if c == 'u' then hexEscape 4 rest
    else if c == 'U' then hexEscape 8 rest
    else if c == 'p' || c == 'P' then unicodeClass rest
    else if "dsw".contains c then some (.perl false, rest)
    else if "DSW".contains c then some (.perl true, rest)
    else if isEscapable c then some (.literal c.toNat, rest)
    else match c with
      | 'a' => some (.literal 7, rest)
      | 'f' => some (.literal 12, rest)
      | 't' => some (.literal 9, rest)
      | 'n' => some (.literal 10, rest)
      | 'r' => some (.literal 13, rest)
      | 'v' => some (.literal 11, rest)
      | 'A' | 'z' => some (.edge, rest)
      | 'B' | '<' | '>' => some (.boundary, rest)
      | 'b' => (boundaryKind rest).map fun after => (.boundary, after)
      | _ => none

/-- The names of the classes written `[:name:]` inside brackets. -/
def asciiClassNames : List String :=
  ["alnum", "alpha", "ascii", "blank", "cntrl", "digit", "graph", "lower", "print", "punct",
    "space", "upper", "word", "xdigit"]

/-- A named class after the `[` that opens it, `[:name:]` or `[:^name:]`: whether it is
negated and what follows it. -/
def asciiClass? : List Char → Option (Bool × List Char)
  | ':' :: rest =>
    let (negated, body) := match rest with
      | '^' :: more => (true, more)
      | _ => (false, rest)
    let name := body.takeWhile (· != ':')
    match body.drop name.length with
    | ':' :: ']' :: after =>
      if asciiClassNames.contains (String.ofList name) then some (negated, after) else none
    | _ => none
  | _ => none

/-- One item of a class: an escape or a character. -/
def classItem : List Char → Option (Piece × List Char)
  | [] => none
  | '\\' :: rest => escape rest
  | c :: rest => some (.literal c.toNat, rest)

/-- A character, a class escape or a range in a class, under the flags: what follows it. -/
def classRange (f : Flags) (cs : List Char) : Option (List Char) :=
  match classItem cs with
  | none => none
  | some (first, rest) =>
    if !first.compiles f true then none
    else
      match skipBlank f rest with
      | [] => none
      | '-' :: more =>
        let more := skipBlank f more
        if more.head? == some ']' || more.head? == some '-' then some (skipBlank f rest)
        else
          match classItem more, first with
          | some (.literal hi, after), .literal lo =>
            if lo ≤ hi && (Piece.literal hi).compiles f true then some after else none
          | _, _ => none
      | after => some after

/-- The opening of a class after its `[`: whether it is negated, how many characters its
opening holds (any `-`, then a `]` when nothing came before it) and what follows. -/
def classOpen (f : Flags) (cs : List Char) : Bool × Nat × List Char :=
  let (negated, afterCaret) := match skipBlank f cs with
    | '^' :: rest => (true, skipBlank f rest)
    | rest => (false, rest)
  let afterDashes := afterCaret.dropWhile (· == '-')
  let dashes := afterCaret.length - afterDashes.length
  if dashes == 0 then
    match afterDashes with
    | ']' :: rest => (negated, 1, skipBlank f rest)
    | _ => (negated, 0, afterDashes)
  else (negated, dashes, afterDashes)

/-- The nesting of a sequence of parts, newest first: nothing and a single part add no
level, more parts add one. -/
def partsHeight : List Nat → Nat
  | [] => 0
  | [h] => h
  | h :: hs => 1 + hs.foldl max h

/-- A class being read: the nesting of the items of the current union, newest first, and of
the left side of a pending class operation. -/
structure ClassAcc where
  items : List Nat := []
  left : Option Nat := none
  deriving DecidableEq, Repr

/-- The nesting of a class's contents once its operations are applied. -/
def ClassAcc.height (a : ClassAcc) : Nat :=
  let union := partsHeight a.items
  match a.left with
  | some l => 1 + max l union
  | none => union

/-- Reads the inside of a bracketed class under the flags: its nesting and what follows its
`]`, or `none` when it does not compile. -/
def classBody : Nat → Flags → ClassAcc → List Char → Option (Nat × List Char)
  | 0, _, _, _ => none
  | fuel + 1, f, acc, cs =>
    match skipBlank f cs with
    | [] => none
    | ']' :: rest => some (1 + acc.height, rest)
    | '[' :: rest =>
      match asciiClass? rest with
      | some (negated, after) =>
        if negated && !f.unicode then none
        else classBody fuel f { acc with items := 0 :: acc.items } after
      | none =>
        let (negated, opening, inside) := classOpen f rest
        if (negated && !f.unicode) || (f.caseless && f.unicode) then none
        else
          match classBody fuel f { items := List.replicate opening 0 } inside with
          | some (h, after) => classBody fuel f { acc with items := h :: acc.items } after
          | none => none
    | '&' :: '&' :: rest => classBody fuel f ⟨[], some acc.height⟩ rest
    | '-' :: '-' :: rest => classBody fuel f ⟨[], some acc.height⟩ rest
    | '~' :: '~' :: rest => classBody fuel f ⟨[], some acc.height⟩ rest
    | more =>
      match classRange f more with
      | some rest => classBody fuel f { acc with items := 0 :: acc.items } rest
      | none => none

/-- A bracketed class after its `[`, under the flags: its nesting and what follows it. -/
def bracketClass (f : Flags) (cs : List Char) : Option (Nat × List Char) :=
  let (negated, opening, inside) := classOpen f cs
  if (negated && !f.unicode) || (f.caseless && f.unicode) then none
  else classBody (cs.length + 1) f { items := List.replicate opening 0 } inside

/-- A decimal number of a counted repetition, with blanks around it: its value and what
follows, if it has digits and fits in 32 bits. -/
def decimal (cs : List Char) : Option (Nat × List Char) :=
  let cs := cs.dropWhile Text.isBlank
  let ds := cs.takeWhile Char.isDigit
  let value := ds.foldl (fun n d => 10 * n + (d.toNat - '0'.toNat)) 0
  if ds.isEmpty || value ≥ Nat.pow 2 32 then none
  else some (value, (cs.drop ds.length).dropWhile Text.isBlank)

/-- A counted repetition after its `{`: what follows its `}`. -/
def counted (cs : List Char) : Option (List Char) :=
  match decimal cs with
  | none => none
  | some (lo, rest) =>
    match rest with
    | '}' :: after => some after
    | ',' :: '}' :: after => some after
    | ',' :: more =>
      match decimal more with
      | some (hi, '}' :: after) => if lo ≤ hi then some after else none
      | _ => none
    | _ => none

/-- What follows a repetition: its lazy mark, if any, is skipped. -/
def afterLazy : List Char → List Char
  | '?' :: rest => rest
  | cs => cs

/-- The flags of a group after its `(?`: their letters, the character that ends them (`)` or
`:`) and what follows it. -/
def flags (cs : List Char) : Option (List Char × Char × List Char) :=
  let body := cs.takeWhile fun c => c != ')' && c != ':'
  match cs.drop body.length with
  | close :: after =>
    let letters := body.filter (· != '-')
    let negations := body.length - letters.length
    if !letters.all (fun c => "imsUuRx".contains c) then none
    else if letters.eraseDups.length != letters.length || negations > 1 then none
    else if body.getLast? == some '-' then none
    else some (body, close, after)
  | [] => none

/-- Whether a character may start a group's name. -/
def startsName (c : Char) : Bool := c == '_' || Text.isAlphabetic c

/-- Whether a character may continue a group's name. -/
def continuesName (c : Char) : Bool :=
  c == '_' || c == '.' || c == '[' || c == ']' || Text.isAlphanumeric c

/-- A group's name after its `<`: the name and what follows its `>`. -/
def groupName (cs : List Char) : Option (String × List Char) :=
  let name := cs.takeWhile (· != '>')
  match cs.drop name.length, name with
  | '>' :: after, first :: more =>
    if startsName first && more.all continuesName then some (String.ofList name, after) else none
  | _, _ => none

/-- Whether a group opening is a look-around, which is not supported. -/
def isLookAround (cs : List Char) : Bool :=
  cs.take 2 == ['?', '='] || cs.take 2 == ['?', '!'] || cs.take 3 == ['?', '<', '='] ||
    cs.take 3 == ['?', '<', '!']

/-- An expression being read within one group: the flags in force, the nesting of the
finished alternatives, the nesting of the items of the current one (newest first), and
whether its last item can be repeated. -/
structure Seq where
  flags : Flags
  branches : List Nat := []
  items : List Nat := []
  repeatable : Bool := false
  deriving DecidableEq, Repr

/-- The nesting of the expression read so far. -/
def Seq.height (s : Seq) : Nat := partsHeight (s.branches ++ [partsHeight s.items]).reverse

/-- The expression with one more item of the given nesting, which a repetition may follow or
not. -/
def Seq.push (s : Seq) (h : Nat) (repeatable : Bool) : Seq :=
  { s with items := h :: s.items, repeatable := repeatable }

/-- The expression with its last item repeated. -/
def Seq.repeatLast (s : Seq) : Seq :=
  match s.items with
  | h :: rest => { s with items := (h + 1) :: rest }
  | [] => s

/-- Reads an expression, inside a group or at the top: its nesting, what follows the `)`
that closes the group, and the group names used; `none` when it does not compile. -/
def sequence : Nat → Bool → List String → Seq → List Char →
    Option (Nat × List Char × List String)
  | 0, _, _, _, _ => none
  | fuel + 1, inGroup, names, s, cs =>
    match skipBlank s.flags cs with
    | [] => if inGroup then none else some (s.height, [], names)
    | c :: rest =>
      match c with
      | ')' => if inGroup then some (s.height, rest, names) else none
      | '|' =>
        sequence fuel inGroup names
          { s with branches := partsHeight s.items :: s.branches, items := [],
                   repeatable := false } rest
      | '*' | '+' | '?' =>
        if s.repeatable then sequence fuel inGroup names s.repeatLast (afterLazy rest) else none
      | '{' =>
        if !s.repeatable then none
        else match counted (skipBlank s.flags rest) with
          | some after =>
            sequence fuel inGroup names s.repeatLast (afterLazy (skipBlank s.flags after))
          | none => none
      | '[' =>
        match bracketClass s.flags rest with
        | some (h, after) => sequence fuel inGroup names (s.push h true) after
        | none => none
      | '(' =>
        let rest := skipBlank s.flags rest
        if isLookAround rest then none
        else
          let named := match rest with
            | '?' :: 'P' :: '<' :: more => some more
            | '?' :: '<' :: more => some more
            | _ => none
          match named, rest with
          | some more, _ =>
            match groupName more with
            | some (name, after) =>
              if names.contains name then none
              else match sequence fuel true (name :: names) { flags := s.flags } after with
                | some (h, after', names') => sequence fuel inGroup names' (s.push (h + 1) true) after'
                | none => none
            | none => none
          | none, '?' :: more =>
            match flags more with
            | some (letters, ')', after) =>
              if letters.isEmpty then none
              else sequence fuel inGroup names
                { s.push 0 false with flags := s.flags.apply true letters } after
            | some (letters, _, after) =>
              match sequence fuel true names { flags := s.flags.apply true letters } after with
              | some (h, after', names') => sequence fuel inGroup names' (s.push (h + 1) true) after'
              | none => none
            | none => none
          | none, _ =>
            match sequence fuel true names { flags := s.flags } rest with
            | some (h, after, names') => sequence fuel inGroup names' (s.push (h + 1) true) after
            | none => none
      | '\\' =>
        match escape rest with
        | some (piece, after) =>
          if piece.compiles s.flags false then sequence fuel inGroup names (s.push 0 true) after
          else none
        | none => none
      | '.' => if s.flags.unicode then sequence fuel inGroup names (s.push 0 true) rest else none
      | '^' | '$' => sequence fuel inGroup names (s.push 0 true) rest
      | _ =>
        if (Piece.literal c.toNat).compiles s.flags false then
          sequence fuel inGroup names (s.push 0 true) rest
        else none

/-- Whether a text is a pattern that the matcher compiles. -/
def wellFormed (s : String) : Bool :=
  match sequence (s.length + 1) false [] { flags := {} } s.toList with
  | some (h, _, _) => h ≤ nestLimit
  | none => false

example : wellFormed "a(b|c)*[x-z]\x7b2,3\x7d" = true := by decide
example : wellFormed "[" = false ∧ wellFormed "(" = false ∧ wellFormed "*a" = false := by decide

end BlockScribe.Cli.Pattern
