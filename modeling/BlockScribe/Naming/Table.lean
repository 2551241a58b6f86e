import BlockScribe.Text.Identifier
import BlockScribe.Text.Case
/-!
# Name tables

A name table hands out the identifiers of generated code.  It holds the reserved words and a
tree of scopes (scope `0` is the global scope, and every other scope has a parent).  Each scope
records the names taken in it and the keys it has named: a key is a variable or procedure
name of the workspace, compared without regard to case.

A name counts as taken for a scope (`NameTable.isTaken`) if it is reserved or taken in the
scope itself, in one of its ancestors or in one of its descendants, so that a name given out
in a procedure's scope can never shadow or be shadowed by a name of an enclosing or enclosed
scope.  `NameTable.distinct` makes a base text into an identifier (`Text.safeName`) and
appends the least counter from 2 that makes it untaken; `NameTable.nameFor` gives a key the
name that a scope or one of its ancestors already gave it, or else a distinct new one.

Source: `cumin-compiler/src/names.rs`: `NameTable` with `open_scope`, `get_or_create`,
`get_distinct`, `is_taken`, `ancestors` and `descendants`.
-/

namespace BlockScribe

/-- What a key names: a variable or a procedure. -/
inductive NameKind where
  | variable
  | procedure
  deriving DecidableEq, Repr, Inhabited

/-- The words that generated code never uses as identifiers. -/
def reservedWords : List String :=
  ["break", "case", "catch", "class", "const", "continue", "debugger", "default", "delete",
    "do", "else", "enum", "export", "extends", "finally", "for", "function", "if", "implements",
    "import", "in", "instanceof", "interface", "let", "new", "package", "private", "protected",
    "public", "return", "static", "super", "switch", "this", "throw", "try", "typeof", "var",
    "void", "while", "with", "yield", "await", "null", "true", "false", "arguments",
    "Array", "Boolean", "Date", "Error", "Function", "Infinity", "JSON", "Math", "NaN",
    "Number", "Object", "RegExp", "String", "undefined", "window", "document", "alert",
    "prompt", "console", "eval", "isFinite", "isNaN", "parseFloat", "parseInt"]

/-- One scope of a name table. -/
structure Scope where
  /-- The enclosing scope; the global scope has none. -/
  parent : Option Nat
  /-- The keys named in this scope, each by kind and lowercase spelling, with its name. -/
  keys : List ((NameKind × String) × String)
  /-- The names taken in this scope. -/
  taken : List String
  deriving Repr, Inhabited

/-- Reserved words and a tree of scopes. -/
structure NameTable where
  reserved : List String
  scopes : Array Scope
  deriving Repr, Inhabited

namespace NameTable

/-- The global scope. -/
def global : Nat := 0

/-- A table with the reserved words and `extra`, and the global scope alone. -/
def create (extra : List String) : NameTable :=
  ⟨reservedWords ++ extra, #[⟨none, [], []⟩]⟩

/-- The scope with a number (an empty global scope if there is none). -/
def scope (t : NameTable) (s : Nat) : Scope := t.scopes.getD s ⟨none, [], []⟩

/-- Opens a scope inside `parent` and gives its number. -/
def openScope (t : NameTable) (parent : Nat) : Nat × NameTable :=
  (t.scopes.size, { t with scopes := t.scopes.push ⟨some parent, [], []⟩ })

/-- A scope followed by its ancestors, outward, following at most `fuel` parents. -/
def chain (t : NameTable) : Nat → Nat → List Nat
  | 0, s => [s]
  | fuel + 1, s =>
    match (t.scope s).parent with
    | some p => s :: chain t fuel p
    | none => [s]

/-- A scope and its ancestors. -/
def ancestors (t : NameTable) (s : Nat) : List Nat := t.chain t.scopes.size s

/-- The scopes strictly inside a scope. -/
def descendants (t : NameTable) (s : Nat) : List Nat :=
  (List.range t.scopes.size).filter fun d => d != s && (t.ancestors d).contains s

/-- Whether a name is reserved or taken in a scope, an ancestor or a descendant. -/
def isTaken (t : NameTable) (name : String) (s : Nat) : Bool :=
  t.reserved.contains name ||
    (t.ancestors s ++ t.descendants s).any fun d => (t.scope d).taken.contains name

/-- The candidate with a counter: the base itself for 1, then the base followed by the
counter. -/
def candidate (safe : String) (counter : Nat) : String :=
  if counter ≤ 1 then safe else safe ++ toString counter

/-- The first candidate from `counter` on that is not taken, trying at most `fuel`. -/
def firstFree (t : NameTable) (safe : String) (s : Nat) : Nat → Nat → String
  | 0, counter => candidate safe counter
  | fuel + 1, counter =>
    if t.isTaken (candidate safe counter) s then t.firstFree safe s fuel (counter + 1)
    else candidate safe counter

/-- How many names the table holds: enough tries for `firstFree` to find a free one. -/
def size (t : NameTable) : Nat :=
  t.reserved.length + t.scopes.foldl (fun n sc => n + sc.taken.length) 0

/-- Marks a name as taken in a scope. -/
def take (t : NameTable) (name : String) (s : Nat) : NameTable :=
  { t with scopes := t.scopes.modify s fun sc => { sc with taken := sc.taken ++ [name] } }

/-- A new identifier made from `base` that no related scope has taken; it is taken in `s`. -/
def distinct (t : NameTable) (base : String) (s : Nat) : String × NameTable :=
  let name := t.firstFree (Text.safeName base) s (t.size + 1) 1
  (name, t.take name s)

/-- The name a key has in a scope or its ancestors. -/
def lookup (t : NameTable) (key : String) (kind : NameKind) (s : Nat) : Option String :=
  let k := (kind, Text.lower key)
  (t.ancestors s).findSome? fun d => ((t.scope d).keys.find? (·.1 == k)).map (·.2)

/-- The name of a key: the one already given in the scope or an ancestor, or a new distinct
one recorded in the scope. -/
def nameFor (t : NameTable) (key : String) (kind : NameKind) (s : Nat) : String × NameTable :=
  match t.lookup key kind s with
  | some name => (name, t)
  | none =>
    let (name, t) := t.distinct key s
    (name, { t with scopes := t.scopes.modify s fun sc =>
      { sc with keys := sc.keys ++ [((kind, Text.lower key), name)] } })

end NameTable

end BlockScribe
