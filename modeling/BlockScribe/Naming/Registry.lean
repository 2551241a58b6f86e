import BlockScribe.Naming.Table
import BlockScribe.Text.Replace
/-!
# The registry of definitions

Generated code opens with definitions: one `var` line declaring the variables, the helper
functions that rules ask for, and the procedures of the workspace.  The registry keeps them in
the order in which they were first registered; registering a key again replaces its code in
place (`Registry.insert`).

A helper is registered once under the name its rule desires (`Registry.provide`): the first
request takes a distinct global name for it from the name table, writes that name where its
lines say `%FN%`, and re-indents the lines from two-space units to the configured unit; every
later request gets the same name back.

Source: `cumin-compiler/src/definitions.rs`: `Definitions` with `provide`, `define_procedure`,
`declare_variables`, `codes`, and `reindent`.
-/

namespace BlockScribe

/-- What a definition is registered under. -/
inductive DefinitionKey where
  /-- The declaration of the variables. -/
  | declaredVariables
  /-- A helper function, by the name its rule desires. -/
  | helper (desired : String)
  /-- A procedure, by its name. -/
  | procedure (name : String)
  deriving DecidableEq, Repr, Inhabited

/-- A registered definition: its name and its code. -/
structure Definition where
  name : String
  code : String
  deriving Repr, Inhabited

/-- Definitions in the order of their first registration. -/
structure Registry where
  entries : Array (DefinitionKey × Definition)
  deriving Repr, Inhabited

/-- The placeholder for a helper's name in its lines. -/
def helperNamePlaceholder : String := "%FN%"

/-- A line whose leading two-space units are each replaced by `unit`. -/
def reindentLine (unit : List Char) : List Char → List Char
  | ' ' :: ' ' :: rest => unit ++ reindentLine unit rest
  | cs => cs

/-- Code written with two-space indentation, re-indented to `unit`. -/
def reindent (text unit : String) : String :=
  if unit == "  " then text
  else
    String.ofList (Text.unlines ((Text.lines text.toList).map (reindentLine unit.toList)))

namespace Registry

/-- The empty registry. -/
def empty : Registry := ⟨#[]⟩

/-- The definition registered under a key. -/
def find? (r : Registry) (key : DefinitionKey) : Option Definition :=
  (r.entries.find? (·.1 == key)).map (·.2)

/-- Whether a key is registered. -/
def contains (r : Registry) (key : DefinitionKey) : Bool := (r.find? key).isSome

/-- Registers a definition, in place of an earlier one under the same key; also tells
whether there was one. -/
def insert (r : Registry) (key : DefinitionKey) (d : Definition) : Registry × Bool :=
  match r.entries.findIdx? (·.1 == key) with
  | some i => (⟨r.entries.set! i (key, d)⟩, true)
  | none => (⟨r.entries.push (key, d)⟩, false)

/-- The number of definitions. -/
def size (r : Registry) : Nat := r.entries.size

/-- The codes of the definitions, in registration order. -/
def codes (r : Registry) : List String := r.entries.toList.map (·.2.code)

/-- The name of the helper desired as `desired`, registering its lines the first time; the
flag tells whether this call registered it. -/
def provide (r : Registry) (names : NameTable) (unit desired : String) (lines : List String) :
    String × Registry × NameTable × Bool :=
  match r.find? (.helper desired) with
  | some d => (d.name, r, names, false)
  | none =>
    let (name, names) := names.distinct desired NameTable.global
    let code := reindent (Text.replace ("\n".intercalate lines) helperNamePlaceholder name) unit
    ((name, (r.insert (.helper desired) ⟨name, code⟩).1, names, true))

/-- Registers the code of a procedure; the flag tells whether it replaced an earlier one. -/
def defineProcedure (r : Registry) (name code : String) : Registry × Bool :=
  r.insert (.procedure name) ⟨name, code⟩

/-- Registers the declaration of the variables, if there are any. -/
def declareVariables (r : Registry) (names : List String) : Registry :=
  if names.isEmpty then r
  else (r.insert .declaredVariables ⟨"", "var " ++ ", ".intercalate names ++ ";"⟩).1

end Registry

end BlockScribe
