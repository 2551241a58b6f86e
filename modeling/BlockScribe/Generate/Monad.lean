import BlockScribe.Generate.Config
import BlockScribe.Generate.Error
import BlockScribe.Generate.Event
import BlockScribe.Workspace.Traversal
import BlockScribe.Naming.Registry
import BlockScribe.Expr.Precedence
import BlockScribe.Text.Literal
import BlockScribe.Text.Replace
/-!
# The generation monad

A generation reads a `Context`: the options, the workspace, the index convention, the scope
in which temporaries are named, and the blocks being generated (innermost first).  It changes a
`Session`: the name table, the registry of definitions, the blocks already reached, and the
events so far.  It may stop with a `GenerateError`; the session it had reached then stays
available, so that the events before the error can still be logged.

Instrumentation is a function of the options and the block: a snippet names the block it
stands for where it says `%1`, as a quoted literal of the block's id (`Config.injectId`).

Source: `cumin-compiler/src/generator/mod.rs` (`Generator`, `visit`, `variable_name`,
`procedure_name`, `temporary`, `in_child_scope`, `provide`, `define_procedure`) and
`generator/instrument.rs` (`inject_id`, `prefix_for`, `suffix_for`, `wrap_statement`,
`add_loop_trap`, `early_exit_suffix`, `surrounding_loop`).
-/

namespace BlockScribe

/-- What a rule makes of a block. -/
inductive Output where
  /-- An expression, with the order of its outermost operator. -/
  | value (code : String) (order : Order)
  /-- Statements, each ending with a line break. -/
  | statement (code : String)
  /-- Nothing in place: the block became a definition. -/
  | hoisted
  deriving Repr, Inhabited

/-- What a generation reads. -/
structure Context where
  config : Config
  workspace : Workspace
  oneBased : Bool
  /-- The scope in which temporaries are named. -/
  scope : Nat
  /-- The blocks being generated, innermost first. -/
  ancestors : List Block
  /-- Steps enough for a walk from one block (`Workspace.walkBound`). -/
  reach : Nat

/-- What a generation changes. -/
structure Session where
  names : NameTable
  registry : Registry
  /-- The positions of the blocks reached so far. -/
  seen : List Nat
  events : Array Event

/-- A step of generation. -/
abbrev GenM := ReaderT Context (ExceptT GenerateError (StateM Session))

namespace Config

/-- A snippet with `%1` standing for the block's quoted id. -/
def injectId (snippet : String) (b : Block) : String :=
  Text.replace snippet "%1" ("'" ++ b.id ++ "'")

/-- The statement prefix for a block, if one is set. -/
def prefixFor (c : Config) (b : Block) : Option String := c.statementPrefix.map (injectId · b)

/-- The statement suffix for a block, if one is set. -/
def suffixFor (c : Config) (b : Block) : Option String := c.statementSuffix.map (injectId · b)

/-- A statement of a block between its prefix and suffix, unless its kind places them itself. -/
def wrapStatement (c : Config) (kind : BlockKind) (b : Block) (code : String) : String :=
  if kind.placesOwnSnippets then code
  else (c.prefixFor b).getD "" ++ code ++ (c.suffixFor b).getD ""

/-- The loop trap for a block, indented one level, if one is set. -/
def indentedLoopTrap (c : Config) (b : Block) : Option String :=
  c.loopTrap.map fun trap => Text.prefixLines (injectId trap b) c.indent

/-- A loop body with the loop's instrumentation: the suffix and the trap before the body and
the prefix after it, each indented one level. -/
def addLoopTrap (c : Config) (branch : String) (b : Block) : String :=
  let branch := match c.indentedLoopTrap b with
    | some trap => trap ++ branch
    | none => branch
  let branch := match c.suffixFor b with
    | some suffix => Text.prefixLines suffix c.indent ++ branch
    | none => branch
  match c.prefixFor b with
  | some pre => branch ++ Text.prefixLines pre c.indent
  | none => branch

/-- The suffix that precedes an early exit, indented one level, or nothing. -/
def earlyExitSuffix (c : Config) (b : Block) : String :=
  ((c.suffixFor b).map fun suffix => Text.prefixLines suffix c.indent).getD ""

end Config

namespace Workspace

/-- The nonempty comments of the blocks reachable from a block, in preorder, one per line;
`reach` bounds the steps of the walk (`Workspace.walkBound`). -/
def nestedComments (w : Workspace) (reach root : Nat) : String :=
  String.join ((w.walk reach [root] [] []).filterMap fun i =>
    ((w.get? i).bind Block.note?).map (· ++ "\n"))

/-- The comment lines that precede a block's code: its own comment, then the comments of the
blocks in each value input. -/
def commentLines (w : Workspace) (reach : Nat) (b : Block) : String :=
  let own := match b.note? with
    | some c => Text.prefixLines (c ++ "\n") "// "
    | none => ""
  own ++ String.join (b.values.contents.map fun child =>
    Text.prefixLines (w.nestedComments reach child) "// ")

end Workspace

namespace GenM

/-- The outcome of a step run in a context from a session, and the session after it. -/
def exec {α : Type} (m : GenM α) (ctx : Context) (s : Session) :
    Except GenerateError α × Session :=
  ((m.run ctx).run).run s

/-- Records an event. -/
def emit (e : Event) : GenM Unit := modify fun s => { s with events := s.events.push e }

/-- The global name of a workspace variable. -/
def variableName (key : String) : GenM String :=
  modifyGet fun s =>
    let (n, t) := s.names.nameFor key .variable NameTable.global
    (n, { s with names := t })

/-- The global name of a procedure. -/
def procedureName (key : String) : GenM String :=
  modifyGet fun s =>
    let (n, t) := s.names.nameFor key .procedure NameTable.global
    (n, { s with names := t })

/-- A fresh name for a temporary, in the current scope. -/
def temporary (base : String) : GenM String := do
  let scope := (← read).scope
  modifyGet fun s =>
    let (n, t) := s.names.distinct base scope
    (n, { s with names := t })

/-- Runs a step in a new scope inside the current one. -/
def inChildScope {α : Type} (body : GenM α) : GenM α := do
  let outer := (← read).scope
  let inner ← modifyGet fun s =>
    let (i, t) := s.names.openScope outer
    (i, { s with names := t })
  withReader (fun c => { c with scope := inner }) body

/-- The name of a helper, registering it on first use. -/
def provide (desired : String) (lines : List String) : GenM String := do
  let unit := (← read).config.indent
  let s ← get
  let (name, registry, names, fresh) := s.registry.provide s.names unit desired lines
  set { s with registry := registry, names := names }
  if fresh then emit (.helperRegistered desired name)
  pure name

/-- Registers a procedure's definition. -/
def defineProcedure (name code : String) : GenM Unit := do
  let replaced ← modifyGet fun s =>
    let (r, replaced) := s.registry.defineProcedure name code
    (replaced, { s with registry := r })
  emit (.procedureDefined name replaced)

/-- Marks a block as reached; reaching it twice is an error. -/
def visit (i : Nat) (b : Block) : GenM Unit := do
  let s ← get
  if s.seen.contains i then throw (.malformedLinkage b.id)
  set { s with seen := i :: s.seen }

/-- The block at a position. -/
def block (i : Nat) : GenM Block := do
  match (← read).workspace.get? i with
  | some b => pure b
  | none => throw (.missingNode i)

/-- The kind of a block. -/
def kindOf (b : Block) : GenM BlockKind :=
  match BlockKind.ofName? b.kind with
  | some k => pure k
  | none => throw (.unknownKind b.id b.kind)

/-- The innermost loop around the block being generated. -/
def surroundingLoop : GenM (Option Block) := do
  pure (((← read).ancestors.drop 1).find? fun b =>
    match BlockKind.ofName? b.kind with
    | some k => k.isLoop
    | none => false)

end GenM

end BlockScribe
