import BlockScribe.Generate.Dispatch
import BlockScribe.Generate.Layout
/-!
# Generating a workspace

Generation walks the workspace depth first.  Each block is reached at most once
(`GenM.visit`): reaching one a second time, through a cycle or a shared link, stops the
generation.  A reached block that is disabled yields nothing, its successor in a chain still
counts.  A block goes to the rule of its kind (`dispatch`), which asks for its children's code
through `valueCode` (the code of a value slot, bracketed for the order asked for) and
`bodyCode` (the indented code of a statement chain, `chainCode`).  A statement carries its
block's comment lines and, unless its kind places them itself, the statement prefix and
suffix.  A root of a value kind is written as an expression statement; its successor is
ignored.

The functions take fuel: every call passes one less to the calls it makes, and stops with
`outOfFuel` when there is none.  Every chain of four calls reaches a new block, so four units
per block (and a few more) let every generation finish before the fuel does.

Source: `cumin-compiler/src/lib.rs` (`generate`), `generator/mod.rs` (`run`, `node`, `visit`,
`dispatch`), `generator/sequence.rs` (`statement_to_code`, `chain_to_code`, `statement`,
`top_level`, `comment_lines`) and `generator/compose.rs` (`value_to_code`).
-/

namespace BlockScribe

namespace Generation

mutual

/-- The code of the value in a slot of `parent`, bracketed for `outer`; none when the slot is
empty or its block is disabled or hoisted. -/
def valueCode : Nat → Block → String → Order → GenM (Option String)
  | 0, _, _, _ => throw .outOfFuel
  | fuel + 1, parent, slot, outer => do
    match parent.value? slot with
    | none => pure none
    | some i =>
      let b ← GenM.block i
      GenM.visit i b
      if b.disabled then return none
      let (_, out) ← dispatch fuel b
      match out with
      | .value code inner => pure (if code.isEmpty then none else some (bracket code inner outer))
      | .hoisted => pure none
      | .statement _ => throw (.expectedValue b.id b.kind slot)

/-- The code of the statement chain in a slot of `parent`, indented one level. -/
def bodyCode : Nat → Block → String → GenM String
  | 0, _, _ => throw .outOfFuel
  | fuel + 1, parent, slot => do
    match parent.statement? slot with
    | none => pure ""
    | some head => pure (Text.prefixLines (← chainCode fuel head) (← read).config.indent)

/-- The code of a chain of statements from the block at `i`. -/
def chainCode : Nat → Nat → GenM String
  | 0, _ => throw .outOfFuel
  | fuel + 1, i => do
    let b ← GenM.block i
    GenM.visit i b
    let here ← (if b.disabled then pure "" else statementCode fuel b)
    match b.next with
    | some j => pure (here ++ (← chainCode fuel j))
    | none => pure here

/-- The code of one statement block, with its comment lines and instrumentation. -/
def statementCode : Nat → Block → GenM String
  | 0, _ => throw .outOfFuel
  | fuel + 1, b => do
    let (kind, out) ← dispatch fuel b
    match out with
    | .statement code =>
      let ctx ← read
      pure (ctx.workspace.commentLines ctx.reach b ++ ctx.config.wrapStatement kind b code)
    | .hoisted => pure ""
    | .value .. => throw (.expectedStatement b.id b.kind)

/-- A block given to the rule of its kind. -/
def dispatch : Nat → Block → GenM (BlockKind × Output)
  | 0, _ => throw .outOfFuel
  | fuel + 1, b => do
    let kind ← GenM.kindOf b
    GenM.emit (.dispatched b.id kind)
    let ch : Children := ⟨valueCode fuel b, bodyCode fuel b⟩
    let out ← withReader (fun c => { c with ancestors := b :: c.ancestors }) (kind.rule ch b)
    pure (kind, out)

end

/-- The code of a root. -/
def rootCode (fuel : Nat) (i : Nat) : GenM String := do
  let b ← GenM.block i
  let isValue ← (if b.disabled then pure false else (·.isValue) <$> GenM.kindOf b)
  if !isValue then return ← chainCode fuel i
  GenM.visit i b
  let (kind, out) ← dispatch fuel b
  match out with
  | .value code _ =>
    let ctx ← read
    let line := ctx.workspace.commentLines ctx.reach b ++ code
    pure (if line.isEmpty then "" else ctx.config.wrapStatement kind b (line ++ ";\n"))
  | _ => pure ""

/-- The code of all roots, each ending its statements, separated by blank lines. -/
def body (fuel : Nat) (roots : List Nat) : GenM String := do
  let lines ← roots.mapM (rootCode fuel)
  pure ("\n".intercalate (lines.filter (!·.isEmpty)))

/-- The context of a generation: the options, the workspace and its index convention, at the
top and in the global scope. -/
def context (w : Workspace) (c : Config) : Context :=
  ⟨c, w, c.oneBasedIndex.getD w.oneBasedIndex, NameTable.global, [], w.walkBound [0]⟩

/-- The session a generation starts from: the workspace's variables named first, nothing
reached yet. -/
def start (w : Workspace) (c : Config) : Session :=
  let names := NameTable.create c.reservedWords
  let (declared, names) := w.usedVariables.foldl (fun (acc, t) v =>
    let (n, t) := t.nameFor v .variable NameTable.global
    (acc ++ [n], t)) ([], names)
  ⟨names, Registry.empty.declareVariables declared, [],
    #[.started w.size w.roots.length (context w c).oneBased]⟩

/-- A whole generation with some fuel: the code of the roots, after the helpers and procedures
it defined. -/
def program (fuel : Nat) (w : Workspace) : GenM String := do
  let code ← body fuel w.roots
  let s ← get
  let output := Layout.assemble s.registry.codes code
  GenM.emit (.finished s.registry.size output.utf8ByteSize)
  pure output

/-- The fuel a generation of a workspace is given: four units for every block and a few more. -/
def fuel (w : Workspace) : Nat := 4 * w.size + 8

/-- A generation of a workspace under some options: its outcome and the session it ends in. -/
def run (w : Workspace) (c : Config) : Except GenerateError String × Session :=
  (program (fuel w) w).exec (context w c) (start w c)

end Generation

/-- The outcome of a generation and the events it recorded. -/
structure Generated where
  result : Except GenerateError String
  events : List Event

/-- The program text of a workspace under some options. -/
def generate (w : Workspace) (c : Config) : Generated :=
  let (result, s) := Generation.run w c
  ⟨result, s.events.toList⟩

end BlockScribe
