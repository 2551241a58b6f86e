import BlockScribe.Workspace.Tree
import BlockScribe.Workspace.Basic
/-!
# Loading a workspace

Loading flattens the nested form into the arena: a block comes first, then the blocks of its
inputs (each child with everything it nests, in slot order), then those of its statements, and
then the block after it, and so on along the chain (`BlockTree.lower`).  A block without an id
is added without one, so that `Draft.build` gives it one.  `Workspace.ofJson` reads, decodes,
flattens and builds; a text that is not a workspace of the format is `WorkspaceError.json`.

Source: `cumin-core/src/json.rs`: `Workspace::from_json`, `into_workspace`, `lower` and
`lower_block`.
-/

namespace BlockScribe

mutual

/-- Adds a block, what it nests and the chain after it to a draft; gives its position. -/
def BlockTree.lower : BlockTree → Draft → Nat × Draft
  | .node kind id fields inputs statements next comment disabled extra, d =>
    let (i, d) := d.add id kind
    let d := fields.foldl (fun d (name, text) => d.setField i name text) d
    let d := BlockTree.lowerInputs i inputs d
    let d := BlockTree.lowerStatements i statements d
    let d := match comment with
      | some c => d.setComment i c
      | none => d
    let d := if disabled then d.disable i else d
    let d := d.setExtra i extra
    (i, BlockTree.lowerNext i next d)

/-- Adds the blocks of value inputs and links them to the block at `i`. -/
def BlockTree.lowerInputs (i : Nat) : List (String × BlockTree) → Draft → Draft
  | [], d => d
  | (slot, child) :: rest, d =>
    let (c, d) := child.lower d
    BlockTree.lowerInputs i rest (d.setValue i slot c)

/-- Adds the chains of statement inputs and links them to the block at `i`. -/
def BlockTree.lowerStatements (i : Nat) : List (String × BlockTree) → Draft → Draft
  | [], d => d
  | (slot, head) :: rest, d =>
    let (c, d) := head.lower d
    BlockTree.lowerStatements i rest (d.setStatement i slot c)

/-- Adds the chain after the block at `i` and links it. -/
def BlockTree.lowerNext (i : Nat) : Option BlockTree → Draft → Draft
  | none, d => d
  | some t, d =>
    let (j, d) := t.lower d
    d.setNext i j

end

/-- The draft of a workspace in nested form. -/
def WorkspaceTree.toDraft (t : WorkspaceTree) : Draft :=
  let d : Draft := { oneBasedIndex := t.oneBasedIndex, declared := t.declared }
  t.blocks.foldl (fun d b => let (i, d) := b.lower d; d.addRoot i) d

/-- The workspace written as JSON text. -/
def Workspace.ofJson (text : String) : Except WorkspaceError Workspace :=
  match readJson text with
  | none => .error .json
  | some v =>
    match WorkspaceTree.decode (text.length + 1) v with
    | none => .error .json
    | some t => t.toDraft.build

end BlockScribe
