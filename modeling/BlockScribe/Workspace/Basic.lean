import BlockScribe.Workspace.Block
/-!
# Workspaces

A workspace is an arena of blocks linked by position, the list of its top-level blocks (its
roots, in display order), the variables that the editor declared, and whether list and text
positions count from one.  Links may form any graph, shared children and cycles included: the
generator, not the workspace, rejects a block reached twice.

A workspace is built from a `Draft`, in which blocks may lack an id.  `Draft.build` checks it
in three steps: no two explicit ids are equal (the first repeated one is reported); each block
without an id gets `b<position>`, or `b<position>_<n>` with the least `n ≥ 1` that no explicit or
earlier given id holds; and every link points into the arena, checking the blocks in order (each
block's value links, statement links, then its successor) and then the roots.

Source: `cumin-core/src/workspace.rs`: `Workspace` and `WorkspaceBuilder` with `build`.
-/

namespace BlockScribe

/-- Why a workspace cannot be built or read. -/
inductive WorkspaceError where
  /-- The text is not a workspace in the JSON format. -/
  | json
  /-- Two blocks carry this explicit id. -/
  | duplicateId (id : String)
  /-- A block (or `<top>`, for the roots) links to a position past the arena. -/
  | danglingReference (owner : String) (target : Nat)
  deriving DecidableEq, Repr

/-- The message of a workspace error. -/
def WorkspaceError.message : WorkspaceError → String
  | .json => "invalid workspace JSON"
  | .duplicateId id => "duplicate block id `" ++ id ++ "`"
  | .danglingReference owner target =>
    "block `" ++ owner ++ "` refers to missing node #" ++ toString target

/-- An arena of blocks, its roots, its declared variables and its index convention. -/
structure Workspace where
  blocks : Array Block
  roots : List Nat
  declared : List String
  oneBasedIndex : Bool
  deriving Repr, Inhabited

namespace Workspace

/-- The block at a position. -/
def get? (w : Workspace) (i : Nat) : Option Block := w.blocks[i]?

/-- The number of blocks. -/
def size (w : Workspace) : Nat := w.blocks.size

end Workspace

/-- A block under construction, with its id if it has an explicit one. -/
structure DraftBlock where
  explicitId : Option String
  block : Block
  deriving Repr, Inhabited

/-- A workspace under construction. -/
structure Draft where
  blocks : Array DraftBlock := #[]
  roots : List Nat := []
  declared : List String := []
  oneBasedIndex : Bool := false
  deriving Repr, Inhabited

namespace Draft

/-- Adds a block of a kind, with an explicit id or none, and gives its position. -/
def add (d : Draft) (id : Option String) (kind : String) : Nat × Draft :=
  (d.blocks.size, { d with blocks := d.blocks.push ⟨id, { id := id.getD "", kind := kind }⟩ })

/-- Changes the block at a position. -/
def modify (d : Draft) (i : Nat) (f : Block → Block) : Draft :=
  { d with blocks := d.blocks.modify i fun b => { b with block := f b.block } }

/-- Sets a field. -/
def setField (d : Draft) (i : Nat) (name text : String) : Draft :=
  d.modify i fun b => { b with fields := b.fields.insert name text }

/-- Links a value slot. -/
def setValue (d : Draft) (i : Nat) (slot : String) (child : Nat) : Draft :=
  d.modify i fun b => { b with values := b.values.insert slot child }

/-- Links a statement slot. -/
def setStatement (d : Draft) (i : Nat) (slot : String) (head : Nat) : Draft :=
  d.modify i fun b => { b with statements := b.statements.insert slot head }

/-- Links a successor. -/
def setNext (d : Draft) (i next : Nat) : Draft := d.modify i fun b => { b with next := some next }

/-- Sets the comment. -/
def setComment (d : Draft) (i : Nat) (text : String) : Draft :=
  d.modify i fun b => { b with comment := some text }

/-- Disables a block. -/
def disable (d : Draft) (i : Nat) : Draft := d.modify i fun b => { b with disabled := true }

/-- Sets the extra state. -/
def setExtra (d : Draft) (i : Nat) (extra : ExtraState) : Draft :=
  d.modify i fun b => { b with extra := extra }

/-- Appends a root. -/
def addRoot (d : Draft) (i : Nat) : Draft := { d with roots := d.roots ++ [i] }

/-- Declares a variable. -/
def addVariable (d : Draft) (name : String) : Draft := { d with declared := d.declared ++ [name] }

/-- The first explicit id that an earlier block already carries. -/
def repeatedId (ids : List (Option String)) : Option String :=
  let rec go : List (Option String) → List String → Option String
    | [], _ => none
    | none :: rest, seen => go rest seen
    | some id :: rest, seen => if seen.contains id then some id else go rest (id :: seen)
  go ids []

/-- The id given to the block at position `i` when `taken` holds: `b<i>`, or `b<i>_<n>` for
the least `n` that is free, trying at most `fuel` values of `n`. -/
def freshId (taken : List String) (i : Nat) : Nat → Nat → String
  | 0, n => "b" ++ toString i ++ "_" ++ toString n
  | fuel + 1, n =>
    let candidate := if n = 0 then "b" ++ toString i else "b" ++ toString i ++ "_" ++ toString n
    if taken.contains candidate then freshId taken i fuel (n + 1) else candidate

/-- The ids of all blocks: explicit ones as given, the others synthesized in order. -/
def assignIds (blocks : List DraftBlock) : List String :=
  let explicit := blocks.filterMap (·.explicitId)
  let rec go : Nat → List DraftBlock → List String → List String
    | _, [], _ => []
    | i, b :: rest, taken =>
      match b.explicitId with
      | some id => id :: go (i + 1) rest taken
      | none =>
        let id := freshId taken i (taken.length + 1) 0
        id :: go (i + 1) rest (id :: taken)
  go 0 blocks explicit

/-- The first link past the arena: its owner's id and its target. -/
def danglingLink (size : Nat) (blocks : List Block) (roots : List Nat) : Option (String × Nat) :=
  match blocks.findSome? fun b => (b.children.find? (· ≥ size)).map fun t => (b.id, t) with
  | some found => some found
  | none => (roots.find? (· ≥ size)).map fun t => ("<top>", t)

/-- The workspace of a draft, or why there is none. -/
def build (d : Draft) : Except WorkspaceError Workspace :=
  match repeatedId (d.blocks.toList.map (·.explicitId)) with
  | some id => .error (.duplicateId id)
  | none =>
    let ids := assignIds d.blocks.toList
    let blocks := (d.blocks.toList.zip ids).map fun (b, id) => { b.block with id := id }
    match danglingLink blocks.length blocks d.roots with
    | some (owner, target) => .error (.danglingReference owner target)
    | none => .ok ⟨blocks.toArray, d.roots, d.declared, d.oneBasedIndex⟩

end Draft

end BlockScribe
