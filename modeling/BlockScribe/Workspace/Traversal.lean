import BlockScribe.Workspace.Basic
import BlockScribe.Text.Case
/-!
# Walking a workspace

`Workspace.preorder` lists the blocks reachable from some starting positions in depth-first
preorder, each once: it keeps a stack of positions to visit, takes the top one, skips it if it
was visited (or lies outside the arena), and otherwise lists it and pushes its children so that
the first child is visited next.  Every step either shrinks the stack or visits a new block and
pushes that block's children, so the starting positions plus all children of all blocks bound
the number of steps; that bound is the fuel.

The variables of a workspace (`Workspace.usedVariables`) are the declared ones followed by the
`VAR` field and the parameters of each reachable block, in preorder from the roots; a name
that equals an earlier one up to case is left out.

Source: `cumin-core/src/workspace.rs` (`used_variables`) and
`cumin-compiler/src/generator/sequence.rs` (`nested_comments`).
-/

namespace BlockScribe

/-- The names a block brings into scope: its `VAR` field, then its parameters. -/
def Block.namesUsed (b : Block) : List String := (b.field? "VAR").toList ++ b.extra.params

namespace Workspace

/-- The preorder walk with an explicit stack and a visited list. -/
def walk (w : Workspace) : Nat → List Nat → List Nat → List Nat → List Nat
  | 0, _, _, out => out.reverse
  | _ + 1, [], _, out => out.reverse
  | fuel + 1, i :: stack, visited, out =>
    if visited.contains i then w.walk fuel stack visited out
    else
      match w.get? i with
      | none => w.walk fuel stack (i :: visited) out
      | some b => w.walk fuel (b.children ++ stack) (i :: visited) (i :: out)

/-- The number of links in the arena: the value, statement and successor links of its blocks. -/
def linkCount (w : Workspace) : Nat :=
  w.blocks.foldl (fun n b => n + b.children.length) 0

/-- A bound on the steps of a walk from `starts`: each step takes one start or one link. -/
def walkBound (w : Workspace) (starts : List Nat) : Nat :=
  starts.length + w.linkCount + 1

/-- The blocks reachable from `starts`, in depth-first preorder, each once. -/
def preorder (w : Workspace) (starts : List Nat) : List Nat :=
  w.walk (w.walkBound starts) starts [] []

/-- Names with a later one dropped when it equals an earlier one up to case. -/
def dedupCaseless (names : List String) : List String :=
  let rec go : List String → List String → List String
    | [], _ => []
    | n :: rest, seen =>
      let key := Text.lower n
      if seen.contains key then go rest seen else n :: go rest (key :: seen)
  go names []

/-- The variables of a workspace: declared ones, then those of reachable blocks in preorder. -/
def usedVariables (w : Workspace) : List String :=
  dedupCaseless (w.declared ++
    (w.preorder w.roots).flatMap fun i => ((w.get? i).map Block.namesUsed).getD [])

end Workspace

end BlockScribe
