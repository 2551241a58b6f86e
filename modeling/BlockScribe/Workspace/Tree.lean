import BlockScribe.Json.Reader
import BlockScribe.Json.Number
import BlockScribe.Workspace.Slots
import BlockScribe.Workspace.Block
/-!
# The nested form of a workspace

In the JSON format a workspace nests its blocks: a block holds the blocks of its value inputs
and statement inputs, and the block after it, inside itself.  `BlockTree` is that form, and
`WorkspaceTree.decode` reads it from a JSON value.

The format's rules, which decide which texts are workspaces:
* a record (workspace, block, extra state, options) is an object whose members are found by
  key, or an array whose elements fill the fields in order, missing trailing ones taking their
  defaults; unknown keys are skipped unread, a known key given twice is an error, and so is an
  array longer than the record;
* the fields, inputs and statements of a block are objects; when a name repeats, every value
  is still read, and the last one takes the place of the first;
* a field value is a string, a number (written as the format writes numbers) or a boolean
  (`TRUE` or `FALSE`);
* `null` stands for an absent `id`, `next`, `comment`, `itemCount` or `hasReturnValue`, and is
  an error anywhere else;
* counts are nonnegative integers below `2^64`; a parameter is a name, or an object (never an
  array) whose `name` is one;
* every string that is read must have paired surrogates, and so must every key of a record;
  field values and parameters are read in full, so within them every string and key must be
  well formed and every number in range.

Source: `cumin-core/src/json.rs`: `RawWorkspace`, `RawBlock`, `RawExtraState` and `RawParam`.
-/

namespace BlockScribe

/-- A block in the nested form of the JSON format. -/
inductive BlockTree where
  | node (kind : String) (id : Option String) (fields : List (String × String))
      (inputs : List (String × BlockTree)) (statements : List (String × BlockTree))
      (next : Option BlockTree) (comment : Option String) (disabled : Bool) (extra : ExtraState)
  deriving Repr, Inhabited

/-- A workspace in the nested form. -/
structure WorkspaceTree where
  oneBasedIndex : Bool
  declared : List String
  blocks : List BlockTree
  deriving Repr, Inhabited

namespace JsonDecode

/-- The values of a record's fields, by name, from an object or an array. -/
def record (names : List String) : JsonValue → Option (List (Option JsonValue))
  | .object ms =>
    if ms.any (fun m => !m.1.wellFormed) then none
    else if names.any (fun f => (ms.filter (·.1.text == f)).length > 1) then none
    else some (names.map fun f => (ms.find? (·.1.text == f)).map (·.2))
  | .array items =>
    if items.length > names.length then none
    else some ((List.range names.length).map fun i => items[i]?)
  | _ => none

/-- A well-formed string. -/
def text? : JsonValue → Option String
  | .string s => if s.wellFormed then some s.text else none
  | _ => none

/-- An optional string: absent or `null` is none. -/
def optionalText? : Option JsonValue → Option (Option String)
  | none | some .null => some none
  | some v => (text? v).map some

/-- A boolean, `false` when absent. -/
def flag? : Option JsonValue → Option Bool
  | none => some false
  | some (.bool b) => some b
  | some _ => none

/-- An optional boolean: absent or `null` is none. -/
def optionalFlag? : Option JsonValue → Option (Option Bool)
  | none | some .null => some none
  | some (.bool b) => some (some b)
  | some _ => none

/-- A nonnegative integer below `2^64`. -/
def count? : JsonValue → Option Nat
  | .number n =>
    match n.read with
    | some (.natural k) => some k
    | _ => none
  | _ => none

/-- The text of a field value. -/
def fieldText? : JsonValue → Option String
  | .string s => if s.wellFormed then some s.text else none
  | .number n => n.read.map JsonNumeric.text
  | .bool true => some "TRUE"
  | .bool false => some "FALSE"
  | _ => none

mutual

/-- Whether a value can be read in full: every string and key well formed, every number in
range. -/
def complete : JsonValue → Bool
  | .null | .bool _ => true
  | .number n => n.read.isSome
  | .string s => s.wellFormed
  | .array items => completeItems items
  | .object ms => completeMembers ms

/-- Whether every item can be read in full. -/
def completeItems : List JsonValue → Bool
  | [] => true
  | v :: rest => complete v && completeItems rest

/-- Whether every member can be read in full. -/
def completeMembers : List (JsonText × JsonValue) → Bool
  | [] => true
  | (k, v) :: rest => k.wellFormed && complete v && completeMembers rest

end

/-- A parameter: a name, or an object whose `name` is one (an array is no parameter). -/
def param? (v : JsonValue) : Option String :=
  if !complete v then none
  else match v with
    | .string s => some s.text
    | .object _ =>
      match record ["name"] v with
      | some [some (.string s)] => some s.text
      | _ => none
    | _ => none

/-- A list of values, each read by `f`. -/
def list? {α : Type} (f : JsonValue → Option α) : Option JsonValue → Option (List α)
  | none => some []
  | some (.array items) => items.mapM f
  | some _ => none

/-- The extra state of a block. -/
def extra? : Option JsonValue → Option ExtraState
  | none => some {}
  | some v => do
    let fs ← record ["elseIfCount", "hasElse", "itemCount", "params", "hasReturnValue"] v
    match fs with
    | [elseIfs, hasElse, items, params, hasReturn] =>
      let elseIfCount ← match elseIfs with
        | none => some 0
        | some c => count? c
      let itemCount ← match items with
        | none | some .null => some none
        | some c => (count? c).map some
      pure {
        elseIfCount := elseIfCount
        hasElse := ← flag? hasElse
        itemCount := itemCount
        params := ← list? param? params
        hasReturnValue := ← optionalFlag? hasReturn }
    | _ => none

/-- Named values with repeated names merged: the last value in the place of the first. -/
def merge {α : Type} (pairs : List (String × α)) : List (String × α) := (Slots.ofList pairs).entries

/-- The fields of a block. -/
def fields? : Option JsonValue → Option (List (String × String))
  | none => some []
  | some (.object ms) => do
    if ms.any (fun m => !m.1.wellFormed) then none
    let pairs ← ms.mapM fun (k, v) => (fieldText? v).map fun t => (k.text, t)
    pure (merge pairs)
  | some _ => none

/-- A block and, inside it, the blocks it nests, reading at most `fuel` levels deep. -/
def block? : Nat → JsonValue → Option BlockTree
  | 0, _ => none
  | fuel + 1, v => do
    let fs ← record ["type", "id", "fields", "inputs", "statements", "next", "comment",
      "disabled", "extraState"] v
    match fs with
    | [kind, id, fields, inputs, statements, next, comment, disabled, extra] =>
      let kind ← kind >>= text?
      let slots (w : Option JsonValue) : Option (List (String × BlockTree)) :=
        match w with
        | none => some []
        | some (.object ms) => do
          if ms.any (fun m => !m.1.wellFormed) then none
          let pairs ← ms.mapM fun (k, c) => (block? fuel c).map fun t => (k.text, t)
          pure (merge pairs)
        | some _ => none
      let next ← match next with
        | none | some .null => some none
        | some n => (block? fuel n).map some
      pure (.node kind (← optionalText? id) (← fields? fields) (← slots inputs) (← slots statements)
        next (← optionalText? comment) (← flag? disabled) (← extra? extra))
    | _ => none

end JsonDecode

/-- The nested form of a workspace read from a JSON value, nesting at most `depth` levels. -/
def WorkspaceTree.decode (depth : Nat) (v : JsonValue) : Option WorkspaceTree := do
  match ← JsonDecode.record ["options", "variables", "blocks"] v with
  | [options, declared, blocks] =>
    let oneBased ← match options with
      | none => some false
      | some o => do
        match ← JsonDecode.record ["oneBasedIndex"] o with
        | [flag] => JsonDecode.flag? flag
        | _ => none
    pure ⟨oneBased, ← JsonDecode.list? JsonDecode.text? declared,
      ← JsonDecode.list? (JsonDecode.block? depth) blocks⟩
  | _ => none

end BlockScribe
