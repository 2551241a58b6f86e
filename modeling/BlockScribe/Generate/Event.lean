import BlockScribe.Block.Kind
/-!
# Generation events

A generation records what it does, in order, for a log: its start, each block it dispatches to
a rule, each helper it registers, each procedure it defines, and its end.

Source: the log records of `cumin-compiler/src/generator/mod.rs` (`run`, `dispatch`) and
`definitions.rs` (`provide`, `define_procedure`).
-/

namespace BlockScribe

/-- A step of a generation worth a log line. -/
inductive Event where
  /-- Generation began on a workspace of `nodes` blocks and `roots` roots. -/
  | started (nodes roots : Nat) (oneBased : Bool)
  /-- A block went to the rule of its kind. -/
  | dispatched (id : String) (kind : BlockKind)
  /-- A helper was registered under a name. -/
  | helperRegistered (desired name : String)
  /-- A procedure was defined, replacing an earlier one or not. -/
  | procedureDefined (name : String) (replaced : Bool)
  /-- Generation ended with `definitions` definitions and `bytes` bytes of code. -/
  | finished (definitions bytes : Nat)
  deriving Repr

end BlockScribe
