import BlockScribe.Cli.Arguments
import BlockScribe.Cli.Log
import BlockScribe.Cli.Filter
import BlockScribe.Cli.Machine
import BlockScribe.Workspace.Load
import BlockScribe.Generate.Traverse
/-!
# Running a command line

`Cli.run` answers a command line with an exit status, printing on standard output and
standard error as it goes, over any monad that can read and write files, read standard input
and print (`Host`).

* Help goes to standard output with status 0.  A refused command line gets `error: ` and the
  reason on standard error, with status 2; no arguments at all get the program's help there.
* `kinds` lists every block kind with its shape.
* `generate` and `check` read the workspace (from standard input for `-`), generate its code
  and log on the way; `generate` prints the code, or writes it to the `--output` file.  A
  failure to read, to load, to generate or to write ends the run with `error: ` and the cause,
  after the log, and status 1.
* A filter text whose reading crashes ends `generate` and `check` with the crash report and
  status 101.

Snippets from the command line are whole lines: each gets a final newline if it lacks one.

Source: `cumin-cli/src/main.rs` (`main`), `cli/dispatch.rs` (`from_matches`, `parse_index_base`,
`snippet`) and `commands/*.rs` (`run`, `fail`).
-/

namespace BlockScribe.Cli

/-- What a run gives: its exit status and what it printed on standard output and error. -/
structure Outcome where
  status : Nat
  stdout : String := ""
  stderr : String := ""
  deriving DecidableEq, Repr

/-- The list of block kinds: each name, padded to the longest, and its shape. -/
def kindsText : String :=
  let width := BlockKind.all.foldl (fun w k => max w k.name.length) 0
  String.join (BlockKind.all.map fun k =>
    padRight k.name width ++ "  " ++ (if k.isValue then "value" else "statement") ++ "\n")

/-- A snippet as a whole line. -/
def snippet (s : String) : String := if s.endsWith "\n" then s else s ++ "\n"

/-- The generation options an invocation asks for. -/
def Invocation.config (i : Invocation) : Config where
  indent := match i.indent with
    | some n => "".pushn ' ' n
    | none => "  "
  statementPrefix := i.statementPrefix.map snippet
  statementSuffix := i.statementSuffix.map snippet
  loopTrap := i.loopTrap.map snippet
  oneBasedIndex := i.oneBased
  reservedWords := i.reserved

/-- Where a workspace came from, as messages name it. -/
def origin (input : String) : String :=
  if input == "-" then "<stdin>" else "'" ++ input ++ "'"

/-- The record of a loaded workspace. -/
def loadedRecord (input : String) (w : Workspace) : Record :=
  ⟨.debug, "cumin::commands::workspace_loader", "workspace loaded",
    [("origin", .quoted (origin input)), ("nodes", .plain (toString w.size)),
      ("roots", .plain (toString w.roots.length))]⟩

/-- The record of written code. -/
def writtenRecord (path : String) (bytes : Nat) : Record :=
  ⟨.info, "cumin::commands::generate", "code written",
    [("path", .plain path), ("bytes", .plain (toString bytes))]⟩

/-- Fails: prints the error on standard error and gives status 1. -/
def fail {m : Type → Type} [Monad m] [Host m] (message : String) : m Nat := do
  Host.print .err ("error: " ++ message ++ "\n")
  pure 1

/-- The text of the workspace to read. -/
def readSource {m : Type → Type} [Monad m] [Host m] (input : String) :
    m (Except String String) := do
  if input == "-" then
    return .ok (← Host.readInput)
  match ← Host.readFile input with
  | .ok text => return .ok text
  | .error e => return .error ("failed to read '" ++ input ++ "': " ++ e.message)

/-- Generates the code of the invocation's workspace, logging through the filter as it goes;
writes the code out when `emit` is set.  Gives the exit status. -/
def runGeneration {m : Type → Type} [Monad m] [Host m] (i : Invocation) (emit : Bool)
    (filter : LogFilter) : m Nat := do
  match ← readSource i.input with
  | .error message => fail message
  | .ok text =>
    match Workspace.ofJson text with
    | .error e => fail ("invalid workspace in " ++ origin i.input ++ ": " ++ e.message)
    | .ok w =>
      let g := generate w i.config
      Host.print .err (filter.render (loadedRecord i.input w :: g.events.map eventRecord))
      match g.result with
      | .error e => fail e.message
      | .ok code =>
        if !emit then return 0
        match i.output with
        | none =>
          Host.print .out code
          return 0
        | some path =>
          match ← Host.writeFile path code with
          | .error e => fail ("failed to write '" ++ path ++ "': " ++ e.message)
          | .ok () =>
            Host.print .err (filter.render [writtenRecord path code.utf8ByteSize])
            return 0

/-- The text of a refused command line: the reason, the usage and a hint. -/
def refusal (e : UsageError) (usage : String) : String :=
  "error: " ++ e.message ++ "\n\nUsage: " ++ usage ++ "\n\nFor more information, try '--help'.\n"

/-- Sets up the log from its filter text and the `-v` count and runs `k` with the filter; a
crash while reading the filter text ends the run with its report and status 101. -/
def withFilter {m : Type → Type} [Monad m] [Host m] (setting : Option String) (verbosity : Nat)
    (k : LogFilter → m Nat) : m Nat := do
  match LogFilter.choose setting verbosity with
  | .ok f => k f
  | .error c =>
    Host.print .err (c.report (← Host.threadId))
    pure 101

/-- Runs a command line, with the filter text of the log if one is set; gives the exit
status, having printed on standard output and standard error. -/
def run {m : Type → Type} [Monad m] [Host m] (args : List String) (logSetting : Option String) :
    m Nat :=
  match Request.ofArgs args with
  | .help text => do Host.print .out text; pure 0
  | .bare => do Host.print .err programHelp; pure 2
  | .refuse e usage => do Host.print .err (refusal e usage); pure 2
  | .kinds => do Host.print .out kindsText; pure 0
  | .generate i => withFilter logSetting i.verbosity (runGeneration i true)
  | .check i => withFilter logSetting i.verbosity (runGeneration i false)

/-- Runs a command line on a machine: the outcome (the status and what the machine shows
printed) and the machine after it. -/
def runOn (machine : Machine) (args : List String) (logSetting : Option String) :
    Outcome × Machine :=
  let (status, after) := (run (m := StateM Machine) args logSetting).run machine
  (⟨status, after.out, after.err⟩, after)

end BlockScribe.Cli
