/-!
# The commands of the command line

The program `cumin` has three commands, `generate`, `check` and `kinds`, and `help`, which
prints the help of the program or of a command.  Each command is described by data
(`CommandSpec`): what it is for, the file it reads, its options with their spellings, what each
does when it appears, the pairs of options that exclude each other, and examples.  The help texts
and the reading of arguments both work from these descriptions.

Source: `cumin-cli/src/cli/commands.rs` (`build_cli`, `generate_command`, `check_command`,
`kinds_command`) and `cli/args.rs`.
-/

namespace BlockScribe.Cli

/-- The options of the commands. -/
inductive OptionKey where
  | output | oneBased | zeroBased | indent | statementPrefix | statementSuffix | loopTrap
  | reserve | verbose | help
  deriving DecidableEq, Repr

/-- How the value of an option is read. -/
inductive ValueKind where
  /-- A path, which may not be empty. -/
  | path
  /-- Any text. -/
  | text
  /-- A whole number between two bounds, both included. -/
  | bounded (lo hi : Int)
  deriving DecidableEq, Repr

/-- What an option does each time it appears. -/
inductive OptionAction where
  /-- Turns a switch on; it may appear once. -/
  | setTrue
  /-- Counts its appearances. -/
  | count
  /-- Takes one value, shown as `placeholder`; it may appear once. -/
  | set (placeholder : String) (kind : ValueKind)
  /-- Takes a value each time it appears and keeps them all. -/
  | append (placeholder : String) (kind : ValueKind)
  /-- Prints the help of the command. -/
  | help
  deriving DecidableEq, Repr

/-- An option: its key, its one-letter and long spellings, its action and its summary. -/
structure OptionSpec where
  key : OptionKey
  short : Option Char
  long : String
  action : OptionAction
  summary : String
  deriving Repr

namespace OptionSpec

/-- Whether the option takes a value. -/
def takesValue (o : OptionSpec) : Bool :=
  match o.action with
  | .set _ _ | .append _ _ => true
  | _ => false

/-- What follows the option's name where it is shown: its placeholder, or `...` for a count. -/
def suffix (o : OptionSpec) : String :=
  match o.action with
  | .set p _ | .append p _ => " <" ++ p ++ ">"
  | .count => "..."
  | _ => ""

/-- The option as messages name it, such as `--indent <N>`. -/
def display (o : OptionSpec) : String := "--" ++ o.long ++ o.suffix

/-- The option as its help line shows it, such as `-o, --output <FILE>`; options without a
one-letter spelling are indented to line up with those that have one. -/
def spelling (o : OptionSpec) : String :=
  (match o.short with
    | some c => "-" ++ c.toString ++ ", "
    | none => "    ") ++ o.display

end OptionSpec

/-- A command: its name, what it is for, its required input with the input's summary, its
options in the order of the help, the pairs of options that exclude each other, and the
examples after its help. -/
structure CommandSpec where
  name : String
  about : String
  input : Option (String × String)
  options : List OptionSpec
  conflicts : List (OptionKey × OptionKey)
  examples : Option String
  deriving Repr

/-- The name of the program. -/
def programName : String := "cumin"

/-- What the program is for. -/
def programAbout : String := "Generate Cumin code from block workspaces"

/-- The option that prints help. -/
def helpOption : OptionSpec := ⟨.help, some 'h', "help", .help, "Print help"⟩

/-- The workspace file that `generate` and `check` read. -/
def inputArgument : String × String := ("FILE", "Workspace JSON file (use \"-\" for stdin)")

/-- The option that forces positions to count from one. -/
def oneBasedOption : OptionSpec :=
  ⟨.oneBased, none, "one-based", .setTrue,
    "Treat user-facing indices as one-based, overriding the workspace"⟩

/-- The option that forces positions to count from zero. -/
def zeroBasedOption : OptionSpec :=
  ⟨.zeroBased, none, "zero-based", .setTrue,
    "Treat user-facing indices as zero-based, overriding the workspace"⟩

/-- The option that raises the detail of the log. -/
def verboseOption : OptionSpec :=
  ⟨.verbose, some 'v', "verbose", .count,
    "Log generation progress to stderr (-vv for every block)"⟩

/-- The command that writes the code of a workspace. -/
def generateCommand : CommandSpec where
  name := "generate"
  about := "Generate Cumin code for a workspace"
  input := some inputArgument
  options := [
    ⟨.output, some 'o', "output", .set "FILE" .path,
      "Write generated code to FILE instead of stdout"⟩,
    oneBasedOption,
    zeroBasedOption,
    ⟨.indent, none, "indent", .set "N" (.bounded 1 16),
      "Spaces per indentation level [default: 2]"⟩,
    ⟨.statementPrefix, none, "statement-prefix", .set "SNIPPET" .text,
      "Code injected before every statement (%1 is the block id)"⟩,
    ⟨.statementSuffix, none, "statement-suffix", .set "SNIPPET" .text,
      "Code injected after every statement (%1 is the block id)"⟩,
    ⟨.loopTrap, none, "loop-trap", .set "SNIPPET" .text,
      "Code injected at the top of every loop body (%1 is the block id)"⟩,
    ⟨.reserve, none, "reserve", .append "WORD" .text,
      "Identifier generated code must not use (repeatable)"⟩,
    verboseOption,
    helpOption]
  conflicts := [(.oneBased, .zeroBased)]
  examples := some ("EXAMPLES:\n" ++
    "  cumin generate workspace.json                    # print to stdout\n" ++
    "  cumin generate workspace.json -o program.cumin   # write to a file\n" ++
    "  cat workspace.json | cumin generate -            # read stdin\n" ++
    "  cumin generate ws.json --one-based --indent 4\n" ++
    "  cumin generate ws.json --statement-prefix 'highlight(%1);'")

/-- The command that only checks that a workspace generates. -/
def checkCommand : CommandSpec where
  name := "check"
  about := "Check that a workspace generates without errors"
  input := some inputArgument
  options := [oneBasedOption, zeroBasedOption, verboseOption, helpOption]
  conflicts := [(.oneBased, .zeroBased)]
  examples := some ("EXAMPLES:\n" ++
    "  cumin check workspace.json\n" ++
    "  cat workspace.json | cumin check -")

/-- The command that lists the block kinds. -/
def kindsCommand : CommandSpec where
  name := "kinds"
  about := "List supported block kinds"
  input := none
  options := [helpOption]
  conflicts := []
  examples := none

/-- The commands other than `help`, in the order of the help. -/
def commands : List CommandSpec := [generateCommand, checkCommand, kindsCommand]

/-- What `help` is for. -/
def helpAbout : String := "Print this message or the help of the given subcommand(s)"

/-- The option with a key. -/
def CommandSpec.option? (c : CommandSpec) (k : OptionKey) : Option OptionSpec :=
  c.options.find? (·.key == k)

/-- The option with a long spelling. -/
def CommandSpec.long? (c : CommandSpec) (name : String) : Option OptionSpec :=
  c.options.find? (·.long == name)

/-- The option with a one-letter spelling. -/
def CommandSpec.short? (c : CommandSpec) (letter : Char) : Option OptionSpec :=
  c.options.find? (·.short == some letter)

/-- The command with a name. -/
def command? (name : String) : Option CommandSpec :=
  commands.find? (·.name == name)

end BlockScribe.Cli
