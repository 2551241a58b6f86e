import BlockScribe.Cli.Command
/-!
# Help texts

A help text says what a command is for, how it is called, and then lists, in sections, its
subcommands, its input and its options, each row's summary lined up two columns after the
longest name of its section; the examples, if any, close it.  The usage line shows
`[OPTIONS]` when the command has options other than help.

Source: `cumin-cli/src/cli/commands.rs`: the help layout of the commands and their `EXAMPLES:`.
-/

namespace BlockScribe.Cli

/-- A text followed by spaces up to a width. -/
def padRight (s : String) (width : Nat) : String :=
  s.pushn ' ' (width - s.length)

/-- A section of a help text: its heading and its rows of a name and a summary. -/
def helpSection (heading : String) (rows : List (String × String)) : String :=
  let width := rows.foldl (fun w row => max w row.1.length) 0
  heading ++ ":\n" ++
    "\n".intercalate (rows.map fun row => "  " ++ padRight row.1 width ++ "  " ++ row.2)

/-- A help text from what the command is for, its usage, its sections and its examples. -/
def helpText (about usage : String) (sections : List String) (examples : Option String) :
    String :=
  about ++ "\n\nUsage: " ++ usage ++ "\n\n" ++ "\n\n".intercalate sections ++
    (match examples with
      | some text => "\n\n" ++ text
      | none => "") ++ "\n"

namespace CommandSpec

/-- How the command is called. -/
def usage (c : CommandSpec) : String :=
  programName ++ " " ++ c.name ++
    (if c.options.any (·.key != .help) then " [OPTIONS]" else "") ++
    (match c.input with
      | some (placeholder, _) => " <" ++ placeholder ++ ">"
      | none => "")

/-- The help text of the command. -/
def help (c : CommandSpec) : String :=
  let inputs := match c.input with
    | some (placeholder, summary) =>
      [helpSection "Arguments" [("<" ++ placeholder ++ ">", summary)]]
    | none => []
  let options := helpSection "Options" (c.options.map fun o => (o.spelling, o.summary))
  helpText c.about c.usage (inputs ++ [options]) c.examples

end CommandSpec

/-- How the program is called. -/
def programUsage : String := programName ++ " <COMMAND>"

/-- The help text of the program. -/
def programHelp : String :=
  let rows := commands.map (fun c => (c.name, c.about)) ++ [("help", helpAbout)]
  helpText programAbout programUsage
    [helpSection "Commands" rows, helpSection "Options" [(helpOption.spelling, helpOption.summary)]]
    none

/-- How `help` is called. -/
def helpUsage : String := programName ++ " help [COMMAND]..."

/-- The help text of `help`. -/
def helpHelp : String :=
  helpText helpAbout helpUsage
    [helpSection "Arguments" [("[COMMAND]...", "Print help for the subcommand(s)")]] none

end BlockScribe.Cli
