import BlockScribe.Cli.Help
/-!
# Reading the arguments

The arguments are read from left to right.  The first names a command (`generate`, `check`,
`kinds` or `help`) unless it asks for help; the rest belong to the command.

An option is written `--name`, `--name=value`, `--name value`, or with its letter: `-v`, and
letters together (`-vv`, `-vo out.cumin`, `-oout.cumin`, `-o=out.cumin`).  An argument that
starts with `-` is always read as options, so a value that looks like an option is written
after `=`; after `--` every argument is a plain value.  A plain value goes to the option that
awaits one, else it is the command's file.

An option or the file is *settled* when the next option, or the next file, or the end of the
arguments comes: then its value is checked, and it counts as given.  Mistakes found while
reading stop it at once; an unknown option or a second file is reported before the check of a
value still unsettled.  After the last argument the reader reports, in this order: an option
left without a value, two options that exclude each other (the first given named first), and a
missing file.  The help option answers at once, with the help of its command.

Source: `cumin-cli/src/cli/args.rs` and `cli/commands.rs`: the options and commands as the argument
parser reads them.
-/

namespace BlockScribe.Cli

/-- Why a command line is refused. -/
inductive UsageError where
  | unexpectedArgument (arg : String)
  | unrecognizedSubcommand (name : String)
  | missingInput (placeholder : String)
  | conflict (first second : String)
  | repeated (option : String)
  | emptyValue (option : String)
  | invalidValue (value option reason : String)
  | unexpectedValue (value option : String)
  deriving DecidableEq, Repr

/-- The message of a refusal. -/
def UsageError.message : UsageError → String
  | .unexpectedArgument a => "unexpected argument '" ++ a ++ "' found"
  | .unrecognizedSubcommand n => "unrecognized subcommand '" ++ n ++ "'"
  | .missingInput p => "the following required arguments were not provided:\n  " ++ p
  | .conflict a b => "the argument '" ++ a ++ "' cannot be used with '" ++ b ++ "'"
  | .repeated a => "the argument '" ++ a ++ "' cannot be used multiple times"
  | .emptyValue a => "a value is required for '" ++ a ++ "' but none was supplied"
  | .invalidValue v a r => "invalid value '" ++ v ++ "' for '" ++ a ++ "': " ++ r
  | .unexpectedValue v a =>
    "unexpected value '" ++ v ++ "' for '" ++ a ++ "' found; no more were expected"

/-- Why a text is not a signed 64-bit integer. -/
inductive IntegerError where
  | empty | invalidDigit | tooLarge | tooSmall
  deriving DecidableEq, Repr

/-- The message of an integer error. -/
def IntegerError.message : IntegerError → String
  | .empty => "cannot parse integer from empty string"
  | .invalidDigit => "invalid digit found in string"
  | .tooLarge => "number too large to fit in target type"
  | .tooSmall => "number too small to fit in target type"

/-- Reads decimal digits onto a magnitude, failing at the first character that is not a
digit or at the first digit that takes the magnitude past `limit`. -/
def readMagnitude (limit : Nat) (overflow : IntegerError) :
    Nat → List Char → Except IntegerError Nat
  | n, [] => .ok n
  | n, c :: rest =>
    if c.isDigit then
      let n := 10 * n + (c.toNat - '0'.toNat)
      if n > limit then .error overflow else readMagnitude limit overflow n rest
    else .error .invalidDigit

/-- A signed 64-bit integer written in decimal, with an optional sign. -/
def readInteger (s : String) : Except IntegerError Int :=
  match s.toList with
  | [] => .error .empty
  | ['+'] | ['-'] => .error .invalidDigit
  | '-' :: digits => (readMagnitude (Nat.pow 2 63) .tooSmall 0 digits).map fun n => -(n : Int)
  | '+' :: digits => (readMagnitude (Nat.pow 2 63 - 1) .tooLarge 0 digits).map Int.ofNat
  | digits => (readMagnitude (Nat.pow 2 63 - 1) .tooLarge 0 digits).map Int.ofNat

/-- Checks a value of an option shown as `shown`. -/
def ValueKind.check (k : ValueKind) (shown value : String) : Except UsageError Unit :=
  match k with
  | .path => if value.isEmpty then .error (.emptyValue shown) else .ok ()
  | .text => .ok ()
  | .bounded lo hi =>
    match readInteger value with
    | .error e => .error (.invalidValue value shown e.message)
    | .ok n =>
      if lo ≤ n ∧ n ≤ hi then .ok ()
      else .error (.invalidValue value shown
        (toString n ++ " is not in " ++ toString lo ++ "..=" ++ toString hi))

/-- What a command line gave: each option as it appeared, with its value (empty for an option
without one), and the file. -/
structure Matches where
  given : List (OptionKey × String) := []
  input : Option String := none
  deriving Repr, Inhabited

namespace Matches

/-- Whether an option appeared. -/
def has (m : Matches) (k : OptionKey) : Bool := m.given.any (·.1 == k)

/-- How often an option appeared, at most 255. -/
def count (m : Matches) (k : OptionKey) : Nat := min 255 (m.given.filter (·.1 == k)).length

/-- The values of an option, in order. -/
def values (m : Matches) (k : OptionKey) : List String :=
  (m.given.filter (·.1 == k)).map (·.2)

/-- The last value of an option. -/
def value? (m : Matches) (k : OptionKey) : Option String := (m.values k).getLast?

/-- The options given, each once, in the order they first appeared. -/
def keys (m : Matches) : List OptionKey :=
  m.given.foldl (fun ks g => if ks.contains g.1 then ks else ks ++ [g.1]) []

end Matches

/-- What waits to be settled: an option with the values it has so far, or the file. -/
inductive Pending where
  | option (o : OptionSpec) (values : List String)
  | input (value : String)
  deriving Repr

/-- The state of reading a command's arguments. -/
structure Reading where
  seen : Matches := {}
  pending : Option Pending := none
  escaped : Bool := false
  inputSeen : Bool := false
  deriving Repr, Inhabited

/-- Where reading goes after an argument: on, or to the help of the command. -/
inductive Progress where
  | next (r : Reading)
  | help
  deriving Repr

/-- Counts an option as given with its values; `none` when it asks for help. -/
def Matches.apply (m : Matches) (o : OptionSpec) (values : List String) :
    Except UsageError (Option Matches) :=
  if o.takesValue && values.isEmpty then .error (.emptyValue o.display)
  else
    let add (v : String) : Matches := { m with given := m.given ++ [(o.key, v)] }
    match o.action with
    | .help => .ok none
    | .count => .ok (some (add ""))
    | .setTrue => if m.has o.key then .error (.repeated o.display) else .ok (some (add ""))
    | .set _ kind =>
      if m.has o.key then .error (.repeated o.display)
      else
        let v := values.headD ""
        (kind.check o.display v).map fun _ => some (add v)
    | .append _ kind =>
      let v := values.headD ""
      (kind.check o.display v).map fun _ => some (add v)

namespace Reading

/-- Settles what is pending. -/
def settle (c : CommandSpec) (r : Reading) : Except UsageError Reading :=
  match r.pending with
  | none => .ok r
  | some (.option o values) =>
    match r.seen.apply o values with
    | .error e => .error e
    | .ok m => .ok { r with seen := m.getD r.seen, pending := none }
  | some (.input value) =>
    let shown := match c.input with
      | some (placeholder, _) => "<" ++ placeholder ++ ">"
      | none => ""
    if value.isEmpty then .error (.emptyValue shown)
    else .ok { r with seen := { r.seen with input := some value }, pending := none }

/-- Settles what is pending, then counts an option as given. -/
def react (c : CommandSpec) (r : Reading) (o : OptionSpec) (values : List String) :
    Except UsageError Progress := do
  let r ← r.settle c
  match ← r.seen.apply o values with
  | none => pure .help
  | some m => pure (.next { r with seen := m })

/-- An option that awaits a value. -/
def awaits (r : Reading) : Option OptionSpec :=
  match r.pending with
  | some (.option o []) => some o
  | _ => none

/-- Reads the letters of an argument such as `-vo`. -/
def letters (c : CommandSpec) (r : Reading) : List Char → Except UsageError Progress
  | [] => .ok (.next r)
  | ch :: more =>
    match c.short? ch with
    | none => .error (.unexpectedArgument ("-" ++ ch.toString))
    | some o =>
      if o.takesValue then
        if more.isEmpty then
          (r.settle c).map fun r => .next { r with pending := some (.option o []) }
        else
          let value := if more.head? == some '=' then more.tail else more
          r.react c o [String.ofList value]
      else
        match r.react c o [] with
        | .ok (.next r) => letters c r more
        | other => other

/-- Reads an argument written `--name` or `--name=value`. -/
def long (c : CommandSpec) (r : Reading) (body : String) : Except UsageError Progress :=
  let name := (body.splitOn "=").headD ""
  let attached := if body.contains '=' then some (body.drop (name.length + 1)).copy else none
  match c.long? name with
  | none => .error (.unexpectedArgument ("--" ++ name))
  | some o =>
    if o.takesValue then
      match attached with
      | some v => r.react c o [v]
      | none => (r.settle c).map fun r => .next { r with pending := some (.option o []) }
    else
      match attached with
      | some v => .error (.unexpectedValue v o.display)
      | none => r.react c o []

/-- Reads a plain value: the value an option awaits, or else the file. -/
def plain (c : CommandSpec) (r : Reading) (value : String) : Except UsageError Progress :=
  match r.awaits, r.escaped with
  | some o, false => .ok (.next { r with pending := some (.option o [value]) })
  | _, _ =>
    if c.input.isSome && !r.inputSeen then
      (r.settle c).map fun r => .next { r with pending := some (.input value), inputSeen := true }
    else .error (.unexpectedArgument value)

/-- Reads one argument. -/
def argument (c : CommandSpec) (r : Reading) (arg : String) : Except UsageError Progress :=
  if r.escaped then r.plain c arg
  else if arg == "--" then .ok (.next { r with escaped := true })
  else if arg.startsWith "--" then r.long c (arg.drop 2).copy
  else if arg.startsWith "-" && arg != "-" then r.letters c (arg.drop 1).copy.toList
  else r.plain c arg

/-- The checks after the last argument: what is pending is settled, then no two options that
exclude each other are given, then the file is given. -/
def finish (c : CommandSpec) (r : Reading) : Except UsageError Matches := do
  let r ← r.settle c
  let m := r.seen
  let clash := m.keys.findSome? fun k =>
    (c.conflicts.findSome? fun (a, b) =>
      if a == k && m.has b then some b else if b == k && m.has a then some a else none).map
      fun other => (k, other)
  match clash with
  | some (k, other) =>
    let shown (key : OptionKey) := ((c.option? key).map (·.display)).getD ""
    throw (.conflict (shown k) (shown other))
  | none =>
    match c.input, m.input with
    | some (placeholder, _), none => throw (.missingInput ("<" ++ placeholder ++ ">"))
    | _, _ => pure m

/-- Reads a command's arguments: what they give, or `none` when they ask for help. -/
def run (c : CommandSpec) : Reading → List String → Except UsageError (Option Matches)
  | r, [] => (r.finish c).map some
  | r, arg :: rest =>
    match r.argument c arg with
    | .error e => .error e
    | .ok .help => .ok none
    | .ok (.next r) => run c r rest

end Reading

/-- What a generation is asked to do: the file to read (`-` for standard input), where to
write, the index convention, the indentation width, the snippets, the extra reserved words and
the detail of the log. -/
structure Invocation where
  input : String
  output : Option String := none
  oneBased : Option Bool := none
  indent : Option Nat := none
  statementPrefix : Option String := none
  statementSuffix : Option String := none
  loopTrap : Option String := none
  reserved : List String := []
  verbosity : Nat := 0
  deriving Repr, Inhabited

/-- The invocation that read arguments give. -/
def Invocation.ofMatches (m : Matches) : Invocation where
  input := m.input.getD "-"
  output := m.value? .output
  oneBased := if m.has .oneBased then some true else if m.has .zeroBased then some false else none
  indent := (m.value? .indent).bind fun v =>
    match readInteger v with
    | .ok n => some n.toNat
    | .error _ => none
  statementPrefix := m.value? .statementPrefix
  statementSuffix := m.value? .statementSuffix
  loopTrap := m.value? .loopTrap
  reserved := m.values .reserve
  verbosity := m.count .verbose

/-- What a command line asks for. -/
inductive Request where
  /-- A help text, printed on standard output. -/
  | help (text : String)
  /-- Nothing at all: the program's help, printed as an error. -/
  | bare
  /-- A refused command line, with the usage of the command it concerned. -/
  | refuse (e : UsageError) (usage : String)
  | generate (i : Invocation)
  | check (i : Invocation)
  | kinds
  deriving Repr

/-- What `help` prints for the words after it: each word names a command of the one before. -/
def helpRequest : Option CommandSpec → Bool → List String → Request
  | none, false, [] => .help programHelp
  | some c, _, [] => .help c.help
  | none, true, [] => .help helpHelp
  | none, false, word :: rest =>
    match command? word with
    | some c => helpRequest (some c) false rest
    | none =>
      if word == "help" then helpRequest none true rest
      else .refuse (.unrecognizedSubcommand word) programUsage
  | some c, _, word :: _ => .refuse (.unrecognizedSubcommand word) c.usage
  | none, true, word :: _ => .refuse (.unrecognizedSubcommand word) helpUsage

/-- What a command's arguments ask for. -/
def commandRequest (c : CommandSpec) (args : List String) : Request :=
  match Reading.run c {} args with
  | .error e => .refuse e c.usage
  | .ok none => .help c.help
  | .ok (some m) =>
    if c.name == "generate" then .generate (Invocation.ofMatches m)
    else if c.name == "check" then .check (Invocation.ofMatches m)
    else .kinds

/-- What a command line asks for, read up to the command. -/
def Request.read (escaped : Bool) : List String → Request
  | [] => .bare
  | arg :: rest =>
    if escaped then
      if (command? arg).isSome || arg == "help" then .refuse (.unexpectedArgument arg) programUsage
      else .refuse (.unrecognizedSubcommand arg) programUsage
    else if arg == "--" then Request.read true rest
    else if arg == "help" then helpRequest none false rest
    else match command? arg with
      | some c => commandRequest c rest
      | none =>
        if arg.startsWith "--" then
          let body := (arg.drop 2).copy
          let name := (body.splitOn "=").headD ""
          if name == "help" then
            if body.contains '=' then
              .refuse (.unexpectedValue (body.drop 5).copy helpOption.display) programUsage
            else .help programHelp
          else .refuse (.unexpectedArgument ("--" ++ name)) programUsage
        else if arg.startsWith "-" && arg != "-" then
          match (arg.drop 1).copy.toList with
          | 'h' :: _ => .help programHelp
          | ch :: _ => .refuse (.unexpectedArgument ("-" ++ ch.toString)) programUsage
          | [] => .refuse (.unrecognizedSubcommand arg) programUsage
        else .refuse (.unrecognizedSubcommand arg) programUsage

/-- What a command line asks for. -/
def Request.ofArgs (args : List String) : Request := Request.read false args

end BlockScribe.Cli
