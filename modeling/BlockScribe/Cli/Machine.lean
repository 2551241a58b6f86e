/-!
# The machine a command runs on

A command reads its workspace from a file or from standard input, may write its code to a
file, and prints on standard output and standard error as it goes.  `Host` names these
effects, so that the command is one definition over any monad that provides them: the program
runs it in `IO`, and `Machine` is a pure model on which it can be run and reasoned about.

A `Machine` is a working directory of text files, the text of standard input, what was
printed on standard output and standard error, and the number of the program's main thread.  Paths are
relative to the directory and resolved component by component, as the operating system does:
`.` stays, `..` goes up, every component before the last must be a directory, a component
longer than 255 bytes is refused when it is looked up, and a final `/` asks for a directory.  A
directory exists when it is the working directory itself or holds a file.

Around the working directory lies the system, of which the machine knows little.  The
directories above the working directory exist and hold nothing the machine knows of.  A path
that starts with `/` is resolved from the root of the system, which every machine has in the
same shape (`systemEntry`): the usual top-level directories, a few files in `/etc`, and the
devices in `/dev`: `null` reads as empty and takes any text, `full` refuses every text for want
of space, `stdin` reads standard input, and `stdout` and `stderr` print what is written to
them; `..` at the root stays there.  A new file written outside the working directory is not
kept by the machine.  Failures carry the system's error number (`IoError`), whose text is the
system's.

Source: `cumin-cli/src/commands/workspace_loader.rs` (`load_workspace`, `read_stdin`) and
`commands/generate.rs` (`run`, the output file).
-/

namespace BlockScribe

/-- A failed file operation, by its system error number. -/
structure IoError where
  code : Nat
  deriving DecidableEq, Repr

namespace IoError

/-- No file or directory has the name. -/
def notFound : IoError := ⟨2⟩

/-- A component that must be a directory is a file. -/
def notDirectory : IoError := ⟨20⟩

/-- The name is a directory where a file is needed. -/
def isDirectory : IoError := ⟨21⟩

/-- A component of the path, or the whole path, is too long. -/
def nameTooLong : IoError := ⟨36⟩

/-- The device has no room for what is written. -/
def noSpace : IoError := ⟨28⟩

/-- The system's description of an error number. -/
def describe : Nat → String
  | 1 => "Operation not permitted"
  | 2 => "No such file or directory"
  | 5 => "Input/output error"
  | 13 => "Permission denied"
  | 17 => "File exists"
  | 20 => "Not a directory"
  | 21 => "Is a directory"
  | 22 => "Invalid argument"
  | 28 => "No space left on device"
  | 30 => "Read-only file system"
  | 36 => "File name too long"
  | 40 => "Too many levels of symbolic links"
  | n => "Unknown error " ++ toString n

/-- The text of an error: its description and its number. -/
def message (e : IoError) : String :=
  describe e.code ++ " (os error " ++ toString e.code ++ ")"

end IoError

/-- The two texts a program prints: standard output and standard error. -/
inductive Channel where
  | out | err
  deriving DecidableEq, Repr

/-- The effects of a command: reading and writing whole text files, reading standard input to
its end, printing, and the number of the program's main thread (which a crash report shows). -/
class Host (m : Type → Type) where
  readFile : String → m (Except IoError String)
  writeFile : String → String → m (Except IoError Unit)
  readInput : m String
  print : Channel → String → m Unit
  threadId : m Nat

/-- A working directory of text files, by path; the text of standard input; what was printed
on standard output and standard error; and the number of the main thread. -/
structure Machine where
  files : List (String × String)
  input : String := ""
  out : String := ""
  err : String := ""
  thread : Nat := 138
  deriving Repr, Inhabited

namespace Machine

/-- The components of a stored path. -/
def components (path : String) : List String :=
  (path.splitOn "/").filter (· ≠ "")

/-- A stored path: its components joined by `/`. -/
def key (parts : List String) : String := "/".intercalate parts

/-- A machine with files at the given paths, and a standard input. -/
def ofFiles (files : List (String × String)) (input : String) : Machine :=
  { files := files.map fun file => (key (components file.1), file.2), input := input }

/-- Whether a path, as components, names a file. -/
def isFile (m : Machine) (parts : List String) : Bool :=
  m.files.any fun (p, _) => components p == parts

/-- Whether a path, as components, names a directory: the working directory, or one that
holds a file. -/
def isDirectory (m : Machine) (parts : List String) : Bool :=
  parts.isEmpty || m.files.any fun (p, _) =>
    let cs := components p
    cs.length > parts.length && cs.take parts.length == parts

/-- The devices of the system that a command may meet. -/
inductive Device where
  /-- Reads as empty and takes any text. -/
  | null
  /-- Takes no text: it is always full. -/
  | full
  /-- Standard input. -/
  | input
  /-- Standard output or standard error. -/
  | channel (c : Channel)
  deriving DecidableEq, Repr

/-- What a path names: a directory, a file (with its text outside the working directory), a
device, or nothing. -/
inductive Entry where
  | directory
  | file (text : Option String)
  | device (d : Device)
  | absent
  deriving DecidableEq, Repr

/-- What a path, as components, names in the working directory. -/
def entry (m : Machine) (parts : List String) : Entry :=
  if m.isDirectory parts then .directory
  else match m.files.find? (fun (p, _) => components p == parts) with
    | some (_, text) => .file (some text)
    | none => .absent

/-- The directories of the system outside the working directory. -/
def systemDirectories : List (List String) :=
  [[]] ++ (["bin", "boot", "dev", "etc", "home", "lib", "media", "mnt", "opt", "proc", "root",
    "run", "sbin", "srv", "sys", "tmp", "usr", "var"].map fun d => [d])

/-- The files of the system that every machine has, with their texts. -/
def systemFiles : List (List String × String) :=
  [(["etc", "hostname"], "localhost\n"),
   (["etc", "hosts"], "127.0.0.1\tlocalhost\n"),
   (["etc", "passwd"], "root:x:0:0:root:/root:/bin/sh\n")]

/-- The devices of the system, by name in `/dev`. -/
def devices : List (String × Device) :=
  [("null", .null), ("full", .full), ("stdin", .input), ("stdout", .channel .out),
   ("stderr", .channel .err)]

/-- What a path, as components from the root, names in the system. -/
def systemEntry (parts : List String) : Entry :=
  if systemDirectories.contains parts then .directory
  else match parts with
    | ["dev", name] =>
      match devices.find? (·.1 == name) with
      | some (_, d) => .device d
      | none => .absent
    | _ =>
      match systemFiles.find? (·.1 == parts) with
      | some (_, text) => .file (some text)
      | none => .absent

/-- The longest name a component may have, in bytes. -/
def nameLimit : Nat := 255

/-- Where a path leads: into the working directory, into the system from its root, or into a
directory `up` levels above the working directory; then down through named components. -/
inductive Region where
  | work
  | system
  | above (up : Nat)
  deriving DecidableEq, Repr

/-- A place a path leads to: a region and the components below its start. -/
structure Place where
  region : Region
  parts : List String
  deriving DecidableEq, Repr

namespace Place

/-- The place one `..` leads to: the parent, the root for the root, and one more level up for
the working directory or a directory above it. -/
def parent : Place → Place
  | ⟨.work, []⟩ => ⟨.above 1, []⟩
  | ⟨.system, []⟩ => ⟨.system, []⟩
  | ⟨.above n, []⟩ => ⟨.above (n + 1), []⟩
  | ⟨r, parts⟩ => ⟨r, parts.dropLast⟩

/-- The place a named component leads to. -/
def child (p : Place) (name : String) : Place := ⟨p.region, p.parts ++ [name]⟩

end Place

/-- What a place names: the machine's directory and files inside the working directory, the
system's directories, files and devices from the root, and above the working directory only
the directories passed through. -/
def placeEntry (m : Machine) : Place → Entry
  | ⟨.work, parts⟩ => m.entry parts
  | ⟨.system, parts⟩ => systemEntry parts
  | ⟨.above _, []⟩ => .directory
  | ⟨.above _, _ :: _⟩ => .absent

/-- Walks the components of a path from a place: every component but the last must lead to a
directory.  Gives the directory reached and the last component (`none` when the path ends in
a directory step such as `.` or `..`). -/
def walk (m : Machine) : Place → List String → Except IoError (Place × Option String)
  | here, [] => .ok (here, none)
  | here, [last] =>
    if last == "." then .ok (here, none)
    else if last == ".." then .ok (here.parent, none)
    else .ok (here, some last)
  | here, part :: rest =>
    if part == "." then walk m here rest
    else if part == ".." then walk m here.parent rest
    else if part.utf8ByteSize > nameLimit then .error IoError.nameTooLong
    else
      let next := here.child part
      match m.placeEntry next with
      | .directory => walk m next rest
      | .absent => .error IoError.notFound
      | _ => .error IoError.notDirectory

/-- Where a path leads: its target and whether it must be a directory (a final `/`), or the
error met on the way.  The empty path names nothing, and a path of 4096 bytes or more is too
long. -/
def resolve (m : Machine) (path : String) : Except IoError (Place × Bool) :=
  if path.isEmpty then .error IoError.notFound
  else if path.utf8ByteSize ≥ 4096 then .error IoError.nameTooLong
  else
    let start : Place := ⟨if path.startsWith "/" then .system else .work, []⟩
    match m.walk start ((path.splitOn "/").filter (· ≠ "")) with
    | .error e => .error e
    | .ok (dir, none) => .ok (dir, true)
    | .ok (dir, some last) =>
      if last.utf8ByteSize > nameLimit then .error IoError.nameTooLong
      else .ok (dir.child last, path.endsWith "/")

/-- The text of a file: a file's text, or what a device gives (standard input for `stdin`,
nothing for the others). -/
def read (m : Machine) (path : String) : Except IoError String :=
  match m.resolve path with
  | .error e => .error e
  | .ok (target, asDirectory) =>
    match m.placeEntry target with
    | .directory => .error IoError.isDirectory
    | .absent => .error IoError.notFound
    | .file text =>
      if asDirectory then .error IoError.notDirectory else .ok (text.getD "")
    | .device d =>
      if asDirectory then .error IoError.notDirectory
      else .ok (if d == .input then m.input else "")

/-- A stored file with its text replaced if it is the target. -/
def replaceAt (target : List String) (text : String) (file : String × String) : String × String :=
  if components file.1 == target then (file.1, text) else file

/-- The machine after printing a text on a channel. -/
def emit (m : Machine) : Channel → String → Machine
  | .out, text => { m with out := m.out ++ text }
  | .err, text => { m with err := m.err ++ text }

/-- Replaces a file's text, or creates the file in an existing directory; what is written
outside the working directory is not kept, and a device takes the text as it does. -/
def write (m : Machine) (path text : String) : Except IoError Machine :=
  match m.resolve path with
  | .error e => .error e
  | .ok (target, asDirectory) =>
    match m.placeEntry target with
    | .directory => .error IoError.isDirectory
    | .device d =>
      if asDirectory then .error IoError.notDirectory
      else match d with
        | .full => .error IoError.noSpace
        | .channel c => .ok (m.emit c text)
        | _ => .ok m
    | .file _ =>
      if asDirectory then .error IoError.notDirectory
      else if target.region != .work then .ok m
      else .ok { m with files := m.files.map (replaceAt target.parts text) }
    | .absent =>
      if asDirectory then .error IoError.isDirectory
      else if target.region != .work then .ok m
      else .ok { m with files := m.files ++ [(key target.parts, text)] }

instance : Host (StateM Machine) where
  readFile path := do pure ((← get).read path)
  writeFile path text := do
    match (← get).write path text with
    | .ok m => do set m; pure (.ok ())
    | .error e => pure (.error e)
  readInput := do pure (← get).input
  print c text := modify fun m => m.emit c text
  threadId := do pure (← get).thread

end Machine

end BlockScribe
