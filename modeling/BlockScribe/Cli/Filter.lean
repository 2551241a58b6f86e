import BlockScribe.Cli.Log
import BlockScribe.Cli.Pattern
import BlockScribe.Text.Blank
import BlockScribe.Text.Unicode.Alphanumeric
/-!
# The filter that selects log records

Which records are written is decided by a filter, a list of directives separated by commas
(empty pieces skipped).  A directive is read character by character from its text with blanks
trimmed at both ends (`Directive.read`):

* a level alone (`debug`, or a number from `0`, off, to `5`, trace), a target alone (every
  level for it), or `target=level`, where an empty level is trace;
* a span in brackets, `[name]`, before the `=`, and fields in braces inside the brackets,
  `[name{a,b=value}]`, each field a name with perhaps a value (a boolean, a number or a
  pattern that compiles, `Pattern.wellFormed`);
* the first character is a letter, a digit, `-`, `:`, `_` or `[`; after a span only `=` may
  come.

Positions found in the trimmed text are used in the text as given, so leading blanks shift
what is cut out of it; a cut that falls inside a character crashes the program with a report
(`Crash.report`), and any other misreading makes the whole filter unreadable.

A directive that names a span or asks for a field value only concerns records inside spans,
which these records never are; the others (`StaticDirective`) decide.  They are kept from the
most specific to the least: the longer target first (no target last), then the more field
names, then the greater target and field names; a directive equal to an earlier one in target
and field names replaces it.  A record is written when the first of them whose target begins
its target and whose field names are all among its fields allows its level.  A filter without
any directive writes errors only.  When the filter text does not read, the filter comes from
the number of `-v` options: warnings, then debug, then trace.

Source: `cumin-cli/src/logging.rs`: `init` and `level`, the filter directives of the log.
-/

namespace BlockScribe.Cli

/-- A text with its ASCII letters in lower case. -/
def asciiLower (s : String) : String := String.map Char.toLower s

/-- The rank a level allows, from its number (with a `+` and leading zeros allowed) or its
name in any case; the empty text is the rank of errors. -/
def levelBound? (s : String) : Option Nat :=
  let digits := match s.toList with
    | '+' :: ds => ds
    | ds => ds
  if !digits.isEmpty && digits.all Char.isDigit then
    let n := digits.foldl (fun n d => 10 * n + (d.toNat - '0'.toNat)) 0
    if n ≤ 5 then some n else none
  else
    match asciiLower s with
    | "" => some 1
    | "error" => some 1
    | "warn" => some 2
    | "info" => some 3
    | "debug" => some 4
    | "trace" => some 5
    | "off" => some 0
    | _ => none

/-- The rank a level written after `=` allows: trace when empty. -/
def levelText? (s : String) : Option Nat :=
  if s.isEmpty then some 5 else levelBound? s

/-- Whether a text reads as a decimal floating-point number: a sign, then `inf`, `infinity` or
`nan` in any case, or digits with at most one point and an exponent. -/
def readsAsFloat (s : String) : Bool :=
  let cs := match s.toList with
    | '+' :: rest => rest
    | '-' :: rest => rest
    | rest => rest
  let word := String.ofList (cs.map Char.toLower)
  if word == "inf" || word == "infinity" || word == "nan" then true
  else
    let whole := cs.takeWhile Char.isDigit
    let afterWhole := cs.drop whole.length
    let (fraction, afterNumber) := match afterWhole with
      | '.' :: more => (more.takeWhile Char.isDigit, more.dropWhile Char.isDigit)
      | _ => ([], afterWhole)
    let exponentReads := match afterNumber with
      | [] => true
      | e :: more =>
        (e == 'e' || e == 'E') &&
          let ds := match more with
            | '+' :: rest => rest
            | '-' :: rest => rest
            | rest => rest
          !ds.isEmpty && ds.all Char.isDigit
    whole.length + fraction.length > 0 && exponentReads

/-- Whether a field value reads: a boolean, a number, or a pattern that compiles. -/
def valueReads (v : String) : Bool :=
  v == "true" || v == "false" || readsAsFloat v || Pattern.wellFormed v

/-- A field a directive asks for: its name, and the value it must have, if any. -/
structure FieldMatch where
  name : String
  value : Option String
  deriving DecidableEq, Repr

/-- A field of a directive, `name` or `name=value` (what follows a second `=` is ignored). -/
def FieldMatch.read? (s : String) : Option FieldMatch :=
  if s.isEmpty then none
  else match s.splitOn "=" with
    | name :: value :: _ => if valueReads value then some ⟨name, some value⟩ else none
    | name :: [] => some ⟨name, none⟩
    | [] => none

/-- A directive: the most verbose rank it allows (0 allows nothing), the target it concerns
(every target if none), the span it concerns and the fields it asks for. -/
structure Directive where
  bound : Nat := 5
  target : Option String := none
  span : Option String := none
  fields : List FieldMatch := []
  deriving DecidableEq, Repr

/-- Where the reading of a directive stands: at its start; in a level or target that began at
a byte; in a span name, a field, or after the fields; after a span, expecting `=`; in a level
that began at a byte; or done. -/
inductive ReadState where
  | start
  | levelOrTarget (begin : Nat)
  | span (begin : Nat)
  | field (begin : Nat)
  | fields
  | target
  | level (begin : Nat)
  | complete
  deriving DecidableEq, Repr

/-- A crash of the program while reading a directive: the line and column of the reader that
stopped, and the message. -/
structure Crash where
  line : Nat
  column : Nat
  message : String
  deriving DecidableEq, Repr

/-- The frames of the stack at a crash in the directive reader, innermost first. -/
def crashFrames : List String := [
  "   0: __rustc::rust_begin_unwind",
  "   1: core::panicking::panic_fmt",
  "   2: core::str::slice_error_fail_rt",
  "   3: core::str::slice_error_fail",
  "   4: <tracing_subscriber::filter::env::directive::Directive>::parse",
  "   5: <core::iter::adapters::map::Map<core::iter::adapters::filter::Filter<core::str::iter::Split<char>, <tracing_subscriber::filter::env::builder::Builder>::parse<alloc::string::String>::\x7bclosure#0\x7d>, <tracing_subscriber::filter::env::builder::Builder>::parse<alloc::string::String>::\x7bclosure#1\x7d> as core::iter::traits::iterator::Iterator>::try_fold::<(), <core::iter::adapters::GenericShunt<core::iter::adapters::map::Map<core::iter::adapters::filter::Filter<core::str::iter::Split<char>, <tracing_subscriber::filter::env::builder::Builder>::parse<alloc::string::String>::\x7bclosure#0\x7d>, <tracing_subscriber::filter::env::builder::Builder>::parse<alloc::string::String>::\x7bclosure#1\x7d>, core::result::Result<core::convert::Infallible, tracing_subscriber::filter::directive::ParseError>> as core::iter::traits::iterator::Iterator>::try_fold<(), core::iter::traits::iterator::Iterator::try_for_each::call<tracing_subscriber::filter::env::directive::Directive, core::ops::control_flow::ControlFlow<tracing_subscriber::filter::env::directive::Directive>, core::ops::control_flow::ControlFlow<tracing_subscriber::filter::env::directive::Directive>::Break>::\x7bclosure#0\x7d, core::ops::control_flow::ControlFlow<tracing_subscriber::filter::env::directive::Directive>>::\x7bclosure#0\x7d, core::ops::control_flow::ControlFlow<core::ops::control_flow::ControlFlow<tracing_subscriber::filter::env::directive::Directive>>>",
  "   6: <alloc::vec::Vec<tracing_subscriber::filter::env::directive::Directive> as alloc::vec::spec_from_iter::SpecFromIter<tracing_subscriber::filter::env::directive::Directive, core::iter::adapters::GenericShunt<core::iter::adapters::map::Map<core::iter::adapters::filter::Filter<core::str::iter::Split<char>, <tracing_subscriber::filter::env::builder::Builder>::parse<alloc::string::String>::\x7bclosure#0\x7d>, <tracing_subscriber::filter::env::builder::Builder>::parse<alloc::string::String>::\x7bclosure#1\x7d>, core::result::Result<core::convert::Infallible, tracing_subscriber::filter::directive::ParseError>>>>::from_iter",
  "   7: core::iter::adapters::try_process::<core::iter::adapters::map::Map<core::iter::adapters::filter::Filter<core::str::iter::Split<char>, <tracing_subscriber::filter::env::builder::Builder>::parse<alloc::string::String>::\x7bclosure#0\x7d>, <tracing_subscriber::filter::env::builder::Builder>::parse<alloc::string::String>::\x7bclosure#1\x7d>, tracing_subscriber::filter::env::directive::Directive, core::result::Result<core::convert::Infallible, tracing_subscriber::filter::directive::ParseError>, <core::result::Result<alloc::vec::Vec<tracing_subscriber::filter::env::directive::Directive>, tracing_subscriber::filter::directive::ParseError> as core::iter::traits::collect::FromIterator<core::result::Result<tracing_subscriber::filter::env::directive::Directive, tracing_subscriber::filter::directive::ParseError>>>::from_iter<core::iter::adapters::map::Map<core::iter::adapters::filter::Filter<core::str::iter::Split<char>, <tracing_subscriber::filter::env::builder::Builder>::parse<alloc::string::String>::\x7bclosure#0\x7d>, <tracing_subscriber::filter::env::builder::Builder>::parse<alloc::string::String>::\x7bclosure#1\x7d>>::\x7bclosure#0\x7d, alloc::vec::Vec<tracing_subscriber::filter::env::directive::Directive>>",
  "   8: <tracing_subscriber::filter::env::builder::Builder>::parse::<alloc::string::String>",
  "   9: <tracing_subscriber::filter::env::EnvFilter>::try_from_default_env",
  "  10: cumin::logging::init",
  "  11: cumin::main"]

/-- What the program prints on standard error when it crashes in the directive reader, its
main thread having the given number. -/
def Crash.report (c : Crash) (thread : Nat) : String :=
  "\nthread 'main' (" ++ toString thread ++ ") panicked at " ++
    "/usr/local/cargo/registry/src/index.crates.io-1949cf8c6b5b557f/tracing-subscriber-0.3.23/" ++
    "src/filter/env/directive.rs:" ++ toString c.line ++ ":" ++ toString c.column ++ ":\n" ++
    c.message ++ "\nstack backtrace:\n" ++ String.join (crashFrames.map (· ++ "\n")) ++
    "note: Some details are omitted, run with `RUST_BACKTRACE=full` for a verbose backtrace.\n"

/-- Why a directive cannot be read: it is malformed, or a cut fell inside a character, which
crashes the program. -/
inductive Stop where
  | malformed
  | crash (c : Crash)
  deriving DecidableEq, Repr

/-- The places in the reader that cut the directive's text, each named by the line and column
a crash report gives. -/
inductive CutSite where
  | targetBeforeLevel | targetBeforeSpan | restAfterComma | spanName | spanBeforeFields
  | fieldClosed | fieldBeforeComma | levelBeforeComma | restAtEnd | levelAtEnd
  deriving DecidableEq, Repr

/-- The line and column of a cut in the reader. -/
def CutSite.position : CutSite → Nat × Nat
  | .targetBeforeLevel => (151, 43)
  | .targetBeforeSpan => (155, 43)
  | .restAfterComma => (159, 54)
  | .spanName => (175, 44)
  | .spanBeforeFields => (179, 46)
  | .fieldClosed => (187, 48)
  | .fieldBeforeComma => (194, 48)
  | .levelBeforeComma => (203, 44)
  | .restAtEnd => (216, 46)
  | .levelAtEnd => (229, 40)

/-- The characters of a text with the byte at which each starts, from byte `first`. -/
def byteOffsets (first : Nat) : List Char → List (Nat × Char)
  | [] => []
  | c :: rest => (first, c) :: byteOffsets (first + c.utf8Size) rest

/-- The crash of a cut at byte `pos` of a text, on its `side` (`start` or `end`), when the
position falls inside a character. -/
def insideChar? (chars : List (Nat × Char)) (site : CutSite) (side : String) (pos : Nat) :
    Option Crash :=
  (chars.find? fun (o, c) => o < pos && pos < o + c.utf8Size).map fun (o, c) =>
    ⟨site.position.1, site.position.2,
      side ++ " byte index " ++ toString pos ++ " is not a char boundary; it is inside " ++
        quoteChar c ++ " (bytes " ++ toString o ++ ".." ++ toString (o + c.utf8Size) ++
        " of string)"⟩

/-- The text between two byte positions of a text given as its characters with their
offsets; a position inside a character crashes the program, the start checked first. -/
def cut (chars : List (Nat × Char)) (site : CutSite) (lo hi : Nat) : Except Stop String :=
  match insideChar? chars site "start" lo, insideChar? chars site "end" hi with
  | some c, _ => .error (.crash c)
  | none, some c => .error (.crash c)
  | none, none => .ok (String.ofList ((chars.filter fun (o, _) => lo ≤ o && o < hi).map (·.2)))

/-- The text from a byte position to the end. -/
def cutFrom (chars : List (Nat × Char)) (site : CutSite) (lo : Nat) : Except Stop String :=
  cut chars site lo (chars.foldl (fun n (_, c) => n + c.utf8Size) 0)

/-- A value that must be present, or a malformed directive. -/
def required {α : Type} : Option α → Except Stop α
  | some a => .ok a
  | none => .error .malformed

/-- A directive whose last part is a level or a target: a level if it reads as one, else a
target allowing every level. -/
def Directive.settle (d : Directive) (s : String) : Directive :=
  if s.isEmpty then { d with bound := 5, target := none }
  else match levelBound? s with
    | some b => { d with bound := b, target := none }
    | none => { d with bound := 5, target := some s }

/-- One step of reading a directive: the character `c` found at byte `i` of the trimmed text,
with `chars` the text as given. -/
def Directive.step (chars : List (Nat × Char)) (d : Directive) (st : ReadState) (i : Nat)
    (c : Char) : Except Stop (Directive × ReadState) :=
  match st with
  | .start =>
    if c == '[' then .ok (d, .span (i + 1))
    else if c == '-' || c == ':' || c == '_' || Text.isAlphanumeric c then
      .ok (d, .levelOrTarget i)
    else .error .malformed
  | .levelOrTarget begin =>
    if c == '=' then
      (cut chars .targetBeforeLevel begin i).map fun t => ({ d with target := some t }, .level (i + 1))
    else if c == '[' then
      (cut chars .targetBeforeSpan begin i).map fun t => ({ d with target := some t }, .span (i + 1))
    else if c == ',' then
      (cutFrom chars .restAfterComma begin).map fun s => (d.settle s, .complete)
    else .ok (d, st)
  | .target => if c == '=' then .ok (d, .level (i + 1)) else .error .malformed
  | .span begin =>
    if c == ']' then
      (cut chars .spanName begin i).map fun s => ({ d with span := some s }, .target)
    else if c == '{' then
      (cut chars .spanBeforeFields begin i).map fun s =>
        ({ d with span := if s.isEmpty then none else some s }, .field (i + 1))
    else .ok (d, st)
  | .field begin =>
    if c == '}' || c == ',' then do
      let text ← cut chars (if c == '}' then .fieldClosed else .fieldBeforeComma) begin i
      let f ← required (FieldMatch.read? text)
      pure ({ d with fields := d.fields ++ [f] }, if c == '}' then .fields else .field (i + 1))
    else .ok (d, st)
  | .fields => if c == ']' then .ok (d, .target) else .error .malformed
  | .level begin =>
    if c == ',' then do
      let text ← cut chars .levelBeforeComma begin i
      let b ← required (levelText? text)
      pure ({ d with bound := b }, .complete)
    else .ok (d, st)
  | .complete => .error .malformed

/-- Reads the characters of a directive from byte `i` of the trimmed text on. -/
def Directive.readChars (chars : List (Nat × Char)) :
    Directive → ReadState → Nat → List Char → Except Stop (Directive × ReadState)
  | d, st, _, [] => .ok (d, st)
  | d, st, i, c :: rest =>
    match d.step chars st i c with
    | .ok (d', st') => Directive.readChars chars d' st' (i + c.utf8Size) rest
    | .error e => .error e

/-- The directive once its characters are read, by where the reading stopped. -/
def Directive.finish (chars : List (Nat × Char)) (d : Directive) :
    ReadState → Except Stop Directive
  | .levelOrTarget begin => (cutFrom chars .restAtEnd begin).map d.settle
  | .level begin => do
    let text ← cutFrom chars .levelAtEnd begin
    let b ← required (levelText? text)
    pure { d with bound := b }
  | .target | .complete => .ok d
  | _ => .error .malformed

/-- Reads a directive: its characters are those of the text trimmed of blanks, and the
positions found among them cut the text as given. -/
def Directive.read (s : String) : Except Stop Directive := do
  let chars := byteOffsets 0 s.toList
  let (d, st) ← Directive.readChars chars {} .start 0 (Text.trim s).toList
  Directive.finish chars d st

/-- Whether a directive concerns spans or field values, and so records inside spans. -/
def Directive.isDynamic (d : Directive) : Bool := d.span.isSome || !d.fields.isEmpty

/-- A directive that concerns records outside spans: the target it concerns, the names of the
fields a record must have, and the most verbose rank it allows. -/
structure StaticDirective where
  target : Option String
  fieldNames : List String
  bound : Nat
  deriving DecidableEq, Repr

/-- The part of a directive that concerns records outside spans, if it names no span and asks
for no field value. -/
def Directive.static? (d : Directive) : Option StaticDirective :=
  if d.span.isNone && d.fields.all (·.value.isNone) then
    some ⟨d.target, d.fields.map (·.name), d.bound⟩
  else none

/-- Compares optional values, `none` first. -/
def compareOption {α : Type} (f : α → α → Ordering) : Option α → Option α → Ordering
  | none, none => .eq
  | none, some _ => .lt
  | some _, none => .gt
  | some a, some b => f a b

/-- Compares lists of names, name by name, a prefix first. -/
def compareNames : List String → List String → Ordering
  | [], [] => .eq
  | [], _ :: _ => .lt
  | _ :: _, [] => .gt
  | a :: as, b :: bs => (compare a b).then (compareNames as bs)

namespace StaticDirective

/-- How specific one directive is against another: by the byte length of the target (none
least), then the number of field names, then the target and the field names themselves. -/
def compareSpecific (a b : StaticDirective) : Ordering :=
  (compareOption compare (a.target.map String.utf8ByteSize) (b.target.map String.utf8ByteSize)).then
    ((compare a.fieldNames.length b.fieldNames.length).then
      ((compareOption compare a.target b.target).then (compareNames a.fieldNames b.fieldNames)))

/-- Adds a directive to a list kept from the most specific to the least, replacing one equal
to it. -/
def insert (d : StaticDirective) : List StaticDirective → List StaticDirective
  | [] => [d]
  | x :: rest =>
    match compareSpecific d x with
    | .eq => d :: rest
    | .gt => d :: x :: rest
    | .lt => x :: insert d rest

/-- Whether a directive concerns a record: its target begins the record's target and the
record has every field it names. -/
def concerns (d : StaticDirective) (r : Record) : Bool :=
  d.target.all (fun t => r.target.startsWith t) &&
    d.fieldNames.all (fun n => r.fieldNames.contains n)

end StaticDirective

/-- A filter: the directives that decide for records outside spans, from the most specific to
the least. -/
structure LogFilter where
  statics : List StaticDirective
  deriving Repr

namespace LogFilter

/-- The filter of a list of directives: the static ones, then the static parts of the others,
each added in order; errors only when there are no directives at all. -/
def ofDirectives (ds : List Directive) : LogFilter :=
  let plain := ds.filter (!·.isDynamic)
  let dynamic := ds.filter (·.isDynamic)
  let statics := (plain.filterMap Directive.static? ++ dynamic.filterMap Directive.static?).foldl
    (fun acc d => StaticDirective.insert d acc) []
  if statics.isEmpty && dynamic.isEmpty then ⟨[⟨none, [], 1⟩]⟩ else ⟨statics⟩

/-- A filter written as directives separated by commas, read in order until one fails. -/
def read (s : String) : Except Stop LogFilter :=
  (((s.splitOn ",").filter (· ≠ "")).mapM Directive.read).map ofDirectives

/-- The filter of a number of `-v` options. -/
def ofVerbosity (n : Nat) : LogFilter :=
  ofDirectives [{ bound := if n == 0 then 2 else if n == 1 then 4 else 5 }]

/-- The filter that a filter text, if given and readable, or else the `-v` count, sets; or
the crash that reading the text causes. -/
def choose (setting : Option String) (verbosity : Nat) : Except Crash LogFilter :=
  match setting with
  | none => .ok (ofVerbosity verbosity)
  | some text =>
    match read text with
    | .ok f => .ok f
    | .error .malformed => .ok (ofVerbosity verbosity)
    | .error (.crash c) => .error c

/-- Whether the filter writes a record: the first directive that concerns it allows its
level. -/
def allows (f : LogFilter) (r : Record) : Bool :=
  match f.statics.find? (·.concerns r) with
  | some d => r.level.rank ≤ d.bound
  | none => false

/-- The lines of the records the filter writes. -/
def render (f : LogFilter) (records : List Record) : String :=
  String.join ((records.filter f.allows).map Record.line)

end LogFilter

end BlockScribe.Cli
