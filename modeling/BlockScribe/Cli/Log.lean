import BlockScribe.Generate.Event
import BlockScribe.Text.Unicode.Printable
/-!
# Log records

A command logs records on standard error: a level, a message and named fields, written
`LEVEL message name=value ...` with the level right-aligned in five columns.  A field holds a
text shown as it is or a text shown quoted, in which quotes, backslashes, the controls with a
letter (`\t`, `\r`, `\n`) and the null character are escaped with a backslash, and every other
character that would not be seen on its own (`Text.isEscaped`) as `\u{hex}`.  Each record has a
target, the part of the program it comes from, named by a path such as
`cumin_compiler::generator`; its fields, with the message, are the names a filter may ask for.

Source: `cumin-cli/src/logging.rs` (`init`), and the log records of `generator/mod.rs`,
`definitions.rs` and `commands/*.rs`.
-/

namespace BlockScribe.Cli

/-- The level of a log record, from the most to the least severe. -/
inductive Level where
  | error | warn | info | debug | trace
  deriving DecidableEq, Repr

namespace Level

/-- The rank of a level: 1 for errors up to 5 for traces. -/
def rank : Level → Nat
  | .error => 1
  | .warn => 2
  | .info => 3
  | .debug => 4
  | .trace => 5

/-- The level as a record shows it, in five columns. -/
def label : Level → String
  | .error => "ERROR"
  | .warn => " WARN"
  | .info => " INFO"
  | .debug => "DEBUG"
  | .trace => "TRACE"

end Level

/-- The value of a field: a text shown as it is, or shown quoted. -/
inductive FieldValue where
  | plain (text : String)
  | quoted (text : String)
  deriving DecidableEq, Repr

/-- Lowercase hexadecimal digits of a number, without leading zeros. -/
def lowerHex (n : Nat) : String :=
  String.ofList (Nat.toDigits 16 n)

/-- A character inside a text quoted by `quote`: the quote, backslashes, the controls with a
letter and the null character escaped with a backslash, unseen characters as `\u{hex}`. -/
def escapedChar (quote : Char) (c : Char) : String :=
  if c == quote then "\\" ++ c.toString
  else if c == '\\' then "\\\\"
  else if c == '\n' then "\\n"
  else if c == '\r' then "\\r"
  else if c == '\t' then "\\t"
  else if c.toNat == 0 then "\\0"
  else if Text.isEscaped c then "\\u\x7b" ++ lowerHex c.toNat ++ "\x7d"
  else c.toString

/-- A text in double quotes, with quotes, backslashes and unseen characters escaped. -/
def quoteField (s : String) : String :=
  "\"" ++ String.join (s.toList.map (escapedChar '"')) ++ "\""

/-- A character in single quotes, escaped as in a quoted text. -/
def quoteChar (c : Char) : String := "'" ++ escapedChar '\'' c ++ "'"

/-- The text of a field value. -/
def FieldValue.render : FieldValue → String
  | .plain text => text
  | .quoted text => quoteField text

/-- A log record: its level, its target, its message and its fields. -/
structure Record where
  level : Level
  target : String
  message : String
  fields : List (String × FieldValue)
  deriving Repr

/-- The names of a record's fields, the message among them. -/
def Record.fieldNames (r : Record) : List String := "message" :: r.fields.map (·.1)

/-- The line of a record. -/
def Record.line (r : Record) : String :=
  r.level.label ++ " " ++ r.message ++
    String.join (r.fields.map fun f => " " ++ f.1 ++ "=" ++ f.2.render) ++ "\n"

/-- The target of the generator's records. -/
def generatorTarget : String := "cumin_compiler::generator"

/-- The target of the records about definitions. -/
def definitionsTarget : String := "cumin_compiler::definitions"

/-- The record of a generation event. -/
def eventRecord : Event → Record
  | .started nodes roots oneBased =>
    ⟨.debug, generatorTarget, "generation started",
      [("nodes", .plain (toString nodes)), ("roots", .plain (toString roots)),
        ("one_based", .plain (toString oneBased))]⟩
  | .dispatched id kind =>
    ⟨.trace, generatorTarget, "dispatch", [("id", .plain id), ("kind", .quoted kind.name)]⟩
  | .helperRegistered desired name =>
    ⟨.debug, definitionsTarget, "registered helper",
      [("helper", .quoted desired), ("name", .plain name)]⟩
  | .procedureDefined name replaced =>
    ⟨.debug, definitionsTarget, "defined procedure",
      [("procedure", .quoted name), ("replaced", .plain (toString replaced))]⟩
  | .finished definitions bytes =>
    ⟨.debug, generatorTarget, "generation finished",
      [("definitions", .plain (toString definitions)), ("bytes", .plain (toString bytes))]⟩

end BlockScribe.Cli
