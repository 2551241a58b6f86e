/-!
# Generation options

The options of a generation: the unit of indentation (two spaces unless set), the snippets of
instrumentation (a statement prefix, a statement suffix, a loop trap; each either unset or a
text, the empty text counting as set), whether list and text positions count from one (unset:
as the workspace says), and extra reserved words.

Source: `cumin-compiler/src/config.rs`: `Config`.
-/

namespace BlockScribe

/-- The options of a generation. -/
structure Config where
  indent : String := "  "
  statementPrefix : Option String := none
  statementSuffix : Option String := none
  loopTrap : Option String := none
  oneBasedIndex : Option Bool := none
  reservedWords : List String := []
  deriving Repr, Inhabited

end BlockScribe
