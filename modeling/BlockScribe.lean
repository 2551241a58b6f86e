import BlockScribe.Text.Blank
import BlockScribe.Text.Case
import BlockScribe.Text.Lines
import BlockScribe.Text.Literal
import BlockScribe.Text.Identifier
import BlockScribe.Expr.Precedence
import BlockScribe.Number.Binary64
import BlockScribe.Number.Shortest
import BlockScribe.Number.Notation
import BlockScribe.Number.Numeral
import BlockScribe.Number.Literal
import BlockScribe.Naming.Table
import BlockScribe.Text.Replace
import BlockScribe.Naming.Registry
import BlockScribe.Block.Kind
import BlockScribe.Json.Value
import BlockScribe.Json.Reader
import BlockScribe.Json.Number
import BlockScribe.Workspace.Slots
import BlockScribe.Workspace.Block
import BlockScribe.Workspace.Basic
import BlockScribe.Workspace.Traversal
import BlockScribe.Workspace.Tree
import BlockScribe.Workspace.Load
import BlockScribe.Generate.Config
import BlockScribe.Generate.Error
import BlockScribe.Generate.Event
import BlockScribe.Generate.Layout
import BlockScribe.Generate.Monad
import BlockScribe.Generate.Rule
import BlockScribe.Generate.Rules.Logic
import BlockScribe.Generate.Rules.Loops
import BlockScribe.Generate.Rules.Colour
import BlockScribe.Generate.Rules.Procedures
import BlockScribe.Generate.Rules.Text
import BlockScribe.Generate.Dispatch
import BlockScribe.Generate.Traverse
import BlockScribe.Cli.Machine
import BlockScribe.Cli.Command
import BlockScribe.Cli.Help
import BlockScribe.Cli.Arguments
import BlockScribe.Cli.Log
import BlockScribe.Cli.Run
import BlockScribe.Main
import BlockScribe.Text.Unicode.Lowercase
import BlockScribe.Text.Unicode.Cased
import BlockScribe.Text.Unicode.Printable
import BlockScribe.Text.Unicode.Alphanumeric
import BlockScribe.Cli.Pattern
import BlockScribe.Cli.Filter
import BlockScribe.Proofs.Naming.Fresh
import BlockScribe.Proofs.Naming.Calls
import BlockScribe.Proofs.Generate.Exec
import BlockScribe.Proofs.Generate.Lockstep
import BlockScribe.Proofs.Generate.Rules
import BlockScribe.Proofs.Generate.Reached
import BlockScribe.Proofs.Generate.Fuel
import BlockScribe.Proofs.Generate.Moves
import BlockScribe.Proofs.Generate.Dispatched
import BlockScribe.Proofs.Workspace.Links
import BlockScribe.Proofs.Generate.Revisit
import BlockScribe.Proofs.Generate.Termination
import BlockScribe.Proofs.Generate.Confined
import BlockScribe.Proofs.Generate.Forest
import BlockScribe.Proofs.Workspace.Lowering
import BlockScribe.Proofs.Generate.Names
import BlockScribe.Proofs.Workspace.Flattening
import BlockScribe.Proofs.Workspace.Decode
import BlockScribe.Proofs.Workspace.ReadBack
import BlockScribe.Proofs.Number.SafeIntegers
import BlockScribe.Proofs.Generate.IndexConvention
import BlockScribe.Proofs.Workspace.Reachable
import BlockScribe.Proofs.Generate.Variables
import BlockScribe.Proofs.Naming.Registry
import BlockScribe.Proofs.Text.Reindent
import BlockScribe.Proofs.Text.Tidy
import BlockScribe.Proofs.Text.Inline
import BlockScribe.Proofs.Generate.Indentation
import BlockScribe.Proofs.Generate.IndentRules
import BlockScribe.Proofs.Generate.IndentUnit
import BlockScribe.Proofs.Workspace.Preorder
import BlockScribe.Proofs.Workspace.Build
import BlockScribe.Proofs.Generate.Substring
import BlockScribe.Proofs.Generate.IndexOperand
import BlockScribe.Proofs.Text.Tokens
import BlockScribe.Proofs.Text.Denotation
import BlockScribe.Proofs.Generate.Instrumentation
import BlockScribe.Proofs.Text.NormalForm
import BlockScribe.Proofs.Text.Identifier
import BlockScribe.Proofs.Text.LinePrefix
import BlockScribe.Proofs.Generate.Outputs
import BlockScribe.Proofs.Generate.InlineKeys
import BlockScribe.Proofs.Generate.KindTable
import BlockScribe.Proofs.Number.PlainDecimals
import BlockScribe.Proofs.Text.StringLiterals
import BlockScribe.Proofs.Script.Lexer
import BlockScribe.Proofs.Script.Grammar
import BlockScribe.Proofs.Script.Form
import BlockScribe.Proofs.Script.Recognition
import BlockScribe.Proofs.Script.Written
import BlockScribe.Proofs.Generate.Invariants
import BlockScribe.Proofs.Generate.References
import BlockScribe.Proofs.Generate.Trees
import BlockScribe.Proofs.Generate.Operands
import BlockScribe.Proofs.Generate.Positions
import BlockScribe.Proofs.Generate.RulePrints
import BlockScribe.Proofs.Generate.TextPrints
import BlockScribe.Proofs.Generate.Parenthesization
import BlockScribe.Proofs.Text.Held
import BlockScribe.Proofs.Generate.Stacks
import BlockScribe.Proofs.Generate.Marks
import BlockScribe.Proofs.Generate.Lodging
import BlockScribe.Proofs.Generate.Placement
import BlockScribe.Proofs.Generate.Lodged
import BlockScribe.Proofs.Text.Finish
import BlockScribe.Proofs.Generate.Coverage
import BlockScribe.Proofs.Text.CodeShape
import BlockScribe.Proofs.Generate.IndexRuns
import BlockScribe.Proofs.Generate.IndexRules
import BlockScribe.Proofs.Generate.IndexGeneration
