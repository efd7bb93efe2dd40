import CommandScript.Alias
import CommandScript.Buffer
import CommandScript.Command.Basic
import CommandScript.Command.Names
import CommandScript.Command.Target
import CommandScript.CommandLine.Arguments
import CommandScript.CommandLine.Startup
import CommandScript.Error.Cause
import CommandScript.Error.Kind
import CommandScript.Error.Malformed
import CommandScript.Expr.Basic
import CommandScript.Expr.Eval
import CommandScript.Expr.Operator
import CommandScript.Expr.Parser
import CommandScript.Expr.Token
import CommandScript.Files.Handle
import CommandScript.Files.Path
import CommandScript.Files.Reader
import CommandScript.Files.Tree
import CommandScript.Flow.Branch
import CommandScript.Flow.Frame
import CommandScript.Flow.Loop
import CommandScript.Flow.Replay
import CommandScript.Function.Builtin
import CommandScript.Function.Math
import CommandScript.Host.Services
import CommandScript.Interpreter
import CommandScript.Lines
import CommandScript.Main
import CommandScript.Number.Decimal
import CommandScript.Number.Double
import CommandScript.Number.Format
import CommandScript.Number.Literal
import CommandScript.Number.Rounding
import CommandScript.Print.Format
import CommandScript.Print.Items
import CommandScript.Proofs.Aliases.Keywords
import CommandScript.Proofs.Aliases.Spans
import CommandScript.Proofs.Aliases.Tables
import CommandScript.Proofs.Aliases.Uniqueness
import CommandScript.Proofs.Aliases.Words
import CommandScript.Proofs.Blocks.Balance
import CommandScript.Proofs.Blocks.Contracts
import CommandScript.Proofs.Blocks.Counting
import CommandScript.Proofs.Blocks.Nesting
import CommandScript.Proofs.Brackets.Groups
import CommandScript.Proofs.Brackets.Marking
import CommandScript.Proofs.Brackets.Parentheses
import CommandScript.Proofs.Brackets.Requoting
import CommandScript.Proofs.Brackets.Scanning
import CommandScript.Proofs.Brackets.Values
import CommandScript.Proofs.Branches.Aging
import CommandScript.Proofs.Branches.Mirroring
import CommandScript.Proofs.Branches.Order
import CommandScript.Proofs.Branches.Recording
import CommandScript.Proofs.Buffers.Largest
import CommandScript.Proofs.Buffers.Magnitudes
import CommandScript.Proofs.Comments.Running
import CommandScript.Proofs.Comments.Stripping
import CommandScript.Proofs.Confinement.Basic
import CommandScript.Proofs.Confinement.Commands
import CommandScript.Proofs.Confinement.Conversions
import CommandScript.Proofs.Confinement.Escapes
import CommandScript.Proofs.Confinement.Evaluation
import CommandScript.Proofs.Confinement.Scripts
import CommandScript.Proofs.Course.Lines
import CommandScript.Proofs.Course.Moves
import CommandScript.Proofs.Course.Programs
import CommandScript.Proofs.Dispatch.Delivery
import CommandScript.Proofs.Dispatch.Segments
import CommandScript.Proofs.Doubles.Whole
import CommandScript.Proofs.Evaluation.Modes
import CommandScript.Proofs.Events.Bracketing
import CommandScript.Proofs.Failures.Intact
import CommandScript.Proofs.Folding.Comments
import CommandScript.Proofs.Folding.Streams
import CommandScript.Proofs.Grammar.Accepted
import CommandScript.Proofs.Grammar.Completeness
import CommandScript.Proofs.Grammar.Neighbours
import CommandScript.Proofs.Grammar.Places
import CommandScript.Proofs.Grammar.Quotes
import CommandScript.Proofs.Grammar.Shape
import CommandScript.Proofs.Grammar.Soundness
import CommandScript.Proofs.Grammar.Tokens
import CommandScript.Proofs.Integers.Evaluation
import CommandScript.Proofs.Integers.Formula
import CommandScript.Proofs.Integers.Lines
import CommandScript.Proofs.Integers.Marking
import CommandScript.Proofs.Integers.Numbers
import CommandScript.Proofs.Integers.Parsing
import CommandScript.Proofs.Integers.Programs
import CommandScript.Proofs.Integers.Running
import CommandScript.Proofs.Integers.Scanning
import CommandScript.Proofs.Lexemes.Cuts
import CommandScript.Proofs.Lexemes.Layout
import CommandScript.Proofs.Lexemes.Matching
import CommandScript.Proofs.Literals.Arguments
import CommandScript.Proofs.Literals.Quoted
import CommandScript.Proofs.Literals.Survival
import CommandScript.Proofs.Output.Calls
import CommandScript.Proofs.Output.Encodings
import CommandScript.Proofs.Output.Handles
import CommandScript.Proofs.Output.Sequences
import CommandScript.Proofs.Output.Statements
import CommandScript.Proofs.Parentheses.Partners
import CommandScript.Proofs.Passes.Arrays
import CommandScript.Proofs.Passes.Decoding
import CommandScript.Proofs.Passes.Elements
import CommandScript.Proofs.Passes.Fields
import CommandScript.Proofs.Passes.Headers
import CommandScript.Proofs.Passes.References
import CommandScript.Proofs.Passes.Replaying
import CommandScript.Proofs.Passes.Restoring
import CommandScript.Proofs.Passes.Splitting
import CommandScript.Proofs.Prefixes.Marks
import CommandScript.Proofs.Prefixes.Operands
import CommandScript.Proofs.Prefixes.Runs
import CommandScript.Proofs.Printing.Items
import CommandScript.Proofs.Release.Files
import CommandScript.Proofs.Release.Ledger
import CommandScript.Proofs.Release.Loops
import CommandScript.Proofs.Release.Programs
import CommandScript.Proofs.Respect.Basic
import CommandScript.Proofs.Respect.Commands
import CommandScript.Proofs.Respect.Evaluation
import CommandScript.Proofs.Respect.Statements
import CommandScript.Proofs.Scoping.Bindings
import CommandScript.Proofs.Scoping.Exports
import CommandScript.Proofs.Scoping.Following
import CommandScript.Proofs.Scoping.Landing
import CommandScript.Proofs.Scoping.Reserved
import CommandScript.Proofs.Scoping.Watching
import CommandScript.Proofs.Statements.Composition
import CommandScript.Proofs.Structured.Execution
import CommandScript.Proofs.Structured.FileLoop
import CommandScript.Proofs.Structured.Lines
import CommandScript.Proofs.Structured.Passing
import CommandScript.Proofs.Structured.Replaying
import CommandScript.Proofs.Structured.Script
import CommandScript.Proofs.Structured.Simulation
import CommandScript.Proofs.Targets.Quoted
import CommandScript.Proofs.Terms.Defined
import CommandScript.Proofs.Terms.Exponents
import CommandScript.Proofs.Text.Casing
import CommandScript.Proofs.Text.Lexemes
import CommandScript.Proofs.Text.Pairs
import CommandScript.Proofs.Text.Spans
import CommandScript.Proofs.Text.Unquoted
import CommandScript.Proofs.Threads.Handover
import CommandScript.Proofs.Threads.Machine
import CommandScript.Proofs.Threads.Order
import CommandScript.Proofs.Threads.Refinement
import CommandScript.Proofs.Times.Calendar
import CommandScript.Proofs.Times.Stamps
import CommandScript.Proofs.Unfolding
import CommandScript.Proofs.Variables.Writes
import CommandScript.Report
import CommandScript.Schedule.Executor
import CommandScript.Schedule.Timers
import CommandScript.Session
import CommandScript.Store
import CommandScript.Text.Basic
import CommandScript.Text.Casing
import CommandScript.Text.Digit
import CommandScript.Text.Escape
import CommandScript.Text.Letter
import CommandScript.Text.Printable
import CommandScript.Text.Quote
import CommandScript.Text.Statement
import CommandScript.Time.Calendar
import CommandScript.Time.Stamp
import CommandScript.Value
import CommandScript.Words
