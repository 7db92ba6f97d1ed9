import Plainspoken.Catalog.Basic
import Plainspoken.Catalog.English
import Plainspoken.Catalog.Template
import Plainspoken.Character.Alphabetic
import Plainspoken.Character.Numeric
import Plainspoken.Character.Runs
import Plainspoken.Character.WhiteSpace
import Plainspoken.Coercion
import Plainspoken.CommandLine.Directory
import Plainspoken.CommandLine.Options
import Plainspoken.CommandLine.Service
import Plainspoken.Console
import Plainspoken.Declarator
import Plainspoken.Diagnostic.Argument
import Plainspoken.Diagnostic.Cause
import Plainspoken.Diagnostic.Event
import Plainspoken.Diagnostic.Kind
import Plainspoken.Document.Basic
import Plainspoken.Document.Limits
import Plainspoken.Document.Numeral
import Plainspoken.Document.Reader
import Plainspoken.Evaluation.Access
import Plainspoken.Evaluation.Action
import Plainspoken.Evaluation.Expression
import Plainspoken.Evaluation.Operator
import Plainspoken.Evaluation.Statement
import Plainspoken.Grammar.Expression
import Plainspoken.Grammar.Rule
import Plainspoken.Grammar.Statement
import Plainspoken.Limits
import Plainspoken.Main
import Plainspoken.Number.Binary
import Plainspoken.Number.Remainder
import Plainspoken.Number.Shortest
import Plainspoken.Number.Text
import Plainspoken.Session
import Plainspoken.Source.Body
import Plainspoken.Source.Cursor
import Plainspoken.Source.Lexer
import Plainspoken.Source.NumberLiteral
import Plainspoken.Span
import Plainspoken.State.Callable
import Plainspoken.State.Flags
import Plainspoken.State.Frame
import Plainspoken.State.Height
import Plainspoken.State.Library
import Plainspoken.State.Machine
import Plainspoken.State.Scope
import Plainspoken.Token
import Plainspoken.Tree.Expression
import Plainspoken.Tree.Statement
import Plainspoken.Value
import Plainspoken.Words
import Plainspoken.Proofs.Completion
import Plainspoken.Proofs.Extension
import Plainspoken.Proofs.Effects
import Plainspoken.Proofs.Simulation
import Plainspoken.Proofs.Source.Passage
import Plainspoken.Proofs.Source.Findings
import Plainspoken.Proofs.Source.Parallel
import Plainspoken.Proofs.Source.LineBreakForms
import Plainspoken.Proofs.Source.Rendering
import Plainspoken.Proofs.Source.Positions
import Plainspoken.Proofs.Correspondence
import Plainspoken.Proofs.Tracing
import Plainspoken.Proofs.References
import Plainspoken.Proofs.ReferenceSafety
import Plainspoken.Proofs.Fuel
import Plainspoken.Proofs.MatchBranches
import Plainspoken.Proofs.Jumps
import Plainspoken.Proofs.Separation
import Plainspoken.Proofs.Isolation
import Plainspoken.Proofs.CallerLocals
import Plainspoken.Proofs.Syntax.Derivation
import Plainspoken.Proofs.Syntax.Lookahead
import Plainspoken.Proofs.Syntax.Expressions
import Plainspoken.Proofs.Syntax.Declarations
import Plainspoken.Proofs.Syntax.Statements
import Plainspoken.Proofs.Syntax.Tokens
import Plainspoken.Proofs.Syntax.Acceptance
import Plainspoken.Proofs.Syntax.Unparsing
import Plainspoken.Proofs.Syntax.Restoring
import Plainspoken.Proofs.Syntax.RestoringExpressions
import Plainspoken.Proofs.Syntax.RestoringStatements
import Plainspoken.Proofs.Syntax.Legibility
import Plainspoken.Proofs.Syntax.LegibleStatements
import Plainspoken.Proofs.Syntax.RoundTrip
import Plainspoken.Proofs.Maintenance
import Plainspoken.Proofs.Scopes
import Plainspoken.Proofs.TypedStore
import Plainspoken.Proofs.CallableTable
import Plainspoken.Proofs.Succession
import Plainspoken.Proofs.RoutineImmunity
import Plainspoken.Proofs.Immutability
import Plainspoken.Proofs.History
import Plainspoken.Proofs.Termination
import Plainspoken.Proofs.DistinctNames
import Plainspoken.Proofs.Blocks
import Plainspoken.Proofs.Syntax.BrokenSources
import Plainspoken.Proofs.RaisedLimits
import Plainspoken.Proofs.Watching
import Plainspoken.Proofs.Moments
import Plainspoken.Proofs.ReferenceTargets
import Plainspoken.Proofs.ReservedNames
import Plainspoken.Proofs.Standpoints
import Plainspoken.Proofs.Standing
import Plainspoken.Proofs.Hygiene
import Plainspoken.Proofs.TreeParts
import Plainspoken.Proofs.Syntax.Counterparts
import Plainspoken.Proofs.Syntax.SideBySide
import Plainspoken.Proofs.Syntax.WellFormedTrees
import Plainspoken.Proofs.Source.Braces
import Plainspoken.Proofs.Syntax.SameLexemes
import Plainspoken.Proofs.Numbers.Rounding
import Plainspoken.Proofs.Numbers.Literals
import Plainspoken.Proofs.Numbers.FiniteValues
import Plainspoken.Proofs.Numbers.FiniteRuns
import Plainspoken.Proofs.ExpressionRules
import Plainspoken.Proofs.Pipes
import Plainspoken.Proofs.UsedValues
import Plainspoken.Proofs.Reads
import Plainspoken.Proofs.Stepwise
import Plainspoken.Proofs.ReferenceChains
import Plainspoken.Proofs.Judgements
import Plainspoken.Proofs.SilencedMatches
import Plainspoken.Proofs.PatternCalls
import Plainspoken.Proofs.StackTraces
import Plainspoken.Proofs.BoundSubjects
import Plainspoken.Proofs.Source.Progress
import Plainspoken.Proofs.Source.BodyDecoding
import Plainspoken.Proofs.Source.DigitRuns
import Plainspoken.Proofs.SplitRoutines
import Plainspoken.Proofs.CallResults
import Plainspoken.Proofs.WordSplitting
import Plainspoken.Proofs.TemplatePlaces
import Plainspoken.Proofs.Source.Excerpts
import Plainspoken.Proofs.Syntax.FirstOperands
import Plainspoken.Proofs.Syntax.FirstTokens
import Plainspoken.Proofs.Source.Quotations
