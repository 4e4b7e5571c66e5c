import JobMatrix.Main
import JobMatrix.Proofs.Success
import JobMatrix.Proofs.Data.Keyed
import JobMatrix.Proofs.Run.Interleaving
import JobMatrix.Proofs.Run.Board
import JobMatrix.Proofs.Run.Story
import JobMatrix.Proofs.Run.Completion
import JobMatrix.Proofs.Run.Cancellation
import JobMatrix.Proofs.Run.Isolation
import JobMatrix.Proofs.Run.Verdict
import JobMatrix.Proofs.Run.Trace
import JobMatrix.Proofs.Matrix.CrossProduct
import JobMatrix.Proofs.Matrix.Resolution
import JobMatrix.Proofs.Run.Outcome
import JobMatrix.Proofs.Run.Guarding
import JobMatrix.Proofs.Run.History
import JobMatrix.Proofs.Run.Truncation
import JobMatrix.Proofs.Run.Unstarted
import JobMatrix.Proofs.Plan.Accounting
import JobMatrix.Proofs.Plan.MissingKeys
import JobMatrix.Proofs.Plan.StepEnvironment
import JobMatrix.Proofs.Expr.Grammar
import JobMatrix.Proofs.Expr.Parsing
import JobMatrix.Proofs.Expr.Lexing
import JobMatrix.Proofs.Expr.Embedding
import JobMatrix.Proofs.Expr.Guard
import JobMatrix.Proofs.Expr.Wrapper
import JobMatrix.Proofs.Workflow.Steps
import JobMatrix.Proofs.Workflow.Strategies
import JobMatrix.Proofs.Workflow.Pipelines
import JobMatrix.Proofs.CommandLine.ExitStatus
import JobMatrix.Proofs.CommandLine.Output
import JobMatrix.Proofs.CommandLine.Mentions
import JobMatrix.Proofs.Pattern.Literal
import JobMatrix.Proofs.Pattern.Selecting
import JobMatrix.Proofs.CommandLine.JobFilter
import JobMatrix.Proofs.CommandLine.Selection
import JobMatrix.Proofs.Run.Sequence
import JobMatrix.Proofs.Expr.AnyCase
import JobMatrix.Proofs.Expr.Composition
import JobMatrix.Proofs.Expr.Dependence
import JobMatrix.Proofs.Expr.Formatting
import JobMatrix.Proofs.Expr.Folding
import JobMatrix.Proofs.Expr.MatrixKeys
import JobMatrix.Proofs.Matrix.Enumeration
import JobMatrix.Proofs.Matrix.References
import JobMatrix.Proofs.Workflow.StrategyFormat
import JobMatrix.Proofs.Pattern.PlainId
import JobMatrix.Proofs.CommandLine.ValidPatterns
import JobMatrix.Proofs.Text.Order
import JobMatrix.Proofs.Number.Difference
import JobMatrix.Proofs.Expr.Ordering
import JobMatrix.Proofs.Data.Insertion
import JobMatrix.Proofs.Text.Numerals
import JobMatrix.Proofs.CommandLine.RunnerLabels
import JobMatrix.Proofs.Workflow.StepIds
import JobMatrix.Proofs.Workflow.ActionReferences
import JobMatrix.Proofs.Expr.Cursor
