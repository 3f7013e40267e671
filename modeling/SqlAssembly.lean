import SqlAssembly.Allocator
import SqlAssembly.BuildOptions
import SqlAssembly.Calendar
import SqlAssembly.ColumnExpr.Arguments
import SqlAssembly.ColumnExpr.Basic
import SqlAssembly.ColumnExpr.Function
import SqlAssembly.ColumnExpr.Parser
import SqlAssembly.Engine.Basic
import SqlAssembly.Engine.Execution
import SqlAssembly.Engine.Hooked
import SqlAssembly.Engine.Log
import SqlAssembly.Engine.Row
import SqlAssembly.Engine.RunResult
import SqlAssembly.Error
import SqlAssembly.Filter.Basic
import SqlAssembly.Filter.Classify
import SqlAssembly.Hook.Basic
import SqlAssembly.Hook.Context
import SqlAssembly.Hook.Log
import SqlAssembly.Identifier.Denial
import SqlAssembly.Identifier.Name
import SqlAssembly.Identifier.QualifiedName
import SqlAssembly.Identifier.Segment
import SqlAssembly.Json.Basic
import SqlAssembly.Json.Node
import SqlAssembly.Json.Reader
import SqlAssembly.Json.Token
import SqlAssembly.Number.Binary64
import SqlAssembly.Number.Layout
import SqlAssembly.Number.Shortest
import SqlAssembly.Operator
import SqlAssembly.Params
import SqlAssembly.Proofs.Allocator
import SqlAssembly.Proofs.ColumnExpr.Accepted
import SqlAssembly.Proofs.ColumnExpr.Admissible
import SqlAssembly.Proofs.ColumnExpr.Aliased
import SqlAssembly.Proofs.ColumnExpr.Arguments
import SqlAssembly.Proofs.ColumnExpr.CallShape
import SqlAssembly.Proofs.ColumnExpr.Contained
import SqlAssembly.Proofs.ColumnExpr.Dangerous
import SqlAssembly.Proofs.ColumnExpr.Described
import SqlAssembly.Proofs.ColumnExpr.Grammar
import SqlAssembly.Proofs.ColumnExpr.Joined
import SqlAssembly.Proofs.ColumnExpr.Reread
import SqlAssembly.Proofs.ColumnExpr.Spelling
import SqlAssembly.Proofs.ColumnExpr.Written
import SqlAssembly.Proofs.Engine.Grouping
import SqlAssembly.Proofs.Engine.Lifecycle
import SqlAssembly.Proofs.Engine.Seen
import SqlAssembly.Proofs.Engine.Session
import SqlAssembly.Proofs.Engine.Traced
import SqlAssembly.Proofs.Engine.Transparent
import SqlAssembly.Proofs.Filter.Classify
import SqlAssembly.Proofs.Filter.Test
import SqlAssembly.Proofs.Hook.Context
import SqlAssembly.Proofs.Hook.Leaves
import SqlAssembly.Proofs.Hook.Log
import SqlAssembly.Proofs.Hook.Seen
import SqlAssembly.Proofs.Hook.Traced
import SqlAssembly.Proofs.Identifier.Dangerous
import SqlAssembly.Proofs.Identifier.Denial
import SqlAssembly.Proofs.Identifier.Pattern
import SqlAssembly.Proofs.Identifier.QualifiedName
import SqlAssembly.Proofs.Identifier.Quote
import SqlAssembly.Proofs.Identifier.Segment
import SqlAssembly.Proofs.Identifier.Shape
import SqlAssembly.Proofs.Json.Document
import SqlAssembly.Proofs.Json.Leaf
import SqlAssembly.Proofs.Numbered
import SqlAssembly.Proofs.Operator
import SqlAssembly.Proofs.Outcome
import SqlAssembly.Proofs.Params
import SqlAssembly.Proofs.Query.Alike
import SqlAssembly.Proofs.Query.Assembled
import SqlAssembly.Proofs.Query.Embedding
import SqlAssembly.Proofs.Query.Faults
import SqlAssembly.Proofs.Query.Inlined
import SqlAssembly.Proofs.Query.Joined
import SqlAssembly.Proofs.Query.Nothing
import SqlAssembly.Proofs.Query.Operands
import SqlAssembly.Proofs.Query.Outline
import SqlAssembly.Proofs.Query.Placed
import SqlAssembly.Proofs.Query.Placeholders
import SqlAssembly.Proofs.Query.Predicates
import SqlAssembly.Proofs.Query.Quoted
import SqlAssembly.Proofs.Query.Sound
import SqlAssembly.Proofs.Query.Steps
import SqlAssembly.Proofs.Query.Values
import SqlAssembly.Proofs.Query.Whole
import SqlAssembly.Proofs.Sql.Alias
import SqlAssembly.Proofs.Sql.Fragment
import SqlAssembly.Proofs.Sql.Lexing
import SqlAssembly.Proofs.Sql.Meaning
import SqlAssembly.Proofs.Sql.Phrase
import SqlAssembly.Proofs.Sql.Reader
import SqlAssembly.Proofs.Sql.Token
import SqlAssembly.Proofs.Statement.Alike
import SqlAssembly.Proofs.Statement.Builder
import SqlAssembly.Proofs.Statement.CallOrder
import SqlAssembly.Proofs.Statement.Calls
import SqlAssembly.Proofs.Statement.Chains
import SqlAssembly.Proofs.Statement.Embedding
import SqlAssembly.Proofs.Statement.Faults
import SqlAssembly.Proofs.Statement.Given
import SqlAssembly.Proofs.Statement.Inlined
import SqlAssembly.Proofs.Statement.Placed
import SqlAssembly.Proofs.Statement.Placeholders
import SqlAssembly.Proofs.Statement.Sharing
import SqlAssembly.Proofs.Statement.Splitting
import SqlAssembly.Proofs.Statement.Steps
import SqlAssembly.Proofs.Statement.Values
import SqlAssembly.Proofs.Text.Blank
import SqlAssembly.Proofs.Text.Fitting
import SqlAssembly.Proofs.Text.Runs
import SqlAssembly.Proofs.Twins
import SqlAssembly.Proofs.Verb
import SqlAssembly.Proofs.Verb.Keyword
import SqlAssembly.Query.Basic
import SqlAssembly.Query.Render
import SqlAssembly.Rehearsal.Hooks
import SqlAssembly.Rehearsal.Journal
import SqlAssembly.Rehearsal.Memory
import SqlAssembly.Rehearsal.Session
import SqlAssembly.Scalar
import SqlAssembly.Statement.Basic
import SqlAssembly.Statement.Delete
import SqlAssembly.Statement.Insert
import SqlAssembly.Statement.RawSql
import SqlAssembly.Statement.Select
import SqlAssembly.Statement.Table
import SqlAssembly.Statement.Target
import SqlAssembly.Statement.Update
import SqlAssembly.Text.Blank
import SqlAssembly.Text.Escaped
import SqlAssembly.Text.Fitting
import SqlAssembly.Text.Fold
import SqlAssembly.Text.Hex
import SqlAssembly.Text.Quoted
import SqlAssembly.Text.Ranges
import SqlAssembly.Text.Runs
import SqlAssembly.Text.WordChar
import SqlAssembly.Uuid
import SqlAssembly.Value
import SqlAssembly.Verb
