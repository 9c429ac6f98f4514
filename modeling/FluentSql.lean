import FluentSql.Calendar
import FluentSql.CommandLine
import FluentSql.Config
import FluentSql.Error
import FluentSql.Expr.Basic
import FluentSql.Expr.Operator
import FluentSql.Expr.Script
import FluentSql.Expr.Sql
import FluentSql.History.Basic
import FluentSql.History.File
import FluentSql.History.Timestamp
import FluentSql.Json.Basic
import FluentSql.Json.Reader
import FluentSql.Json.Writer
import FluentSql.Language
import FluentSql.Main
import FluentSql.Number.Double
import FluentSql.Number.Numeral
import FluentSql.Number.Shortest
import FluentSql.Query.Basic
import FluentSql.Query.Builder
import FluentSql.Query.Projection
import FluentSql.Query.Script
import FluentSql.Query.Sql
import FluentSql.Script.Basic
import FluentSql.Script.Eval
import FluentSql.Script.Grammar
import FluentSql.Script.Kind
import FluentSql.Script.Reply
import FluentSql.Script.Token
import FluentSql.Script.Value
import FluentSql.Session
import FluentSql.Statement.Basic
import FluentSql.Statement.Check
import FluentSql.Statement.Compact
import FluentSql.Statement.OfQuery
import FluentSql.Statement.Pretty
import FluentSql.Text.Blank
import FluentSql.Text.Case
import FluentSql.Text.CaseTables
import FluentSql.Text.Name
import FluentSql.Text.Quoted
import FluentSql.Toml.Basic
import FluentSql.Toml.DateTime
import FluentSql.Toml.Reader
import FluentSql.Proofs.Query.Built
import FluentSql.Proofs.Query.Expressible
import FluentSql.Proofs.Query.Segment
import FluentSql.Proofs.Query.Lowering
import FluentSql.Proofs.Statement.Spelling
import FluentSql.Proofs.Query.Pruned
import FluentSql.Proofs.Number.Reading
import FluentSql.Proofs.Script.Layout
import FluentSql.Proofs.Script.Derivation
import FluentSql.Proofs.Script.Accepted
import FluentSql.Proofs.Script.LoneComma
import FluentSql.Proofs.Script.Completeness
import FluentSql.Proofs.Script.Tree
import FluentSql.Proofs.Script.Writable
import FluentSql.Proofs.Query.Written
import FluentSql.Proofs.Query.RoundTrip
import FluentSql.Proofs.Session.Text
import FluentSql.Proofs.Statement.Lexeme
import FluentSql.Proofs.Query.Outline
import FluentSql.Proofs.Query.Lexed
import FluentSql.Proofs.Statement.Alias
import FluentSql.Proofs.Query.Commute
import FluentSql.Proofs.Script.Height
import FluentSql.Proofs.Script.Position
import FluentSql.Proofs.Script.Margin
import FluentSql.Proofs.Script.Trim
import FluentSql.Proofs.Query.Presented
import FluentSql.Proofs.Json.Written
import FluentSql.Proofs.History.Adding
import FluentSql.Proofs.History.File
import FluentSql.Proofs.Session.History
import FluentSql.Proofs.Query.Overwrites
import FluentSql.Proofs.Session.LastAccepted
import FluentSql.Proofs.Session.Reopening
import FluentSql.Proofs.History.Timestamp
import FluentSql.Proofs.History.Reload
import FluentSql.Proofs.History.Log
import FluentSql.Proofs.History.Saved
import FluentSql.Proofs.Statement.Part
import FluentSql.Proofs.Statement.Capture
import FluentSql.Proofs.Query.Selection
import FluentSql.Proofs.Query.CountName
import FluentSql.Proofs.Query.ValueCounts
import FluentSql.Proofs.Script.Inlining
import FluentSql.Proofs.Expr.Reading
import FluentSql.Proofs.Query.Recasting
import FluentSql.Proofs.Script.Reference
import FluentSql.Proofs.Query.Hoisting
import FluentSql.Proofs.Query.Superseding
import FluentSql.Proofs.History.Navigation
import FluentSql.Proofs.Text.LowerCase
import FluentSql.Proofs.History.Search
