import SqlSelect.CommandLine
import SqlSelect.Error
import SqlSelect.Event
import SqlSelect.Expr.Basic
import SqlSelect.Expr.Operator
import SqlSelect.Expr.Stack
import SqlSelect.FileTree
import SqlSelect.Grammar.Clause
import SqlSelect.Grammar.DataType
import SqlSelect.Grammar.Expr
import SqlSelect.Grammar.Operator
import SqlSelect.Grammar.Parser
import SqlSelect.Grammar.Reader
import SqlSelect.Grammar.Select
import SqlSelect.Json
import SqlSelect.Keyword
import SqlSelect.Main
import SqlSelect.Number.Double
import SqlSelect.Number.Layout
import SqlSelect.Number.Shortest
import SqlSelect.Outline
import SqlSelect.Proofs.Complete.Clause
import SqlSelect.Proofs.Complete.Expr
import SqlSelect.Proofs.Complete.Follow
import SqlSelect.Proofs.Complete.Operand
import SqlSelect.Proofs.Complete.Select
import SqlSelect.Proofs.Complete.Text
import SqlSelect.Proofs.Cursor
import SqlSelect.Proofs.Lexed
import SqlSelect.Proofs.Mark
import SqlSelect.Proofs.NormalForm
import SqlSelect.Proofs.Precedence
import SqlSelect.Proofs.Print.Decimal
import SqlSelect.Proofs.Print.Expr
import SqlSelect.Proofs.Print.Select
import SqlSelect.Proofs.Print.Text
import SqlSelect.Proofs.Reading
import SqlSelect.Proofs.RoundTrip
import SqlSelect.Proofs.Sound.Expr
import SqlSelect.Proofs.Sound.Select
import SqlSelect.Proofs.Spellable
import SqlSelect.Proofs.Tree
import SqlSelect.Proofs.Parts
import SqlSelect.Proofs.Tally
import SqlSelect.Proofs.Wildcard
import SqlSelect.Proofs.Yield
import SqlSelect.Report
import SqlSelect.Session
import SqlSelect.Span
import SqlSelect.Statement.Basic
import SqlSelect.Statement.Json
import SqlSelect.Statement.Outline
import SqlSelect.Statement.Survey
import SqlSelect.Text.Alphabetic
import SqlSelect.Text.Bytes
import SqlSelect.Text.CaseIgnorable
import SqlSelect.Text.Cased
import SqlSelect.Text.Combining
import SqlSelect.Text.Lines
import SqlSelect.Text.Lowercase
import SqlSelect.Text.Numeric
import SqlSelect.Text.Quoted
import SqlSelect.Text.Ranges
import SqlSelect.Text.Unprintable
import SqlSelect.Token.Basic
import SqlSelect.Token.Lexeme
import SqlSelect.Token.Lexer
import SqlSelect.Token.Number
import SqlSelect.Token.Quotes
import SqlSelect.Token.Trivia
import SqlSelect.Proofs.Course.Basic
import SqlSelect.Proofs.Course.Expr
import SqlSelect.Proofs.Course.Groups
import SqlSelect.Proofs.Course.Select
import SqlSelect.Proofs.Kinds
import SqlSelect.Proofs.Twin.Basic
import SqlSelect.Proofs.Twin.Expr
import SqlSelect.Proofs.Groups
import SqlSelect.Proofs.Twin.Clause
import SqlSelect.Proofs.Layout.Scan
import SqlSelect.Proofs.Twin.Select
import SqlSelect.Proofs.Layout.Pieces
import SqlSelect.Proofs.Layout
import SqlSelect.Proofs.Derived
import SqlSelect.Proofs.WellFormed
import SqlSelect.Proofs.Layout.Places
import SqlSelect.Proofs.Ahead
import SqlSelect.Proofs.Tandem.Alike
import SqlSelect.Proofs.Tandem.Basic
import SqlSelect.Proofs.Tandem.Expr
import SqlSelect.Proofs.Tandem.Clause
import SqlSelect.Proofs.Tandem.Reader
import SqlSelect.Proofs.Tandem.Select
import SqlSelect.Proofs.Tandem.State
import SqlSelect.Proofs.Local.Basic
import SqlSelect.Proofs.Local.Groups
import SqlSelect.Proofs.Reports
import SqlSelect.Proofs.Reuse
import SqlSelect.Proofs.Names
import SqlSelect.Proofs.Lockstep.Basic
import SqlSelect.Proofs.Lockstep.DataType
import SqlSelect.Proofs.Quoting
import SqlSelect.Proofs.ErrorPlace
import SqlSelect.Proofs.Locality
import SqlSelect.Proofs.Layout.Tiling
import SqlSelect.Proofs.Lines
import SqlSelect.Proofs.Caret
import SqlSelect.Proofs.Letters
import SqlSelect.Proofs.Recase
import SqlSelect.Proofs.Json.Member
import SqlSelect.Proofs.Json.Plain
import SqlSelect.Proofs.Json.Decode
import SqlSelect.Proofs.QuotedStar
import SqlSelect.Proofs.Folding
import SqlSelect.Proofs.Terminator
import SqlSelect.Proofs.RowLimits
import SqlSelect.Proofs.Joins
import SqlSelect.Proofs.Underline
import SqlSelect.Proofs.Canonical
import SqlSelect.Proofs.Overflow
import SqlSelect.Proofs.NumberLiteral
import SqlSelect.Proofs.Signs
import SqlSelect.Proofs.Coordinate
import SqlSelect.Proofs.Termination.Basic
import SqlSelect.Proofs.Termination.Production
import SqlSelect.Proofs.Termination
