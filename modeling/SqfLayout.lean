import SqfLayout.CommandLine
import SqfLayout.CommandLine.Arguments
import SqfLayout.CommandLine.Output
import SqfLayout.Convention
import SqfLayout.Convention.Decoding
import SqfLayout.Decimal
import SqfLayout.Diagnostic
import SqfLayout.Expression
import SqfLayout.Expression.Reader
import SqfLayout.FileTree
import SqfLayout.Header
import SqfLayout.Header.Comment
import SqfLayout.Header.ParameterLine
import SqfLayout.Header.Sentence
import SqfLayout.Indentation
import SqfLayout.Json
import SqfLayout.Json.Number
import SqfLayout.Json.Skip
import SqfLayout.Layout
import SqfLayout.Lexeme
import SqfLayout.Lexeme.Delimited
import SqfLayout.Lexeme.Number
import SqfLayout.Lexeme.Reader
import SqfLayout.LoadingFailure
import SqfLayout.Main
import SqfLayout.Position
import SqfLayout.Proofs.CommandLine
import SqfLayout.Proofs.CommandLine.Arguments
import SqfLayout.Proofs.Convention.Loading
import SqfLayout.Proofs.Convention.Reading
import SqfLayout.Proofs.Convention.Written
import SqfLayout.Proofs.Diagnostic
import SqfLayout.Proofs.Expression.Blame
import SqfLayout.Proofs.Expression.Grammar
import SqfLayout.Proofs.Expression.Marks
import SqfLayout.Proofs.Expression.Moved
import SqfLayout.Proofs.Expression.Programs
import SqfLayout.Proofs.Expression.Reading
import SqfLayout.Proofs.Expression.Reflowed
import SqfLayout.Proofs.Expression.Viable
import SqfLayout.Proofs.Expression.Written
import SqfLayout.Proofs.FileTree
import SqfLayout.Proofs.FileTree.Discovery
import SqfLayout.Proofs.Header.Acceptance
import SqfLayout.Proofs.Header.Blame
import SqfLayout.Proofs.Header.Description
import SqfLayout.Proofs.Header.ParameterLine
import SqfLayout.Proofs.Header.Prose
import SqfLayout.Proofs.Header.Sections
import SqfLayout.Proofs.Header.Sentence
import SqfLayout.Proofs.Header.Written
import SqfLayout.Proofs.Indentation
import SqfLayout.Proofs.Json.Strings
import SqfLayout.Proofs.Json.Values
import SqfLayout.Proofs.Layout.Acceptance
import SqfLayout.Proofs.Layout.Below
import SqfLayout.Proofs.Layout.Blame
import SqfLayout.Proofs.Layout.Breaking
import SqfLayout.Proofs.Layout.Entries
import SqfLayout.Proofs.Layout.EntryArray
import SqfLayout.Proofs.Layout.Grammar
import SqfLayout.Proofs.Layout.Literals
import SqfLayout.Proofs.Layout.NumberSentinel
import SqfLayout.Proofs.Layout.Rejection
import SqfLayout.Proofs.Layout.Truncated
import SqfLayout.Proofs.Layout.Viable
import SqfLayout.Proofs.Layout.Written
import SqfLayout.Proofs.Layout.WrittenEntry
import SqfLayout.Proofs.Lexeme.Context
import SqfLayout.Proofs.Lexeme.Locality
import SqfLayout.Proofs.Lexeme.LogicalLine
import SqfLayout.Proofs.Lexeme.NumberLiteral
import SqfLayout.Proofs.Lexeme.Spelling
import SqfLayout.Proofs.Lexeme.Standing
import SqfLayout.Proofs.Returns.Expression
import SqfLayout.Proofs.Returns.Layout
import SqfLayout.Proofs.Returns.Lexeme
import SqfLayout.Proofs.Returns.Text
import SqfLayout.Proofs.Returns.Token
import SqfLayout.Proofs.Returns.TokenReader
import SqfLayout.Proofs.Sequence
import SqfLayout.Proofs.Skeleton
import SqfLayout.Proofs.Text.Joined
import SqfLayout.Proofs.Text.Lines
import SqfLayout.Proofs.Text.Placeholders
import SqfLayout.Proofs.Token.Breaking
import SqfLayout.Proofs.Token.Directives
import SqfLayout.Proofs.Token.Evaluation
import SqfLayout.Proofs.Token.Levels
import SqfLayout.Proofs.Token.Numbers
import SqfLayout.Proofs.Token.Pieces
import SqfLayout.Proofs.Token.Places
import SqfLayout.Proofs.Token.Redrawn
import SqfLayout.Proofs.Token.Scanning
import SqfLayout.Proofs.Token.Shape
import SqfLayout.Proofs.Token.Splicing
import SqfLayout.Proofs.TokenReader
import SqfLayout.Proofs.TokenReader.Blame
import SqfLayout.Proofs.TokenReader.Cursor
import SqfLayout.Proofs.TokenReader.Viable
import SqfLayout.Skeleton
import SqfLayout.Style
import SqfLayout.Text
import SqfLayout.Text.Letter
import SqfLayout.Text.Lowercase
import SqfLayout.Text.Quoted
import SqfLayout.Text.Ranges
import SqfLayout.Text.Word
import SqfLayout.Token
import SqfLayout.Token.Stream
import SqfLayout.TokenReader
import SqfLayout.Violation
