import FilterQuery.CommandLine.Arguments
import FilterQuery.CommandLine.Run
import FilterQuery.Config
import FilterQuery.Cursor
import FilterQuery.Json.Layout
import FilterQuery.Json.Quoted
import FilterQuery.Json.Symbol
import FilterQuery.Json.Value
import FilterQuery.Lexeme.Basic
import FilterQuery.Lexeme.Meaning
import FilterQuery.Lexeme.Number
import FilterQuery.Lexeme.Path
import FilterQuery.Lexeme.Pattern
import FilterQuery.Lexeme.Quoted
import FilterQuery.Lexeme.SubQuery
import FilterQuery.Lexeme.SubQuery.Finder
import FilterQuery.Log
import FilterQuery.Main
import FilterQuery.Program
import FilterQuery.Report.Diagnostic
import FilterQuery.Report.Listing
import FilterQuery.Scanner
import FilterQuery.Text.Basic
import FilterQuery.Text.Blank
import FilterQuery.Text.CharSet
import FilterQuery.Text.Decimal
import FilterQuery.Text.Dotted
import FilterQuery.Text.Escape
import FilterQuery.Text.Visible
import FilterQuery.Token.Basic
import FilterQuery.Token.Fault
import FilterQuery.Token.Json
import FilterQuery.Token.Kind
import FilterQuery.Token.Span
import FilterQuery.Trace
import FilterQuery.Proofs.Regex.Basic
import FilterQuery.Proofs.Regex.Longest
import FilterQuery.Proofs.Pattern.Expression
import FilterQuery.Proofs.Pattern.Dotted
import FilterQuery.Proofs.Pattern.Quoted
import FilterQuery.Proofs.Pattern.Wording
import FilterQuery.Proofs.Pattern.SubQuery
import FilterQuery.Proofs.Pattern.Table
import FilterQuery.Proofs.Scan.Memory
import FilterQuery.Proofs.Scan.Front
import FilterQuery.Proofs.Scan.Run
import FilterQuery.Proofs.Pattern.Characters
import FilterQuery.Proofs.Scan.Tiling
import FilterQuery.Proofs.Scan.Slice
import FilterQuery.Proofs.Meaning.Lexemes
import FilterQuery.Proofs.Scan.Extend
import FilterQuery.Proofs.Scan.Embedding
import FilterQuery.Proofs.Scan.LineBreak
import FilterQuery.Proofs.Scan.Spacing
import FilterQuery.Proofs.Pattern.Number
import FilterQuery.Proofs.Meaning.Forms
import FilterQuery.Proofs.Meaning.Numbers
import FilterQuery.Proofs.Scan.Capture
import FilterQuery.Proofs.Scan.Refinement
import FilterQuery.Proofs.Text.Folding
import FilterQuery.Proofs.Pattern.Folding
import FilterQuery.Proofs.Meaning.Folding
import FilterQuery.Proofs.Scan.Folding
import FilterQuery.Proofs.Scan.Session
import FilterQuery.Proofs.Cursor.Requests
import FilterQuery.Proofs.Cursor.Range
import FilterQuery.Proofs.Cursor.Moves
import FilterQuery.Proofs.Cursor.Upcoming
import FilterQuery.Proofs.Cursor.Search
import FilterQuery.Proofs.Text.Bytes
import FilterQuery.Proofs.Scan.Places
import FilterQuery.Proofs.Scan.Placed
import FilterQuery.Proofs.Scan.FullText
import FilterQuery.Proofs.Scan.Events
import FilterQuery.Proofs.Scan.Characters
import FilterQuery.Proofs.Scan.OpenMark
import FilterQuery.Proofs.Report.Line
import FilterQuery.Proofs.Report.Diagnostic
import FilterQuery.Proofs.Text.Escape
import FilterQuery.Proofs.Report.Listing
import FilterQuery.Proofs.Scan.Traced
import FilterQuery.Proofs.CommandLine.Outcome
import FilterQuery.Proofs.CommandLine.Agreement
import FilterQuery.Proofs.Json.Scalars
import FilterQuery.Proofs.Json.Layout
import FilterQuery.Proofs.Json.Tokens
import FilterQuery.Proofs.Cursor.Expect
import FilterQuery.Proofs.Meaning.Compatible
import FilterQuery.Proofs.Meaning.Collapse
import FilterQuery.Proofs.Scan.Doubled
import FilterQuery.Proofs.Scan.Reserved
import FilterQuery.Proofs.CommandLine.Verbose
import FilterQuery.Proofs.Meaning.Unquote
import FilterQuery.Proofs.Scan.Searches
import FilterQuery.Proofs.Meaning.Numerals
import FilterQuery.Proofs.Meaning.Rules
