import FilterQuery.Token.Basic

/-!
# Pointing at a token

A diagnostic shows the line of the query in which a token starts, and underlines the token there.
The underline ends with the line, so a token that runs over several lines is underlined in the first
of them.
-/

namespace FilterQuery.Report

/-- What is shown about a token of a query. -/
structure Diagnostic where
  lexeme : Text
  /-- The number of the line in which the token starts, from one. -/
  line : Nat
  /-- The column at which it starts, from one. -/
  column : Nat
  /-- The text of that line. -/
  text : Text
  /-- How many characters of the line belong to the token. -/
  width : Nat
  deriving DecidableEq

namespace Diagnostic

/-- The part of a text after its last newline. -/
def lastLine (t : Text) : Text := (t.reverse.takeWhile (· ≠ '\n')).reverse

/-- The part of a text before its first newline. -/
def firstLine (t : Text) : Text := t.takeWhile (· ≠ '\n')

/-- The diagnostic for a token of a query. There is none if the token's span does not lie on
character boundaries of the query. -/
def ofToken? (query : Text) (token : Token) : Option Diagnostic := do
  let (before, rest) ← Text.splitAt? token.span.start query
  let raw ← token.span.slice? query
  let head := lastLine before
  let tail := firstLine rest
  some
    { lexeme := token.raw
      line := before.count '\n' + 1
      column := head.length + 1
      text := head ++ tail
      width := max 1 (min raw.length tail.length) }

/-- The diagnostic as it is shown: a headline, the line of the query, and the underline. -/
def render (d : Diagnostic) : Text :=
  "error: unrecognized token '".toList ++ d.lexeme ++ "' at ".toList ++ Text.decimal d.line
    ++ ":".toList ++ Text.decimal d.column ++ "\n  ".toList ++ d.text ++ "\n  ".toList
    ++ List.replicate (d.column - 1) ' ' ++ List.replicate d.width '^'

end Diagnostic

/-- The diagnostics for some tokens of a query. -/
def diagnostics (query : Text) (tokens : List Token) : List Diagnostic :=
  tokens.filterMap (Diagnostic.ofToken? query)

end FilterQuery.Report
