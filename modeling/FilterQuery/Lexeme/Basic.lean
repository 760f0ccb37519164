import FilterQuery.Lexeme.Meaning
import FilterQuery.Lexeme.Pattern
import FilterQuery.Token.Basic

/-!
# Lexemes

A lexeme is a piece of a query before it has a meaning: its characters, where they start, and the
pattern that found it. A character that no pattern fits is a lexeme by itself.
-/

namespace FilterQuery

/-- A piece of a query. -/
structure Lexeme where
  /-- The pattern that found the piece; none if it is a character that no pattern fits. -/
  pattern : Option Pattern
  /-- The characters as they stand in the query. -/
  raw : Text
  /-- The offset at which they start. -/
  start : Nat
  deriving DecidableEq

namespace Lexeme

/-- Where a lexeme stands in the query. -/
def span (l : Lexeme) : Span := ⟨l.start, l.start + Text.size l.raw⟩

/-- A lexeme with its meaning. -/
def token (grammar : NumberGrammar) (l : Lexeme) : Token :=
  let (kind, value) := meaning grammar l.raw
  { kind, value, raw := l.raw, span := l.span }

end Lexeme
end FilterQuery
