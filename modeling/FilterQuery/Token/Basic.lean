import FilterQuery.Token.Kind
import FilterQuery.Token.Span

/-!
# Tokens

A token is a piece of a query with its meaning: the characters as they stand there, where they
stand, what kind of thing they are, and the value that they denote.
-/

namespace FilterQuery

/-- A piece of a query with its meaning. -/
structure Token where
  kind : Kind
  /-- What the characters denote: the text of a literal without its quotes, for instance. -/
  value : Text
  /-- The characters as they stand in the query. -/
  raw : Text
  span : Span
  deriving DecidableEq

namespace Token

/-- Whether a token is of a given kind. -/
def is (t : Token) (kind : Kind) : Bool := t.kind = kind

/-- Whether no rule of the language accepts the token. -/
def isUnrecognized (t : Token) : Bool := t.is .unrecognized

end Token
end FilterQuery
