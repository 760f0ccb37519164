import FilterQuery.Lexeme.Number
import FilterQuery.Lexeme.Path
import FilterQuery.Lexeme.Quoted
import FilterQuery.Lexeme.SubQuery
import FilterQuery.Token.Kind

/-!
# The meaning of a lexeme

The kind and the value of a piece of text depend on that text alone, not on the pattern that found
it nor on its surroundings. Any text has a meaning, also one that is no lexeme.

The rules are tried in order: numbers, quoted texts, full-text queries, kinds of fixed wording,
paths through relations, plain paths. Under the compatible number grammar the last two accept a text
that merely contains a path: so `1.2.3e5`, one lexeme there, counts as a field for its `e5`.
-/

namespace FilterQuery

/-- The kind that a text has as a name, if it is no literal and has no fixed wording. -/
def nameKind (grammar : NumberGrammar) (raw : Text) : Kind :=
  match grammar with
  | .strict => if isRelation raw then .relation else if isPath raw then .field else .unrecognized
  | .compat =>
    if containsRelation raw then .relation else if containsPath raw then .field else .unrecognized

/-- The kind and the value of a text. -/
def meaning (grammar : NumberGrammar) (raw : Text) : Kind × Text :=
  if isNumeral raw then (if isInteger raw then .integer else .float, raw)
  else if let some body := quotedBody? raw then (.string, unquote body)
  else if let some body := SubQuery.body? raw then (.subQuery, body)
  else if let some kind := Kind.ofSpelling? raw then (kind, raw)
  else (nameKind grammar raw, raw)

end FilterQuery
