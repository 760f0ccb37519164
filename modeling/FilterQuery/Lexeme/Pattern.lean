import FilterQuery.Lexeme.Number
import FilterQuery.Lexeme.Path
import FilterQuery.Lexeme.Quoted
import FilterQuery.Lexeme.SubQuery
import FilterQuery.Token.Kind

/-!
# Patterns

What the lexemes of a query look like. Each pattern takes the longest beginning of a text that has
its form. Where several patterns fit, the order decides and not the length: `likes` starts with the
operator `like`, and a path through a relation is tried before the plain path that it starts with.

The full-text query comes before all others. It is not in the table, since a scan looks for it with
the help of what it saw earlier (`SubQuery.Finder`).
-/

namespace FilterQuery

/-- The wording of one of some kinds at the front of a text, and what follows it. -/
def cutWording? (kinds : List Kind) (t : Text) : Option (Text × Text) :=
  kinds.findSome? fun k => Text.cutFolded? k.spelling t

/-- Every kind has a wording with at least one character. -/
theorem spelling_ne_nil (k : Kind) : Text.fold k.spelling ≠ [] := by cases k <;> decide

theorem append_of_cutWording? {kinds : List Kind} {t wording after : Text}
    (h : cutWording? kinds t = some (wording, after)) : wording ++ after = t ∧ wording ≠ [] := by
  obtain ⟨k, _, hk⟩ := List.exists_of_findSome?_eq_some h
  obtain ⟨ht, hfold⟩ := Text.eq_append_of_cutFolded? hk
  refine ⟨ht.symm, ?_⟩
  rintro rfl
  exact spelling_ne_nil k hfold.symm

/-- The forms of a lexeme. -/
inductive Pattern where
  /-- A full-text query. -/
  | subQuery
  /-- A text between single quote marks. -/
  | singleQuoted
  /-- A text between double quote marks. -/
  | doubleQuoted
  /-- A comparison operator. -/
  | operator
  /-- One of the words for missing values. -/
  | keyword
  /-- A path through a relation. -/
  | relation
  /-- A path that leads through no relation. -/
  | field
  | number
  | parenthesis
  deriving DecidableEq

namespace Pattern

/-- The name of a pattern in the events of a scan. -/
def name : Pattern → Text
  | subQuery => "query_string".toList
  | singleQuoted => "single_quoted_string".toList
  | doubleQuoted => "double_quoted_string".toList
  | operator => "operator".toList
  | keyword => "keyword".toList
  | relation => "relation_field".toList
  | field => "field_name".toList
  | number => "number".toList
  | parenthesis => "parenthesis".toList

/-- The operators, a longer wording before the shorter one that it starts with. -/
def operators : List Kind :=
  [.greaterEqual, .lessEqual, .notEqual, .equal, .greater, .less, .notLike, .like]

/-- The lexeme of a given form at the front of a text, and what follows it. -/
def cut? (grammar : NumberGrammar) : Pattern → Text → Option (Text × Text)
  | subQuery => SubQuery.cut?
  | singleQuoted => cutQuoted? '\''
  | doubleQuoted => cutQuoted? '"'
  | operator => cutWording? operators
  | keyword => cutWording? [.null, .empty]
  | relation => cutRelation?
  | field => cutPath?
  | number => cutNumber? grammar
  | parenthesis => cutWording? [.leftParen, .rightParen]

/-- A lexeme is never empty, and with what follows it is the whole text. -/
theorem append_of_cut? {grammar : NumberGrammar} {t lexeme after : Text} :
    ∀ {p : Pattern}, p.cut? grammar t = some (lexeme, after) → lexeme ++ after = t ∧ lexeme ≠ []
  | subQuery, h => SubQuery.append_of_cut? h
  | singleQuoted, h => append_of_cutQuoted? h
  | doubleQuoted, h => append_of_cutQuoted? h
  | operator, h => append_of_cutWording? h
  | keyword, h => append_of_cutWording? h
  | relation, h => append_of_cutRelation? h
  | field, h => append_of_cutPath? h
  | number, h => append_of_cutNumber? h
  | parenthesis, h => append_of_cutWording? h

/-- The patterns after the full-text query, in the order in which they are tried. -/
def table : List Pattern :=
  [singleQuoted, doubleQuoted, operator, keyword, relation, field, number, parenthesis]

/-- The first pattern of the table that fits the front of a text, with its lexeme and what follows
it. -/
def first? (grammar : NumberGrammar) (t : Text) : Option (Pattern × Text × Text) :=
  table.findSome? fun p => (p.cut? grammar t).map fun cut => (p, cut)

theorem cut?_of_first? {grammar : NumberGrammar} {t lexeme after : Text} {p : Pattern}
    (h : first? grammar t = some (p, lexeme, after)) :
    p ∈ table ∧ p.cut? grammar t = some (lexeme, after) := by
  obtain ⟨q, hq, hcut⟩ := List.exists_of_findSome?_eq_some h
  obtain ⟨cut, hcut, heq⟩ := Option.map_eq_some_iff.mp hcut
  simp only [Prod.mk.injEq] at heq
  obtain ⟨rfl, rfl⟩ := heq
  exact ⟨hq, hcut⟩

end Pattern
end FilterQuery
