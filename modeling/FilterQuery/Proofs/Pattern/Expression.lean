import FilterQuery.Lexeme.Pattern
import FilterQuery.Proofs.Regex.Longest

/-!
# The patterns as regular expressions

The table of patterns is written here as the language describes it, one regular expression for each
entry. The full-text query is not in the table and has no expression: it ends at the first closing
mark, and its form is said in words (`SubQuery.IsQuery`).

`search?` is the table read literally: the expressions are tried in order, the first one that finds
anything wins, and what it finds counts if it is not empty.
-/

namespace FilterQuery

namespace Regex

/-- A character of one class, then any number of another. -/
def run (first part : Char → Bool) : Regex := seq (one first) (star (one part))

/-- A certain text. -/
def literal : Text → Regex
  | [] => empty
  | c :: rest => seq (char c) (literal rest)

/-! ## Field paths -/

/-- A name. -/
def identifier : Regex := run isNameStart isNamePart

/-- Names joined by dots. -/
def path : Regex := seq identifier (star (seq (char '.') identifier))

/-- A path of at least two names. -/
def longPath : Regex := seq identifier (plus (seq (char '.') identifier))

/-- A path, a colon, and a path of at least two names. -/
def relation : Regex := seq path (seq (char ':') longPath)

/-! ## Numbers -/

def digits : Regex := plus (one Char.isDigit)

def fraction : Regex := seq (char '.') digits

def sign : Regex := one fun c => c = '+' || c = '-'

def exponent : Regex := seq (one fun c => c = 'e' || c = 'E') (seq (opt sign) digits)

/-- A number, with one fraction at most or with any number of them. -/
def number : NumberGrammar → Regex
  | .strict => seq digits (seq (opt fraction) (opt exponent))
  | .compat => seq digits (seq (star fraction) (opt exponent))

/-! ## Literals and fixed wordings -/

/-- A text between two marks, in which the mark itself stands doubled. -/
def quoted (mark : Char) : Regex :=
  seq (char mark)
    (seq (star (alt (one fun c => c ≠ mark) (seq (char mark) (char mark)))) (char mark))

def operator : Regex :=
  anyOf
    [literal ">=".toList, literal "<=".toList, literal "!=".toList, literal "=".toList,
      literal ">".toList, literal "<".toList, word "not like".toList, word "like".toList]

def keyword : Regex := anyOf [word "null".toList, word "empty".toList]

def parenthesis : Regex := one fun c => c = '(' || c = ')'

end Regex

namespace SubQuery

/-- The form of a full-text query: the opening, a text on one line without a closing mark in it, and
the closing mark. -/
def IsQuery (x : Text) : Prop :=
  ∃ word body, x = word ++ body ++ closing ∧ Text.fold word = Text.fold opening ∧
    '\n' ∉ body ∧ ¬ closing <:+: body

end SubQuery

namespace Pattern

/-- The expression of a pattern, if it stands in the table. -/
def expression? (grammar : NumberGrammar) : Pattern → Option Regex
  | subQuery => none
  | singleQuoted => some (Regex.quoted '\'')
  | doubleQuoted => some (Regex.quoted '"')
  | operator => some Regex.operator
  | keyword => some Regex.keyword
  | relation => some Regex.relation
  | field => some Regex.path
  | number => some (Regex.number grammar)
  | parenthesis => some Regex.parenthesis

/-- The lexemes that a pattern stands for, whatever comes before and after them. -/
def Form (grammar : NumberGrammar) (p : Pattern) (x : Text) : Prop :=
  match p.expression? grammar with
  | some r => r.Matches x
  | none => SubQuery.IsQuery x

/-- What the search for an entry of the table finds: the pattern and the size of its lexeme. -/
def row? (grammar : NumberGrammar) (t : Text) (p : Pattern) : Option (Pattern × Nat) := do
  let r ← p.expression? grammar
  let lexeme ← (r.first? t).filter fun x => !x.isEmpty
  some (p, Text.size lexeme)

/-- What the table finds at the front of a text. -/
def search? (grammar : NumberGrammar) (t : Text) : Option (Pattern × Nat) :=
  table.findSome? (row? grammar t)

end Pattern
end FilterQuery
