import FilterQuery.Text.Basic

/-!
# Kinds of tokens

The kinds that a token of a query can have, with their two writings: a `name`, which identifies the
kind in data, and a `spelling`, which stands for it in messages. A kind of fixed wording is spelled
as in a query, and `ofSpelling?` recognises that wording in any case of its ASCII letters.

Names are told apart by `ofName?`, which undoes `name`.
-/

namespace FilterQuery

/-- What a token is. -/
inductive Kind where
  /-- A field path such as `age` or `address.city`. -/
  | field
  /-- A field path through a relation, such as `asset:owner.name`. -/
  | relation
  /-- A whole number. -/
  | integer
  /-- A number with a fraction or an exponent. -/
  | float
  /-- A quoted text. -/
  | string
  /-- A full-text query such as `query("some words")`. -/
  | subQuery
  | null
  | empty
  | equal
  | notEqual
  | greater
  | less
  | greaterEqual
  | lessEqual
  | like
  | notLike
  | and
  | or
  | leftParen
  | rightParen
  /-- Something that no rule of the language accepts. -/
  | unrecognized
  deriving DecidableEq

namespace Kind

/-- Every kind, once. -/
def all : List Kind :=
  [field, relation, integer, float, string, subQuery, null, empty, equal, notEqual, greater, less,
    greaterEqual, lessEqual, like, notLike, and, or, leftParen, rightParen, unrecognized]

/-- The name of a kind in data. -/
def name : Kind → Text
  | field => "FIELDNAME".toList
  | relation => "RELATION_FIELD".toList
  | integer => "INTEGER".toList
  | float => "FLOAT".toList
  | string => "STRING".toList
  | subQuery => "QUERY_STRING".toList
  | null => "NULL".toList
  | empty => "EMPTY".toList
  | equal => "EQ".toList
  | notEqual => "NEQ".toList
  | greater => "GT".toList
  | less => "LT".toList
  | greaterEqual => "GTE".toList
  | lessEqual => "LTE".toList
  | like => "LIKE".toList
  | notLike => "NOT_LIKE".toList
  | and => "AND".toList
  | or => "OR".toList
  | leftParen => "LPAREN".toList
  | rightParen => "RPAREN".toList
  | unrecognized => "UNRECOGNIZED".toList

/-- The wording of a kind in messages: as in a query where the kind has one wording, else its
name. -/
def spelling : Kind → Text
  | equal => "=".toList
  | notEqual => "!=".toList
  | greater => ">".toList
  | less => "<".toList
  | greaterEqual => ">=".toList
  | lessEqual => "<=".toList
  | notLike => "NOT LIKE".toList
  | leftParen => "(".toList
  | rightParen => ")".toList
  | other => other.name

/-- The kind of a given name. -/
def ofName? (t : Text) : Option Kind := all.find? fun k => k.name = t

theorem ofName?_name (k : Kind) : ofName? k.name = some k := by cases k <;> decide

/-- Names tell the kinds apart. -/
theorem name_injective {k l : Kind} (h : k.name = l.name) : k = l := by
  have hl := ofName?_name l
  rw [← h, ofName?_name k] at hl
  exact Option.some.inj hl

/-! ## Families of kinds -/

/-- The comparison operators. -/
def isOperator : Kind → Bool
  | equal | notEqual | greater | less | greaterEqual | lessEqual | like | notLike => true
  | _ => false

/-- The kinds that may stand to the right of a comparison operator. -/
def isValue : Kind → Bool
  | integer | float | string | null | empty => true
  | _ => false

/-- The kinds that name a field, through a relation or not. -/
def isField : Kind → Bool
  | field | relation => true
  | _ => false

/-! ## Kinds of fixed wording -/

/-- The kinds that have one wording in a query. -/
def worded : List Kind :=
  [equal, notEqual, greater, less, greaterEqual, lessEqual, like, notLike, and, or, leftParen,
    rightParen, null, empty]

/-- The kind whose wording a text is, in any case of its ASCII letters. -/
def ofSpelling? (t : Text) : Option Kind := worded.find? fun k => Text.fold k.spelling = Text.fold t

theorem ofSpelling?_spelling {k : Kind} (h : k ∈ worded) : ofSpelling? k.spelling = some k := by
  revert k
  decide

theorem fold_spelling_of_ofSpelling? {t : Text} {k : Kind} (h : ofSpelling? t = some k) :
    k ∈ worded ∧ Text.fold k.spelling = Text.fold t :=
  ⟨List.mem_of_find?_eq_some h, by simpa using List.find?_some h⟩

end Kind
end FilterQuery
