import FilterQuery.Token.Basic

/-!
# Faults

What can be wrong with the tokens of a query. Splitting a query into tokens never fails, so a fault
comes from a reader who asked for more: for recognised tokens only, or for a certain kind next.
-/

namespace FilterQuery

/-- Why a query is not as its reader wants it. -/
inductive Fault where
  /-- A piece that no rule of the language accepts. -/
  | unrecognized (lexeme : Text) (span : Span)
  /-- A token of another kind than the expected one. -/
  | unexpected (expected found : Kind) (lexeme : Text) (span : Span)
  /-- No token where one was expected. -/
  | unexpectedEnd (expected : Kind)
  deriving DecidableEq

namespace Fault

/-- The fault of meeting a token that is not recognised. -/
def ofUnrecognized (t : Token) : Fault := unrecognized t.raw t.span

/-- The fault of meeting a token where another kind was expected. -/
def ofUnexpected (expected : Kind) (t : Token) : Fault := unexpected expected t.kind t.raw t.span

/-- Where the fault is, unless it is that the query ended. -/
def span? : Fault → Option Span
  | unrecognized _ span | unexpected _ _ _ span => some span
  | unexpectedEnd _ => none

/-- A lexeme and its place, as the messages name them. -/
private def located (lexeme : Text) (span : Span) : Text :=
  "'".toList ++ lexeme ++ "' at position ".toList ++ span.display

/-- The message for a fault. -/
def message : Fault → Text
  | unrecognized lexeme span => "Unrecognized token ".toList ++ located lexeme span
  | unexpected expected found lexeme span =>
    "Unexpected token: expected ".toList ++ expected.spelling ++ ", found ".toList ++ found.spelling
      ++ " ".toList ++ located lexeme span
  | unexpectedEnd expected => "Unexpected end of input: expected ".toList ++ expected.spelling

end Fault

/-- The tokens themselves, or the fault of the first one that is not recognised. -/
def recognized (tokens : List Token) : Except Fault (List Token) :=
  match tokens.find? Token.isUnrecognized with
  | some t => .error (.ofUnrecognized t)
  | none => .ok tokens

end FilterQuery
