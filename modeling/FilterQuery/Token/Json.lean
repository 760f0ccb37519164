import FilterQuery.Config
import FilterQuery.Json.Layout
import FilterQuery.Json.Value
import FilterQuery.Text.Decimal
import FilterQuery.Token.Basic

/-!
# Tokens as JSON

Tokens are exchanged as JSON objects with the members `kind`, `value`, `raw` and `span`, and a span
has the members `start` and `end`. Kinds go by their names. Reading also accepts a record as an
array of its fields in this order, and it passes over members that it does not know.
-/

namespace FilterQuery

/-! ## Writing -/

/-- A span as an object at a given depth. -/
def Span.json (depth : Nat) (s : Span) : Text :=
  Json.object depth
    [("start".toList, Text.decimal s.start), ("end".toList, Text.decimal s.stop)]

/-- A token as an object at a given depth. -/
def Token.json (depth : Nat) (t : Token) : Text :=
  Json.object depth
    [("kind".toList, Json.quote t.kind.name), ("value".toList, Json.quote t.value),
      ("raw".toList, Json.quote t.raw), ("span".toList, t.span.json (depth + 1))]

/-- Tokens as an array. -/
def jsonOfTokens (tokens : List Token) : Text := Json.array 0 (tokens.map (Token.json 1))

/-! ## Reading -/

namespace Json.Value

/-- The kind that a value names. -/
def kind? (v : Value) : Option Kind := v.choice?.bind Kind.ofName?

/-- The number grammar that a value names. -/
def numberGrammar? (v : Value) : Option NumberGrammar := v.choice?.bind NumberGrammar.ofName?

/-- The span that a value is. -/
def span? (v : Value) : Option Span := do
  match ← v.fields? ["start".toList, "end".toList] with
  | [some start, some stop] => some { start := ← start.natural?, stop := ← stop.natural? }
  | _ => none

/-- The token that a value is. -/
def token? (v : Value) : Option Token := do
  match ← v.fields? ["kind".toList, "value".toList, "raw".toList, "span".toList] with
  | [some kind, some value, some raw, some span] =>
    some { kind := ← kind.kind?, value := ← value.text?, raw := ← raw.text?, span := ← span.span? }
  | _ => none

/-- The configuration that a value is. What it leaves open stays as it is by default. -/
def config? (v : Value) : Option Config := do
  match ← v.fields? ["numeric".toList] with
  | [some numeric] => some { numeric := ← numeric.numberGrammar? }
  | _ => some {}

end Json.Value
end FilterQuery
