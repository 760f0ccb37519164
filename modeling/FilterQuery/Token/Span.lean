import FilterQuery.Text.Decimal

/-!
# Spans

A span says where something stands in a text, by the byte offsets of its two ends. Spans may come
from outside, so nothing is assumed of the offsets: a length, a slice and a column are given for
any two numbers.
-/

namespace FilterQuery

/-- The bytes from one offset up to another, the second not included. -/
structure Span where
  start : Nat := 0
  stop : Nat := 0
  deriving DecidableEq

namespace Span

/-- Bytes that a span covers, if its ends are in order. -/
def length? (s : Span) : Option Nat := if s.start ≤ s.stop then some (s.stop - s.start) else none

/-- Whether both ends are at the same offset. -/
def isEmpty (s : Span) : Bool := s.start = s.stop

/-- The part of a text that a span covers, if its ends are character boundaries of it in order. -/
def slice? (s : Span) (source : Text) : Option Text := source.slice? s.start s.stop

/-- The column at which a span starts: one more than the characters before it or, if it does not
start at a character boundary of the text, one more than its start offset. -/
def column (s : Span) (source : Text) : Nat :=
  match source.splitAt? s.start with
  | some (before, _) => before.length + 1
  | none => s.start + 1

/-- A span in messages, as in `3..7`. -/
def display (s : Span) : Text := Text.decimal s.start ++ "..".toList ++ Text.decimal s.stop

end Span
end FilterQuery
