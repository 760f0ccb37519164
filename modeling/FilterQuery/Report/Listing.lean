import FilterQuery.Text.Escape
import FilterQuery.Token.Basic

/-!
# Listing tokens

A listing shows the tokens in columns: the kind, the span, and the characters as they stand in the
query. The value follows in quotes if it is not just these characters. The characters are shown as
they are, line breaks included.
-/

namespace FilterQuery.Report

/-- A text filled up with spaces to a width, or the text itself if it is wider. -/
def padRight (width : Nat) (t : Text) : Text := t ++ List.replicate (width - t.length) ' '

/-- The entry of one token. -/
def entry (t : Token) : Text :=
  padRight 16 t.kind.spelling ++ [' '] ++ padRight 9 t.span.display ++ [' '] ++ t.raw
    ++ (if t.value = t.raw then [] else " => ".toList ++ Text.quoted t.value) ++ ['\n']

/-- The entries of some tokens, one after the other. -/
def listing (tokens : List Token) : Text := tokens.flatMap entry

end FilterQuery.Report
