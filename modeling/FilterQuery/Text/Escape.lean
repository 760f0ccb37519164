import FilterQuery.Text.Visible
import FilterQuery.Text.Basic

/-!
# Escapes

A character is shown by itself unless it is a quote mark that has to be told apart, a backslash, or
not visible. The escape of any character but itself starts with a backslash, and a backslash is
always escaped, so what was escaped can be told from what was not.

| character | shown as |
|---|---|
| NUL, tab, line feed, carriage return | `\0`, `\t`, `\n`, `\r` |
| backslash, marks to be told apart | after a backslash |
| any other that is not visible | its code point in hexadecimal, as in `\u{301}` |
-/

namespace FilterQuery

/-- The letter that stands for a control character after a backslash. -/
def escapeLetter? : Char → Option Char
  | '\x00' => some '0'
  | '\t' => some 't'
  | '\n' => some 'n'
  | '\r' => some 'r'
  | _ => none

/-- A character as it is shown where the given quote marks have to be told apart. -/
def escapeChar (marks : List Char) (c : Char) : Text :=
  match escapeLetter? c with
  | some letter => ['\\', letter]
  | none =>
    if c = '\\' ∨ c ∈ marks then ['\\', c]
    else if isVisible c then [c]
    else ['\\', 'u', '{'] ++ Nat.toDigits 16 c.toNat ++ ['}']

namespace Text

/-- A text as it is shown where the given quote marks have to be told apart. -/
def escaped (marks : List Char) (t : Text) : Text := t.flatMap (escapeChar marks)

/-- A text as it is shown between double quotes. -/
def quoted (t : Text) : Text := '"' :: escaped ['"'] t ++ ['"']

end Text
end FilterQuery
