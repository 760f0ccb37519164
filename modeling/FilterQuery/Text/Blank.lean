import FilterQuery.Text.CharSet
import FilterQuery.Text.Basic

/-!
# Blank characters

The characters between lexemes are those with the Unicode property `White_Space`. A text is cut into
its leading blanks and what follows them.
-/

namespace FilterQuery

/-- The characters with the property `White_Space`. -/
def blankChars : CharSet :=
  [(0x9, 0xd), (0x20, 0x20), (0x85, 0x85), (0xa0, 0xa0), (0x1680, 0x1680), (0x2000, 0x200a),
    (0x2028, 0x2029), (0x202f, 0x202f), (0x205f, 0x205f), (0x3000, 0x3000)]

/-- Whether a character is blank. -/
def isBlank (c : Char) : Bool := blankChars.contains c

namespace Text

/-- The blanks at the front of a text. -/
def blanks (t : Text) : Text := t.takeWhile isBlank

/-- A text without the blanks at its front. -/
def skipBlanks (t : Text) : Text := t.dropWhile isBlank

theorem blanks_append_skipBlanks (t : Text) : blanks t ++ skipBlanks t = t :=
  List.takeWhile_append_dropWhile

/-- What follows the blanks starts with a character that is not one. -/
theorem isBlank_of_skipBlanks_eq_cons {t rest : Text} {c : Char} (h : skipBlanks t = c :: rest) :
    isBlank c = false := by
  have hhead := List.head?_dropWhile_not isBlank t
  simpa [← skipBlanks.eq_1, h] using hhead

end Text
end FilterQuery
