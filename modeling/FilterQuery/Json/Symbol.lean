import FilterQuery.Json.Quoted
import FilterQuery.Lexeme.Number
import FilterQuery.Text.Decimal

/-!
# Symbols of JSON texts

A JSON text is a row of symbols: brackets, separators and scalars, with white space among them.
Whether the symbols are in a proper order is another matter (`Json.Value`). Two scalars may even
touch each other here, since no order allows one right after the other.

Of a number only the value is kept, if it is written as a plain natural one, and nothing otherwise.

## Termination

`ofText?` goes on with what a symbol leaves, which is shorter than what the symbol was read from
(`length_next?_lt`).
-/

namespace FilterQuery.Json

/-- A symbol of a JSON text. -/
inductive Symbol where
  | openArray
  | closeArray
  | openObject
  | closeObject
  | comma
  | colon
  | null
  | bool (value : Bool)
  /-- A number written without sign, fraction and exponent. -/
  | natural (value : Nat)
  /-- Any other number. -/
  | otherNumber
  /-- A string; without its text if it holds a half of a surrogate pair alone. -/
  | string (text : Option Text)
  deriving DecidableEq

namespace Symbol

/-- The number at the front of a text that has no sign, and what follows it. -/
def readUnsigned? (t : Text) : Option (Symbol × Text) :=
  let (fraction, rest) := cutFraction (afterDigits t)
  let (exponent, after) := cutExponent rest
  if digits t = [] ∨ ((digits t).head? = some '0' ∧ (digits t).length ≠ 1) then none
  else if fraction = [] ∧ exponent = [] then some (natural (Text.decimalValue (digits t)), after)
  else some (otherNumber, after)

/-- A word at the front of a text, as the symbol that it is, and what follows it. -/
def readWord? (word : Text) (s : Symbol) (t : Text) : Option (Symbol × Text) :=
  if word.isPrefixOf t then some (s, t.drop word.length) else none

/-- The symbol at the front of a text, whose first character is given apart, and what follows. -/
def read? (c : Char) (rest : Text) : Option (Symbol × Text) :=
  match c with
  | '[' => some (openArray, rest)
  | ']' => some (closeArray, rest)
  | '{' => some (openObject, rest)
  | '}' => some (closeObject, rest)
  | ',' => some (comma, rest)
  | ':' => some (colon, rest)
  | '"' => (readUnits? rest).map fun (units, after) => (string (joinUnits? units), after)
  | 'n' => readWord? "ull".toList null rest
  | 't' => readWord? "rue".toList (bool true) rest
  | 'f' => readWord? "alse".toList (bool false) rest
  | '-' => (readUnsigned? rest).map fun (_, after) => (otherNumber, after)
  | c => readUnsigned? (c :: rest)

theorem length_readUnsigned?_lt {t after : Text} {s : Symbol}
    (h : readUnsigned? t = some (s, after)) : after.length < t.length := by
  have hd := congrArg List.length (digits_append_afterDigits t)
  have hf := congrArg List.length (cutFraction_append (afterDigits t))
  have he := congrArg List.length (cutExponent_append (cutFraction (afterDigits t)).2)
  simp only [List.length_append] at hd hf he
  simp only [readUnsigned?] at h
  split at h
  · simp at h
  · next hne =>
    have hpos : 0 < (digits t).length := by
      simp only [not_or] at hne
      exact List.length_pos_iff.mpr hne.1
    split at h <;>
    · simp only [Option.some.injEq, Prod.mk.injEq] at h
      rw [← h.2]
      omega

theorem length_readWord?_le {word t after : Text} {s r : Symbol}
    (h : readWord? word s t = some (r, after)) : after.length ≤ t.length := by
  simp only [readWord?] at h
  split at h
  · simp only [Option.some.injEq, Prod.mk.injEq] at h
    rw [← h.2]
    exact (List.drop_sublist _ _).length_le
  · simp at h

/-- A symbol takes at least one character. -/
theorem length_read?_lt {c : Char} {rest after : Text} {s : Symbol}
    (h : read? c rest = some (s, after)) : after.length < (c :: rest).length := by
  unfold read? at h
  split at h
  case h_7 =>
    obtain ⟨⟨units, after'⟩, hu, heq⟩ := Option.map_eq_some_iff.mp h
    simp only [Prod.mk.injEq] at heq
    rw [← heq.2]
    exact Nat.lt_succ_of_lt (length_readUnits?_lt hu)
  case h_8 | h_9 | h_10 => exact Nat.lt_succ_of_le (length_readWord?_le h)
  case h_11 =>
    obtain ⟨⟨s', after'⟩, hu, heq⟩ := Option.map_eq_some_iff.mp h
    simp only [Prod.mk.injEq] at heq
    rw [← heq.2]
    exact Nat.lt_succ_of_lt (length_readUnsigned?_lt hu)
  case h_12 => exact length_readUnsigned?_lt h
  all_goals
    simp only [Option.some.injEq, Prod.mk.injEq] at h
    simp [h.2]

/-! ## Rows of symbols -/

/-- Whether a character is white space between symbols. -/
def isSpace (c : Char) : Bool := c = ' ' || c = '\t' || c = '\n' || c = '\r'

/-- The first symbol of a text behind white space, and what follows it. -/
def next? (t : Text) : Option (Symbol × Text) :=
  match t.dropWhile isSpace with
  | [] => none
  | c :: rest => read? c rest

theorem length_next?_lt {t after : Text} {s : Symbol} (h : next? t = some (s, after)) :
    after.length < t.length := by
  unfold next? at h
  split at h
  · simp at h
  · next c rest hrest =>
    have hlt := length_read?_lt h
    have hle := (List.dropWhile_sublist (l := t) isSpace).length_le
    rw [hrest] at hle
    omega

theorem next?_space {c : Char} (h : isSpace c = true) (t : Text) : next? (c :: t) = next? t := by
  unfold next?
  rw [List.dropWhile_cons_of_pos h]

theorem next?_cons {c : Char} (h : isSpace c = false) (t : Text) : next? (c :: t) = read? c t := by
  unfold next?
  rw [List.dropWhile_cons_of_neg (by simp [h])]

/-- The symbols of a text. -/
def ofText? (t : Text) : Option (List Symbol) :=
  if t.dropWhile isSpace = [] then some []
  else
    match _h : next? t with
    | none => none
    | some (s, after) => (ofText? after).map (s :: ·)
termination_by t.length
decreasing_by exact length_next?_lt _h

theorem ofText?_of_dropWhile_eq_nil {t : Text} (h : t.dropWhile isSpace = []) :
    ofText? t = some [] := by
  rw [ofText?, if_pos h]

theorem ofText?_of_next? {t after : Text} {s : Symbol} (h : next? t = some (s, after)) :
    ofText? t = (ofText? after).map (s :: ·) := by
  have hne : t.dropWhile isSpace ≠ [] := by
    intro hnil
    simp [next?, hnil] at h
  rw [ofText?, if_neg hne]
  split
  · next heq => simp [h] at heq
  · next heq =>
    rw [h] at heq
    simp only [Option.some.injEq, Prod.mk.injEq] at heq
    obtain ⟨rfl, rfl⟩ := heq
    rfl

end Symbol
end FilterQuery.Json
