import FilterQuery.Config
import FilterQuery.Text.Dotted

/-!
# Numbers

A number in a query starts with a digit: digits, groups of digits after points as the grammar
allows, and an exponent if there is a complete one. A point or an `e` that no digits follow is left
to what comes next.

A text that denotes a number may also have a sign, end in a point or start with one. Such texts are
no lexemes of a query, but they may be given a meaning on their own (`isNumeral`, `isInteger`).
-/

namespace FilterQuery

/-- The digits at the front of a text. -/
def digits (t : Text) : Text := t.takeWhile Char.isDigit

/-- What follows the digits at the front of a text. -/
def afterDigits (t : Text) : Text := t.dropWhile Char.isDigit

theorem digits_append_afterDigits (t : Text) : digits t ++ afterDigits t = t :=
  List.takeWhile_append_dropWhile

/-! ## Parts of a number -/

/-- The sign at the front of a text, if there is one, and what follows it. -/
def cutSign : Text → Text × Text
  | '+' :: rest => (['+'], rest)
  | '-' :: rest => (['-'], rest)
  | t => ([], t)

theorem cutSign_append (t : Text) : (cutSign t).1 ++ (cutSign t).2 = t := by
  fun_cases cutSign t <;> simp

/-- The exponent at the front of a text, if there is a complete one, and what follows it. -/
def cutExponent : Text → Text × Text
  | [] => ([], [])
  | e :: rest =>
    let (sign, body) := cutSign rest
    if (e = 'e' ∨ e = 'E') ∧ digits body ≠ [] then (e :: sign ++ digits body, afterDigits body)
    else ([], e :: rest)

theorem cutExponent_append : ∀ t : Text, (cutExponent t).1 ++ (cutExponent t).2 = t
  | [] => rfl
  | e :: rest => by
    simp only [cutExponent]
    split
    · simp [digits_append_afterDigits, cutSign_append]
    · rfl

/-- The point and its digits at the front of a text, if they are there, and what follows them. -/
def cutFraction : Text → Text × Text
  | [] => ([], [])
  | c :: rest =>
    if c = '.' ∧ digits rest ≠ [] then (c :: digits rest, afterDigits rest) else ([], c :: rest)

theorem cutFraction_append : ∀ t : Text, (cutFraction t).1 ++ (cutFraction t).2 = t
  | [] => rfl
  | c :: rest => by
    simp only [cutFraction]
    split
    · simp [digits_append_afterDigits]
    · rfl

/-- Reads on from inside the digits of a number, up to its exponent. -/
def cutMantissa : NumberGrammar → Text → Text × Text
  | .strict, t =>
    let (fraction, after) := cutFraction (afterDigits t)
    (digits t ++ fraction, after)
  | .compat, t => Text.cutDotted Char.isDigit Char.isDigit t

theorem cutMantissa_append : ∀ (grammar : NumberGrammar) (t : Text),
    (cutMantissa grammar t).1 ++ (cutMantissa grammar t).2 = t
  | .strict, t => by
    simp [cutMantissa, cutFraction_append, digits_append_afterDigits]
  | .compat, t => Text.cutDotted_append Char.isDigit Char.isDigit t

/-! ## Numbers in a query -/

/-- The number at the front of a text, and what follows it. -/
def cutNumber? (grammar : NumberGrammar) : Text → Option (Text × Text)
  | [] => none
  | c :: rest =>
    if c.isDigit then
      let (mantissa, rest) := cutMantissa grammar rest
      let (exponent, after) := cutExponent rest
      some (c :: mantissa ++ exponent, after)
    else none

theorem append_of_cutNumber? {grammar : NumberGrammar} :
    ∀ {t number after : Text}, cutNumber? grammar t = some (number, after) →
      number ++ after = t ∧ number ≠ []
  | [], number, after, h => by simp [cutNumber?] at h
  | c :: rest, number, after, h => by
    by_cases hc : c.isDigit
    · simp only [cutNumber?, hc, ↓reduceIte, Option.some.injEq, Prod.mk.injEq] at h
      obtain ⟨rfl, rfl⟩ := h
      simp [cutExponent_append, cutMantissa_append]
    · simp [cutNumber?, hc] at h

/-! ## Texts that denote a number -/

/-- Whether a text denotes a number: a sign or none, digits with or without a point among or around
them, an exponent or none. -/
def isNumeral (t : Text) : Bool :=
  let body := (cutSign t).2
  match afterDigits body with
  | '.' :: rest => (digits body ≠ [] ∨ digits rest ≠ []) ∧ (cutExponent (afterDigits rest)).2 = []
  | rest => digits body ≠ [] ∧ (cutExponent rest).2 = []

/-- Whether a text denotes a whole number: digits, with a minus sign or no sign. -/
def isInteger : Text → Bool
  | '-' :: rest => rest ≠ [] ∧ rest.all Char.isDigit
  | t => t ≠ [] ∧ t.all Char.isDigit

end FilterQuery
