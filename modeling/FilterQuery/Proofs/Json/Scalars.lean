import FilterQuery.Json.Value

/-!
# Scalars read back

A text written as a JSON string is read as that text, whatever characters it has, and a number
written in decimal is read as that number. A string ends by its own closing mark, so anything may
follow it. A number goes on as long as its characters do, so what follows it has to be known not to
continue it: in a text laid out line by line that is a comma, the end of a line or nothing at all.

## Contents

* `readUnits?_quoted`: a string is read up to its own closing mark
* `Delimited`: what follows a value in a text that is laid out
* `Symbol.next?_quote`, `Symbol.next?_decimal`: the symbols that scalars are read as
-/

namespace FilterQuery.Json

/-! ## Strings -/

theorem hexValue?_digitChar : ∀ n < 16, hexValue? (Nat.digitChar n) = some n := by decide

/-- The four digits written for a control character stand for its number. -/
theorem hexUnit?_control {n : Nat} (h : n < 0x20) :
    hexUnit? '0' '0' (Nat.digitChar (n / 16)) (Nat.digitChar (n % 16)) = some n := by
  have hzero : hexValue? '0' = some 0 := hexValue?_digitChar 0 (by omega)
  have hhigh := hexValue?_digitChar (n / 16) (by omega)
  have hlow := hexValue?_digitChar (n % 16) (by omega)
  simp only [hexUnit?, hzero, hhigh, hlow, Option.bind_eq_bind, Option.bind_some,
    Option.some.injEq]
  omega

/-- What is written for a character is read as the number of this character. -/
theorem readUnits?_escapeChar (c : Char) (rest : Text) :
    readUnits? (escapeChar c ++ rest) =
      (readUnits? rest).map fun (units, after) => (c.toNat :: units, after) := by
  unfold escapeChar
  cases hletter : escapeLetter? c with
  | some letter =>
    have hback := escaped?_of_escapeLetter? hletter
    have hu : letter ≠ 'u' := by
      rintro rfl
      simp [escaped?] at hback
    rw [List.cons_append, List.singleton_append, readUnits?.eq_def]
    cases hread : readUnits? rest <;> simp [hu, hback, hread]
  | none =>
    have hmark : c ≠ '"' := by
      rintro rfl
      simp [escapeLetter?] at hletter
    have hslash : c ≠ '\\' := by
      rintro rfl
      simp [escapeLetter?] at hletter
    by_cases hcontrol : c.toNat < 0x20
    · cases hread : readUnits? rest <;> simp [hcontrol, readUnits?, hexUnit?_control, hread]
    · simp only [hcontrol, ↓reduceIte, List.singleton_append]
      rw [readUnits?.eq_def]
      cases hread : readUnits? rest <;> simp [hcontrol, hmark, hslash, hread]

/-- The marks within a written text are all escaped, so that the first bare one ends it. -/
theorem readUnits?_quoted (t rest : Text) :
    readUnits? (t.flatMap escapeChar ++ '"' :: rest) = some (t.map Char.toNat, rest) := by
  induction t with
  | nil =>
    rw [List.flatMap_nil, List.nil_append, readUnits?.eq_def]
    rfl
  | cons c t ih => simp [readUnits?_escapeChar, ih]

/-! ## Numbers -/

/-- Text that continues no value: none, or one that starts with a comma or with a new line. -/
def Delimited (t : Text) : Prop := ∀ c ∈ t.head?, c = ',' ∨ c = '\n'

theorem delimited_nil : Delimited [] := by simp [Delimited]

theorem delimited_comma (t : Text) : Delimited (',' :: t) := by simp [Delimited]

theorem delimited_newline (t : Text) : Delimited ('\n' :: t) := by simp [Delimited]

namespace Delimited

variable {t : Text}

/-- No fraction and no exponent starts with such a character. -/
theorem cutFraction (h : Delimited t) : FilterQuery.cutFraction t = ([], t) := by
  cases t with
  | nil => rfl
  | cons c t =>
    have hc : c = ',' ∨ c = '\n' := h c (by simp)
    rcases hc with rfl | rfl <;> simp [FilterQuery.cutFraction]

theorem cutExponent (h : Delimited t) : FilterQuery.cutExponent t = ([], t) := by
  cases t with
  | nil => rfl
  | cons c t =>
    have hc : c = ',' ∨ c = '\n' := h c (by simp)
    rcases hc with rfl | rfl <;> simp [FilterQuery.cutExponent]

/-- Digits in front of such a text are all the digits there are. -/
theorem digits_append (h : Delimited t) {x : Text} (hx : ∀ c ∈ x, c.isDigit = true) :
    digits (x ++ t) = x ∧ afterDigits (x ++ t) = t := by
  unfold digits afterDigits
  rw [List.takeWhile_append_of_pos hx, List.dropWhile_append_of_pos hx]
  cases t with
  | nil => simp
  | cons c t =>
    have hc : c = ',' ∨ c = '\n' := h c (by simp)
    rcases hc with rfl | rfl <;> simp [Char.isDigit]

end Delimited

namespace Symbol

theorem readUnsigned?_decimal (n : Nat) {rest : Text} (h : Delimited rest) :
    readUnsigned? (Text.decimal n ++ rest) = some (natural n, rest) := by
  obtain ⟨hdigits, hafter⟩ := h.digits_append fun c hc => Text.isDigit_of_mem_decimal (n := n) hc
  have hproper : ¬(Text.decimal n = [] ∨
      ((Text.decimal n).head? = some '0' ∧ (Text.decimal n).length ≠ 1)) := by
    rintro (hnil | ⟨hhead, hlong⟩)
    · exact Text.decimal_ne_nil n hnil
    · by_cases hn : n = 0
      · subst hn
        exact hlong rfl
      · exact Text.head?_decimal_ne_zero hn hhead
  simp only [readUnsigned?, hdigits, hafter, h.cutFraction, h.cutExponent]
  rw [if_neg hproper]
  simp

/-- A digit starts a number without a sign and no other symbol. -/
theorem read?_of_isDigit {c : Char} (h : c.isDigit = true) (rest : Text) :
    read? c rest = readUnsigned? (c :: rest) := by
  unfold read?
  split
  case h_12 => rfl
  all_goals simp [Char.isDigit] at h

theorem isSpace_of_isDigit {c : Char} (h : c.isDigit = true) : isSpace c = false := by
  have hne : c ≠ ' ' ∧ c ≠ '\t' ∧ c ≠ '\n' ∧ c ≠ '\r' := by
    refine ⟨?_, ?_, ?_, ?_⟩ <;>
    · rintro rfl
      simp [Char.isDigit] at h
  simp [isSpace, hne]

theorem next?_quote (t rest : Text) : next? (quote t ++ rest) = some (string (some t), rest) := by
  have hcons : quote t ++ rest = '"' :: (t.flatMap escapeChar ++ '"' :: rest) := by simp [quote]
  rw [hcons, next?_cons rfl]
  simp [read?, readUnits?_quoted, joinUnits?_map_toNat]

theorem next?_decimal (n : Nat) {rest : Text} (h : Delimited rest) :
    next? (Text.decimal n ++ rest) = some (natural n, rest) := by
  obtain ⟨c, x, hcx⟩ := List.exists_cons_of_ne_nil (Text.decimal_ne_nil n)
  have hc : c.isDigit = true := Text.isDigit_of_mem_decimal (n := n) (by simp [hcx])
  have hread := readUnsigned?_decimal n h
  rw [hcx, List.cons_append] at hread ⊢
  rw [next?_cons (isSpace_of_isDigit hc), read?_of_isDigit hc, hread]

end Symbol
end FilterQuery.Json
