import FilterQuery.Text.Escape
import Mathlib.Data.List.Basic

/-!
# Reading escapes

What a character is shown as between double quotes can be read off the front of any text that starts
with it (`readEscape?_escapeChar`): only escapes start with a backslash, and the letter behind it
says how far the escape goes. No character is shown by something that starts with a quote mark, so
the mark that closes a quoted text is told from all that stands before it, and what follows is told
apart as well (`escaped_append_inj`).

A newline is shown by an escape and is in none, so what is shown stays on one line
(`newline_not_mem_escaped`).
-/

namespace FilterQuery

/-! ## Hexadecimal numerals -/

/-- The value of a hexadecimal digit in lower case. -/
def hexDigitValue (c : Char) : Nat := if c.isDigit then c.toNat - 48 else c.toNat - 87

/-- The number that a row of hexadecimal digits stands for. -/
def hexadecimalValue (t : Text) : Nat := t.foldl (fun n c => 16 * n + hexDigitValue c) 0

theorem hexDigitValue_digitChar {n : Nat} (h : n < 16) : hexDigitValue (Nat.digitChar n) = n := by
  have hall : ∀ m ∈ List.range 16, hexDigitValue (Nat.digitChar m) = m := by decide
  exact hall n (List.mem_range.mpr h)

theorem hexadecimalValue_append_singleton (t : Text) (c : Char) :
    hexadecimalValue (t ++ [c]) = 16 * hexadecimalValue t + hexDigitValue c := by
  rw [hexadecimalValue, List.foldl_append]
  rfl

/-- Reading a numeral gives the number back. -/
theorem hexadecimalValue_toDigits (n : Nat) : hexadecimalValue (Nat.toDigits 16 n) = n := by
  rw [Nat.toDigits_eq_if (by omega)]
  split
  · next h => exact (Nat.zero_add _).trans (hexDigitValue_digitChar h)
  · rw [hexadecimalValue_append_singleton, hexadecimalValue_toDigits (n / 16),
      hexDigitValue_digitChar (Nat.mod_lt n (by omega))]
    omega
termination_by n

/-- A character that is no digit is not in a numeral. -/
theorem not_mem_toDigits {c : Char} (hdigit : ∀ m, c ≠ Nat.digitChar m) (n : Nat) :
    c ∉ Nat.toDigits 16 n := by
  rw [Nat.toDigits_eq_if (by omega)]
  split
  · rw [List.mem_singleton]
    exact hdigit n
  · rw [List.mem_append, List.mem_singleton, not_or]
    exact ⟨not_mem_toDigits hdigit (n / 16), hdigit _⟩
termination_by n

theorem brace_not_mem_toDigits (n : Nat) : '}' ∉ Nat.toDigits 16 n :=
  not_mem_toDigits (fun _ => (Nat.digitChar_ne '}' (by decide)).symm) n

theorem newline_not_mem_toDigits (n : Nat) : '\n' ∉ Nat.toDigits 16 n :=
  not_mem_toDigits (fun _ => (Nat.digitChar_ne '\n' (by decide)).symm) n

/-! ## The escape of a character -/

/-- What a letter stands for behind a backslash. -/
def escapedBy : Char → Char
  | '0' => '\x00'
  | 't' => '\t'
  | 'n' => '\n'
  | 'r' => '\r'
  | mark => mark

/-- The character that is shown at the front of a text, and what follows it. -/
def readEscape? : Text → Option (Char × Text)
  | [] => none
  | c :: rest =>
    if c = '\\' then
      match rest with
      | [] => none
      | e :: rest =>
        if e = 'u' then
          let digits := (rest.drop 1).takeWhile (· ≠ '}')
          some (Char.ofNat (hexadecimalValue digits), (rest.drop 1).drop (digits.length + 1))
        else some (escapedBy e, rest)
    else some (c, rest)

/-- The number of a character in braces is read up to the closing brace. -/
theorem readEscape?_number (c : Char) (rest : Text) :
    readEscape? (['\\', 'u', '{'] ++ Nat.toDigits 16 c.toNat ++ ['}'] ++ rest) =
      some (c, rest) := by
  have hdigits : (Nat.toDigits 16 c.toNat ++ '}' :: rest).takeWhile (· ≠ '}')
      = Nat.toDigits 16 c.toNat := by
    rw [List.takeWhile_append_of_pos, List.takeWhile_cons_of_neg (by simp), List.append_nil]
    intro d hd
    rw [decide_eq_true_iff]
    rintro rfl
    exact brace_not_mem_toDigits c.toNat hd
  have hrest : (Nat.toDigits 16 c.toNat ++ '}' :: rest).drop
      ((Nat.toDigits 16 c.toNat).length + 1) = rest := by
    rw [← List.drop_drop, List.drop_left]
    rfl
  simp only [List.cons_append, List.nil_append, List.append_assoc, readEscape?, ↓reduceIte,
    List.drop_one, List.tail_cons, hdigits, hrest, hexadecimalValue_toDigits, Char.ofNat_toNat]

/-- A character is read off what it is shown as, whatever follows. -/
theorem readEscape?_escapeChar (c : Char) (rest : Text) :
    readEscape? (escapeChar ['"'] c ++ rest) = some (c, rest) := by
  unfold escapeChar
  split
  · next letter hletter =>
    unfold escapeLetter? at hletter
    split at hletter <;> simp at hletter <;> subst hletter <;> rfl
  · split
    · next hmark =>
      rcases hmark with rfl | hmark
      · rfl
      · obtain rfl := List.mem_singleton.mp hmark
        rfl
    · next hmark =>
      split
      · have hc : c ≠ '\\' := fun h => hmark (Or.inl h)
        exact if_neg hc
      · exact readEscape?_number c rest

theorem escapeChar_append_inj {c d : Char} {x y : Text}
    (h : escapeChar ['"'] c ++ x = escapeChar ['"'] d ++ y) : c = d ∧ x = y := by
  have hread := readEscape?_escapeChar c x
  rw [h, readEscape?_escapeChar, Option.some.injEq, Prod.mk.injEq] at hread
  exact ⟨hread.1.symm, hread.2.symm⟩

/-- What a character is shown as starts with something, and that is no quote mark. -/
theorem exists_escapeChar_eq_cons (c : Char) :
    ∃ d tail, escapeChar ['"'] c = d :: tail ∧ d ≠ '"' := by
  unfold escapeChar
  split
  · exact ⟨'\\', _, rfl, by decide⟩
  · split
    · exact ⟨'\\', _, rfl, by decide⟩
    · next hmark =>
      split
      · exact ⟨c, [], rfl, fun h => hmark (Or.inr (List.mem_singleton.mpr h))⟩
      · exact ⟨'\\', _, rfl, by decide⟩

/-- No character is shown as anything with a newline in it. -/
theorem newline_not_mem_escapeChar (marks : List Char) (c : Char) : '\n' ∉ escapeChar marks c := by
  rw [escapeChar]
  split
  · next letter hletter =>
    have hne : '\n' ≠ letter := by
      unfold escapeLetter? at hletter
      split at hletter <;> simp at hletter <;> subst hletter <;> decide
    simp [hne]
  · next hletter =>
    have hne : '\n' ≠ c := by
      rintro rfl
      simp [escapeLetter?] at hletter
    split
    · simp [hne]
    · split
      · simp [hne]
      · simp [newline_not_mem_toDigits]

/-! ## Quoted texts -/

namespace Text

theorem newline_not_mem_escaped (marks : List Char) (t : Text) : '\n' ∉ escaped marks t := by
  rw [escaped, List.mem_flatMap]
  rintro ⟨c, -, hmem⟩
  exact newline_not_mem_escapeChar marks c hmem

theorem newline_not_mem_quoted (t : Text) : '\n' ∉ quoted t :=
  List.not_mem_append (List.not_mem_cons_of_ne_of_not_mem (by decide)
    (newline_not_mem_escaped _ t)) (by decide)

theorem escaped_cons (marks : List Char) (c : Char) (t : Text) :
    escaped marks (c :: t) = escapeChar marks c ++ escaped marks t := List.flatMap_cons

/-- A quote mark stands behind the last character of a quoted text, so it is not taken for a part of
it. -/
theorem quote_append_ne (c : Char) (u x v : Text) :
    '"' :: u ≠ escapeChar ['"'] c ++ x ++ '"' :: v := by
  obtain ⟨d, tail, hescape, hd⟩ := exists_escapeChar_eq_cons c
  rw [hescape]
  intro h
  exact hd (List.cons.inj h).1.symm

/-- What is shown up to the closing mark tells the text and what follows the mark. -/
theorem escaped_append_inj : ∀ {x y u v : Text},
    escaped ['"'] x ++ '"' :: u = escaped ['"'] y ++ '"' :: v → x = y ∧ u = v
  | [], [], u, v, h => ⟨rfl, (List.cons.inj h).2⟩
  | [], d :: y, u, v, h => by
    rw [escaped_cons] at h
    exact absurd h (quote_append_ne d u (escaped ['"'] y) v)
  | c :: x, [], u, v, h => by
    rw [escaped_cons] at h
    exact absurd h.symm (quote_append_ne c v (escaped ['"'] x) u)
  | c :: x, d :: y, u, v, h => by
    rw [escaped_cons, escaped_cons, List.append_assoc, List.append_assoc] at h
    obtain ⟨rfl, hrest⟩ := escapeChar_append_inj h
    obtain ⟨rfl, rfl⟩ := escaped_append_inj hrest
    exact ⟨rfl, rfl⟩

theorem quoted_append_inj {x y u v : Text} (h : quoted x ++ u = quoted y ++ v) :
    x = y ∧ u = v := by
  simp only [quoted, List.cons_append, List.append_assoc, List.nil_append, List.cons.injEq,
    true_and] at h
  exact escaped_append_inj h

end Text
end FilterQuery
