import FilterQuery.Text.Basic

/-!
# Decimal numerals

Offsets and counts are written in decimal, without sign and without leading zeros. Reading what was
written gives the number back, so two numbers are never written alike.
-/

namespace FilterQuery.Text

/-- The decimal numeral of a number. -/
def decimal (n : Nat) : Text := Nat.toDigits 10 n

/-- The number that a row of decimal digits stands for. -/
def decimalValue (t : Text) : Nat := Nat.ofDigitChars 10 t 0

@[simp] theorem decimalValue_decimal (n : Nat) : decimalValue (decimal n) = n :=
  Nat.ofDigitChars_ten_toDigits

theorem decimal_injective {m n : Nat} (h : decimal m = decimal n) : m = n := by
  rw [← decimalValue_decimal m, h, decimalValue_decimal]

theorem decimal_ne_nil (n : Nat) : decimal n ≠ [] := Nat.toDigits_ne_nil

theorem isDigit_of_mem_decimal {n : Nat} {c : Char} (h : c ∈ decimal n) : c.isDigit = true :=
  Nat.isDigit_of_mem_toDigits (by omega) (by omega) h

theorem not_mem_decimal {c : Char} (h : c.isDigit = false) (n : Nat) : c ∉ decimal n := by
  intro hmem
  rw [isDigit_of_mem_decimal hmem] at h
  simp at h

/-- A numeral has no zero in front unless it is the zero. -/
theorem head?_decimal_ne_zero {n : Nat} (h : n ≠ 0) : (decimal n).head? ≠ some '0' := by
  induction n using Nat.strongRecOn with
  | ind n ih =>
    unfold decimal
    by_cases hn : n < 10
    · simp [Nat.toDigits_of_lt_base hn, Nat.digitChar_eq_zero, h]
    · have hq : (decimal (n / 10)).head? ≠ some '0' := ih (n / 10) (by omega) (by omega)
      have hsome : (Nat.toDigits 10 (n / 10)).head?.isSome := by simp [Nat.toDigits_ne_nil]
      rwa [Nat.toDigits_of_base_le (by omega) (by omega), List.head?_append,
        Option.or_of_isSome hsome]

end FilterQuery.Text
