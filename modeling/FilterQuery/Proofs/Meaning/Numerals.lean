import FilterQuery.Proofs.Meaning.Folding

/-!
# Texts that denote a number

A text that denotes a number has a sign or none, a mantissa, and an exponent or none. The mantissa
is digits, which a point and further digits may follow, or a point that digits follow. A whole
number is digits with a minus sign or none.

Both are written as expressions here, and the tests are tests for them (`isNumeral_iff`,
`isInteger_iff`). The tests never go back: no part of a numeral can start with a character of the
part before it, so each part ends where its longest match does (`Leaves.matches_seq_iff`).
-/

namespace FilterQuery

namespace Regex

variable {x t : Text}

/-! ## The expressions -/

/-- A point and any number of digits. -/
def point : Regex := seq (char '.') (star (one Char.isDigit))

/-- Digits that a point may follow, or a fraction. -/
def mantissa : Regex := alt (seq digits (opt point)) fraction

def numeral : Regex := seq (opt sign) (seq mantissa (opt exponent))

def integer : Regex := seq (opt (char '-')) digits

/-! ## Digits -/

theorem matches_digits_iff : Matches digits x ↔ x ≠ [] ∧ x.all Char.isDigit = true := by
  constructor
  · intro h
    refine ⟨fun hnil => absurd (nullable_of_matches h hnil) (by decide), ?_⟩
    rw [List.all_eq_true]
    intro c hc
    simpa [digits, plus, uses] using uses_of_matches h c hc
  · rintro ⟨hne, h⟩
    rw [List.all_eq_true] at h
    obtain ⟨c, rest, rfl⟩ := List.exists_cons_of_ne_nil hne
    rw [List.forall_mem_cons] at h
    exact .seq (.one h.1) (matches_star_one h.2)

theorem digits_cons_of_not {c : Char} (hc : c.isDigit = false) (t : Text) :
    FilterQuery.digits (c :: t) = [] :=
  List.takeWhile_cons_of_neg (by simp [hc])

/-! ## The mantissa -/

/-- Nothing that starts with a certain character is found where another one stands. -/
theorem ends_char_eq_nil {c : Char} (a : Regex) (h : ∀ rest, t ≠ c :: rest) :
    ends (seq (char c) a) t = [] := by
  cases t with
  | nil => rfl
  | cons d rest => exact ends_char_of_ne a rest fun hd => h rest (by rw [hd])

theorem leaves_opt_point_cons (rest : Text) :
    Leaves (opt point) ('.' :: rest) (afterDigits rest) :=
  .opt (.of_ends_eq (ends_char_cons '.' _ rest) (leaves_star_one Char.isDigit rest))

theorem leaves_opt_point_of_ne (h : ∀ rest, t ≠ '.' :: rest) : Leaves (opt point) t t :=
  leaves_opt_of_ends_eq_nil (ends_char_eq_nil _ h)

theorem digits_apart_point : Apart digits (opt point) := by
  intro c hc
  have hne : c ≠ '.' := by
    rintro rfl
    exact absurd hc (by decide)
  simp [starts, nullable, opt, point, char, hne]

/-- Behind digits, a mantissa goes as far as a point and digits do. -/
theorem leaves_mantissa_of_digits {y : Text} (h : FilterQuery.digits t ≠ [])
    (hpoint : Leaves (opt point) (afterDigits t) y) : Leaves mantissa t y := by
  refine .of_ends_eq ?_ ((leaves_digits h).of_seq_of_apart hpoint digits_apart_point)
  have hfraction : ends fraction t = [] := by
    refine ends_char_eq_nil digits ?_
    rintro rest rfl
    exact h (digits_cons_of_not (by decide) rest)
  rw [mantissa, ends_alt, hfraction, List.append_nil]

/-- Without digits in front, a mantissa is a fraction. -/
theorem ends_mantissa_of_no_digits (h : FilterQuery.digits t = []) :
    ends mantissa t = ends fraction t := by
  rw [mantissa, ends_alt, ends_seq, ends_digits_eq_nil h]
  rfl

/-! ## Numerals -/

theorem mantissa_apart_exponent : Apart mantissa (opt exponent) :=
  apart_exponent (by decide) (by decide)

theorem sign_apart_mantissa : Apart (opt sign) (seq mantissa (opt exponent)) := by
  intro c hc
  have hc : c = '+' ∨ c = '-' := by simpa [uses, opt, sign] using hc
  rcases hc with rfl | rfl <;> decide

theorem matches_opt_exponent_iff : Matches (opt exponent) t ↔ (cutExponent t).2 = [] :=
  (leaves_cutExponent t).matches_iff

theorem not_matches_seq_of_ends_eq_nil {a b : Regex} (h : ends a t = []) :
    ¬ Matches (seq a b) t := by
  rw [← nil_mem_ends_iff, ends_seq, h]
  exact List.not_mem_nil

theorem afterDigits_of_no_digits (h : FilterQuery.digits t = []) : afterDigits t = t := by
  have happend := digits_append_afterDigits t
  rwa [h, List.nil_append] at happend

/-- A mantissa with a point has digits before the point or behind it. -/
theorem matches_mantissa_exponent_of_point {rest : Text} (h : afterDigits t = '.' :: rest) :
    Matches (seq mantissa (opt exponent)) t ↔
      (FilterQuery.digits t ≠ [] ∨ FilterQuery.digits rest ≠ []) ∧
        (cutExponent (afterDigits rest)).2 = [] := by
  by_cases hdigits : FilterQuery.digits t = []
  · have hends := ends_mantissa_of_no_digits hdigits
    rw [afterDigits_of_no_digits hdigits] at h
    rw [h, fraction, ends_char_cons] at hends
    by_cases hrest : FilterQuery.digits rest = []
    · rw [ends_digits_eq_nil hrest, ← h] at hends
      simp [not_matches_seq_of_ends_eq_nil hends, hdigits, hrest]
    · have hleaves := Leaves.of_ends_eq hends (leaves_digits hrest)
      rw [h, hleaves.matches_seq_iff mantissa_apart_exponent, matches_opt_exponent_iff]
      simp [hrest]
  · have hpoint := leaves_opt_point_cons rest
    rw [← h] at hpoint
    rw [(leaves_mantissa_of_digits hdigits hpoint).matches_seq_iff mantissa_apart_exponent,
      matches_opt_exponent_iff]
    simp [hdigits]

/-- A mantissa without a point is digits. -/
theorem matches_mantissa_exponent_of_ne (h : ∀ rest, afterDigits t ≠ '.' :: rest) :
    Matches (seq mantissa (opt exponent)) t ↔
      FilterQuery.digits t ≠ [] ∧ (cutExponent (afterDigits t)).2 = [] := by
  by_cases hdigits : FilterQuery.digits t = []
  · have hnone : ends mantissa t = [] := by
      rw [afterDigits_of_no_digits hdigits] at h
      rw [ends_mantissa_of_no_digits hdigits]
      exact ends_char_eq_nil digits h
    simp [not_matches_seq_of_ends_eq_nil hnone, hdigits]
  · have hleaves := leaves_mantissa_of_digits hdigits (leaves_opt_point_of_ne h)
    rw [hleaves.matches_seq_iff mantissa_apart_exponent, matches_opt_exponent_iff]
    simp [hdigits]

end Regex

variable {x : Text}

/-- A text denotes a number exactly if it is a numeral. -/
theorem isNumeral_iff : isNumeral x = true ↔ Regex.numeral.Matches x := by
  rw [Regex.numeral, (Regex.leaves_cutSign x).matches_seq_iff Regex.sign_apart_mantissa, isNumeral]
  split
  · next rest hrest =>
    rw [Regex.matches_mantissa_exponent_of_point hrest, decide_eq_true_eq]
  · next hrest =>
    rw [Regex.matches_mantissa_exponent_of_ne hrest, decide_eq_true_eq]

/-- A text denotes a whole number exactly if it is digits with a minus sign or none. -/
theorem isInteger_iff : isInteger x = true ↔ Regex.integer.Matches x := by
  have happart : Regex.Apart (.opt (.char '-')) Regex.digits := by
    intro c hc
    have hc : c = '-' := by simpa [Regex.uses, Regex.opt, Regex.char] using hc
    rw [hc]
    decide
  cases x with
  | nil => decide
  | cons c rest =>
    by_cases hminus : c = '-'
    · subst hminus
      have hleaves : Regex.Leaves (.opt (.char '-')) ('-' :: rest) rest :=
        .opt (.of_ends_singleton rfl)
      rw [Regex.integer, hleaves.matches_seq_iff happart, Regex.matches_digits_iff, isInteger]
      simp
    · have hleaves : Regex.Leaves (.opt (.char '-')) (c :: rest) (c :: rest) := by
        refine Regex.leaves_opt_of_ends_eq_nil ?_
        rw [Regex.char, Regex.ends_one_cons, if_neg (by simpa using hminus)]
      rw [Regex.integer, hleaves.matches_seq_iff happart, Regex.matches_digits_iff,
        isInteger_of_ne hminus]
      simp

theorem Regex.numeral_of_integer (h : Regex.integer.Matches x) : Regex.numeral.Matches x := by
  obtain ⟨minus, ds, hminus, hds, rfl⟩ := matches_seq_iff.mp h
  have hsign : (opt sign).Matches minus := by
    rcases matches_opt_iff.mp hminus with hminus | rfl
    · rw [matches_char_iff.mp hminus]
      exact .left (.one (by decide))
    · exact .right .empty
  have hmantissa : (seq mantissa (opt exponent)).Matches (ds ++ [] ++ []) :=
    .seq (.left (.seq hds (.right .empty))) (.right .empty)
  rw [List.append_nil, List.append_nil] at hmantissa
  exact .seq hsign hmantissa

/-- A whole number is a number. -/
theorem isNumeral_of_isInteger (h : isInteger x = true) : isNumeral x = true :=
  isNumeral_iff.mpr (Regex.numeral_of_integer (isInteger_iff.mp h))

end FilterQuery
