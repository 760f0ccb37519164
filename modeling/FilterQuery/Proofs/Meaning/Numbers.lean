import FilterQuery.Proofs.Meaning.Forms
import Mathlib.Data.List.TakeWhile

/-!
# What numbers mean

Numbers are found by one rule and given a meaning by another, which also takes signs and points at
the ends. On the numbers of the strict grammar the two agree (`meaning_of_number`). A long number of
the compatible grammar has too many points for a numeral, so it is left to the rules for names: it
counts as a field if it has an exponent, for the letter in it, and is not recognised otherwise.
-/

namespace FilterQuery

variable {grammar : NumberGrammar} {x : Text}

/-! ## Numbers of the strict grammar -/

theorem cutSign_of_isDigit {c : Char} (hc : c.isDigit = true) (t : Text) :
    cutSign (c :: t) = ([], c :: t) := by
  unfold cutSign
  split
  · next heq => rw [(List.cons.inj heq).1] at hc; exact absurd hc (by decide)
  · next heq => rw [(List.cons.inj heq).1] at hc; exact absurd hc (by decide)
  · rfl

/-- What is read as a number to its end denotes one. -/
theorem isNumeral_of_number (h : (Regex.number .strict).Matches x) : isNumeral x = true := by
  have hform : Pattern.Form .strict .number x := h
  have hcut := hform.cut?_eq
  obtain ⟨c, rest, rfl, hc⟩ := Regex.isDigit_of_number h
  have hend : (cutExponent (cutFraction (afterDigits rest)).2).2 = [] := by
    simp only [Pattern.cut?, cutNumber?, hc, ↓reduceIte, cutMantissa, Option.some.injEq,
      Prod.mk.injEq] at hcut
    exact hcut.2
  have hafter : afterDigits (c :: rest) = afterDigits rest := by
    rw [afterDigits, List.dropWhile_cons, if_pos hc]
    rfl
  have hdigits : digits (c :: rest) ≠ [] := by
    rw [digits, List.takeWhile_cons, if_pos hc]
    exact List.cons_ne_nil _ _
  unfold isNumeral
  simp only [cutSign_of_isDigit hc, hafter]
  split
  · next tail heq =>
    rw [heq, cutFraction] at hend
    by_cases hfraction : digits tail = []
    · -- A point without digits would be left over.
      simp [hfraction, cutExponent] at hend
    · rw [if_pos ⟨rfl, hfraction⟩] at hend
      simp [hdigits, hend]
  · next hpoint =>
    have hfraction : cutFraction (afterDigits rest) = ([], afterDigits rest) := by
      cases hrest : afterDigits rest with
      | nil => rfl
      | cons d tail =>
        rw [cutFraction, if_neg]
        rintro ⟨rfl, -⟩
        exact hpoint tail hrest
    rw [hfraction] at hend
    simp [hdigits, hend]

theorem isInteger_of_number {grammar : NumberGrammar} (h : (Regex.number grammar).Matches x) :
    isInteger x = x.all Char.isDigit := by
  obtain ⟨c, rest, rfl, hc⟩ := Regex.isDigit_of_number h
  unfold isInteger
  split
  · next heq => rw [(List.cons.inj heq).1] at hc; exact absurd hc (by decide)
  · rw [Bool.eq_iff_iff]
    simp

/-- A number of the strict grammar is a whole number if it has digits only, and else a float. -/
theorem meaning_of_number (h : (Regex.number .strict).Matches x) :
    meaning grammar x = (if x.all Char.isDigit then .integer else .float, x) := by
  rw [meaning_of_isNumeral (isNumeral_of_number h), isInteger_of_number h]

/-! ## Long numbers -/

theorem count_point_digits (t : Text) : (digits t).count '.' = 0 := by
  rw [List.count_eq_zero]
  intro hmem
  exact absurd (List.mem_takeWhile_imp hmem) (by decide)

theorem count_point_cutSign (t : Text) : (cutSign t).1.count '.' = 0 := by
  fun_cases cutSign t <;> rfl

theorem count_point_cutExponent : ∀ t : Text, (cutExponent t).1.count '.' = 0
  | [] => rfl
  | e :: rest => by
    simp only [cutExponent]
    split
    · next he =>
      have hne : e ≠ '.' := by
        rcases he.1 with rfl | rfl
        · decide
        · decide
      rw [List.cons_append, List.count_cons_of_ne hne, List.count_append, count_point_cutSign,
        count_point_digits]
    · rfl

/-- What is read as an exponent to its end has no points. -/
theorem count_point_of_cutExponent {t : Text} (h : (cutExponent t).2 = []) : t.count '.' = 0 := by
  have hcount := count_point_cutExponent t
  have happend := cutExponent_append t
  rw [h, List.append_nil] at happend
  rwa [happend] at hcount

/-- A numeral has one point at most. -/
theorem count_point_of_isNumeral (h : isNumeral x = true) : x.count '.' ≤ 1 := by
  have hdigits : ∀ t : Text, t.count '.' = (afterDigits t).count '.' := by
    intro t
    conv_lhs =>
      rw [← digits_append_afterDigits t, List.count_append, count_point_digits, Nat.zero_add]
  have hsign : x.count '.' = (cutSign x).2.count '.' := by
    conv_lhs => rw [← cutSign_append x, List.count_append, count_point_cutSign, Nat.zero_add]
  unfold isNumeral at h
  simp only at h
  rw [hsign, hdigits]
  split at h
  · next tail heq =>
    simp only [Bool.decide_and, Bool.and_eq_true, decide_eq_true_eq] at h
    rw [heq, List.count_cons_self, hdigits, count_point_of_cutExponent h.2]
  · simp only [Bool.decide_and, Bool.and_eq_true, decide_eq_true_eq] at h
    rw [count_point_of_cutExponent h.2]
    exact Nat.zero_le 1

/-- No fixed wording starts as a numeral does. -/
theorem Kind.ofSpelling?_of_isDigit {c : Char} (hc : c.isDigit = true) (t : Text) :
    ofSpelling? (c :: t) = none := by
  rw [Option.eq_none_iff_forall_ne_some]
  intro k hk
  obtain ⟨hworded, hfold⟩ := ofSpelling?_eq_some_iff.mp hk
  obtain ⟨p, hp, hform⟩ := Pattern.exists_form_of_worded .strict hworded hfold
  have hne : p ≠ .number := by
    rintro rfl
    exact absurd hp (by decide)
  rw [(hform.startsNoNumeral hne).1] at hc
  simp at hc

/-- A long number is a field for the letter of its exponent, or nothing. -/
theorem meaning_of_longNumber (h : Regex.longNumber.Matches x) :
    meaning .compat x = (if containsPath x then .field else .unrecognized, x) := by
  have hnumber := Regex.number_compat_of_longNumber h
  have hnumeral : isNumeral x = false := by
    rw [← Bool.not_eq_true]
    intro hnumeral
    have hle := count_point_of_isNumeral hnumeral
    have hge := Regex.count_point_of_longNumber h
    omega
  have hparen : '(' ∉ x := Regex.not_mem_of_matches hnumber (by decide)
  have hcolon : ':' ∉ x := Regex.not_mem_of_matches hnumber (by decide)
  have hquoted : quotedBody? x = none :=
    Pattern.Form.quotedBody? (p := .number) hnumber (by decide) (by decide)
  have hword : Kind.ofSpelling? x = none := by
    obtain ⟨c, rest, rfl, hc⟩ := Regex.isDigit_of_number hnumber
    exact Kind.ofSpelling?_of_isDigit hc rest
  rw [meaning_of_name _ hnumeral hquoted (SubQuery.body?_of_not_mem hparen) hword]
  simp [nameKind, containsRelation_of_not_mem hcolon]

/-- A long number without an exponent is not recognised. -/
theorem meaning_of_manyFractions (h : Regex.manyFractions.Matches x) :
    meaning .compat x = (.unrecognized, x) := by
  have hlong : Regex.longNumber.Matches (x ++ []) :=
    .seq h (Regex.matches_opt_iff.mpr (Or.inr rfl))
  rw [List.append_nil] at hlong
  have hpath : containsPath x = false := by
    rw [containsPath_eq_any, List.any_eq_false]
    intro c hc
    have huses := Regex.uses_of_matches h c hc
    have hchar : c.isDigit = true ∨ c = '.' ∨ c.isDigit = true := by
      simpa [Regex.manyFractions, Regex.decimal, Regex.fraction, Regex.digits, Regex.plus,
        Regex.uses, Regex.char] using huses
    intro hstart
    obtain ⟨hdigit, -, -, hpoint⟩ := startsNoNumeral_of_isNameStart hstart
    rw [hdigit] at hchar
    simp [hpoint] at hchar
  rw [meaning_of_longNumber hlong, hpath]
  rfl

/-- A long number with an exponent counts as a field. -/
theorem meaning_of_manyFractions_exponent
    (h : (Regex.seq Regex.manyFractions Regex.exponent).Matches x) :
    meaning .compat x = (.field, x) := by
  obtain ⟨m, e, hm, he, rfl⟩ := Regex.matches_seq_iff.mp h
  have hlong : Regex.longNumber.Matches (m ++ e) := .seq hm (Regex.matches_opt_iff.mpr (Or.inl he))
  have hpath : containsPath (m ++ e) = true := by
    obtain ⟨mark, u, hmark, -, rfl⟩ := Regex.matches_seq_iff.mp he
    obtain ⟨c, hc, rfl⟩ := Regex.matches_one_iff.mp hmark
    rw [containsPath_eq_any, List.any_eq_true]
    refine ⟨c, by simp, ?_⟩
    have hc : c = 'e' ∨ c = 'E' := by simpa using hc
    rcases hc with rfl | rfl
    · decide
    · decide
  rw [meaning_of_longNumber hlong, hpath]
  rfl

end FilterQuery
