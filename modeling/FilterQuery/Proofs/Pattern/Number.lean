import FilterQuery.Proofs.Pattern.Characters

/-!
# Numbers by their fractions

Under the compatible grammar a number has any number of fractions, under the strict one it has one
at most. So the numbers of the compatible grammar are those of the strict one and the long ones,
with two fractions or more (`matches_number_compat_iff`). The points tell them apart, since each
fraction has one point and nothing else in a number has any.

A long number starts with a decimal, that is, with digits and one fraction. Behind the decimal comes
a point and a number with two fractions less (`exists_of_longNumber`).
-/

namespace FilterQuery

namespace Regex

/-- Digits and one fraction. -/
def decimal : Regex := seq digits fraction

/-- Digits and two fractions at least. -/
def manyFractions : Regex := seq decimal (plus fraction)

/-- A number with two fractions at least. -/
def longNumber : Regex := seq manyFractions (opt exponent)

variable {x first tail : Text}

/-! ## Counting points -/

theorem count_point_of_not_uses {r : Regex} (hr : r.uses '.' = false) (h : Matches r x) :
    x.count '.' = 0 := by
  rw [List.count_eq_zero]
  exact not_mem_of_matches h hr

theorem count_point_of_fraction (h : Matches fraction x) : x.count '.' = 1 := by
  obtain ⟨point, ds, hpoint, hds, rfl⟩ := matches_seq_iff.mp h
  rw [matches_char_iff.mp hpoint, List.singleton_append, List.count_cons_self,
    count_point_of_not_uses (by decide) hds]

theorem count_point_of_decimal (h : Matches decimal x) : x.count '.' = 1 := by
  obtain ⟨ds, f, hds, hf, rfl⟩ := matches_seq_iff.mp h
  rw [List.count_append, count_point_of_not_uses (by decide) hds, count_point_of_fraction hf]

theorem count_point_of_plus_fraction (h : Matches (plus fraction) x) : 1 ≤ x.count '.' := by
  obtain ⟨f, fs, hf, -, rfl⟩ := matches_seq_iff.mp h
  rw [List.count_append, count_point_of_fraction hf]
  exact Nat.le_add_right 1 _

/-- A number of the strict grammar has one point at most. -/
theorem count_point_of_number_strict (h : Matches (number .strict) x) : x.count '.' ≤ 1 := by
  obtain ⟨ds, u, hds, hu, rfl⟩ := matches_seq_iff.mp h
  obtain ⟨f, e, hf, he, rfl⟩ := matches_seq_iff.mp hu
  rw [List.count_append, List.count_append, count_point_of_not_uses (by decide) hds,
    count_point_of_not_uses (by decide) he, Nat.add_zero, Nat.zero_add]
  rcases matches_opt_iff.mp hf with hf | rfl
  · exact Nat.le_of_eq (count_point_of_fraction hf)
  · exact Nat.zero_le 1

/-- A long number has two points at least. -/
theorem count_point_of_longNumber (h : Matches longNumber x) : 2 ≤ x.count '.' := by
  obtain ⟨m, e, hm, -, rfl⟩ := matches_seq_iff.mp h
  obtain ⟨d, fs, hd, hfs, rfl⟩ := matches_seq_iff.mp hm
  have hcount := count_point_of_plus_fraction hfs
  rw [List.count_append, List.count_append, count_point_of_decimal hd]
  omega

theorem not_longNumber_of_number_strict (h : Matches (number .strict) x) :
    ¬ Matches longNumber x := by
  intro hlong
  have hle := count_point_of_number_strict h
  have hge := count_point_of_longNumber hlong
  omega

/-! ## The numbers of the two grammars -/

/-- The numbers of the compatible grammar are those of the strict one and the long ones. -/
theorem matches_number_compat_iff :
    Matches (number .compat) x ↔ Matches (number .strict) x ∨ Matches longNumber x := by
  constructor
  · intro h
    obtain ⟨ds, u, hds, hu, rfl⟩ := matches_seq_iff.mp h
    obtain ⟨fs, e, hfs, he, rfl⟩ := matches_seq_iff.mp hu
    rcases matches_star_iff.mp hfs with rfl | hfs
    · exact Or.inl (.seq hds (.seq (matches_opt_iff.mpr (Or.inr rfl)) he))
    obtain ⟨f, gs, hf, hgs, rfl⟩ := matches_seq_iff.mp hfs
    rcases matches_star_iff.mp hgs with rfl | hgs
    · rw [List.append_nil]
      exact Or.inl (.seq hds (.seq (.left hf) he))
    · have hlong : Matches longNumber (ds ++ f ++ gs ++ e) :=
        .seq (.seq (.seq hds hf) hgs) he
      rw [List.append_assoc, List.append_assoc] at hlong
      rw [List.append_assoc]
      exact Or.inr hlong
  · rintro (h | h)
    · obtain ⟨ds, u, hds, hu, rfl⟩ := matches_seq_iff.mp h
      obtain ⟨f, e, hf, he, rfl⟩ := matches_seq_iff.mp hu
      refine .seq hds (.seq (matches_star_iff.mpr ?_) he)
      rcases matches_opt_iff.mp hf with hf | rfl
      · rw [← List.append_nil f]
        exact Or.inr (.seq hf .stop)
      · exact Or.inl rfl
    · obtain ⟨m, e, hm, he, rfl⟩ := matches_seq_iff.mp h
      obtain ⟨d, gs, hd, hgs, rfl⟩ := matches_seq_iff.mp hm
      obtain ⟨ds, f, hds, hf, rfl⟩ := matches_seq_iff.mp hd
      have hnumber : Matches (number .compat) (ds ++ (f ++ gs ++ e)) :=
        .seq hds (.seq (.more hf (matches_star_iff.mpr (Or.inr hgs))) he)
      rw [← List.append_assoc, ← List.append_assoc] at hnumber
      exact hnumber

theorem number_compat_of_strict (h : Matches (number .strict) x) : Matches (number .compat) x :=
  matches_number_compat_iff.mpr (Or.inl h)

theorem number_compat_of_longNumber (h : Matches longNumber x) : Matches (number .compat) x :=
  matches_number_compat_iff.mpr (Or.inr h)

/-- A long number is a decimal, a point, and a number. -/
theorem exists_of_longNumber (h : Matches longNumber x) :
    ∃ first tail, x = first ++ '.' :: tail ∧ Matches decimal first ∧
      Matches (number .compat) tail := by
  obtain ⟨m, e, hm, he, rfl⟩ := matches_seq_iff.mp h
  obtain ⟨d, fs, hd, hfs, rfl⟩ := matches_seq_iff.mp hm
  obtain ⟨f, gs, hf, hgs, rfl⟩ := matches_seq_iff.mp hfs
  obtain ⟨point, ds, hpoint, hds, rfl⟩ := matches_seq_iff.mp hf
  rw [matches_char_iff.mp hpoint]
  exact ⟨d, ds ++ (gs ++ e), by simp, hd, .seq hds (.seq hgs he)⟩

/-- A decimal, a point, and a number are a long number. -/
theorem longNumber_of_decimal (hfirst : Matches decimal first)
    (htail : Matches (number .compat) tail) : Matches longNumber (first ++ '.' :: tail) := by
  obtain ⟨ds, u, hds, hu, rfl⟩ := matches_seq_iff.mp htail
  obtain ⟨gs, e, hgs, he, rfl⟩ := matches_seq_iff.mp hu
  have hf : Matches fraction (['.'] ++ ds) := .seq (matches_char_iff.mpr rfl) hds
  have hlong : Matches longNumber (first ++ (['.'] ++ ds ++ gs) ++ e) :=
    .seq (.seq hfirst (.seq hf hgs)) he
  simp only [List.append_assoc, List.singleton_append] at hlong
  exact hlong

theorem number_strict_of_decimal (h : Matches decimal x) : Matches (number .strict) x := by
  obtain ⟨ds, f, hds, hf, rfl⟩ := matches_seq_iff.mp h
  rw [← List.append_nil (ds ++ f), List.append_assoc]
  exact .seq hds (.seq (.left hf) (matches_opt_iff.mpr (Or.inr rfl)))

end Regex

/-! ## The first character of a number -/

theorem Regex.isDigit_of_number {grammar : NumberGrammar} {x : Text}
    (h : (Regex.number grammar).Matches x) :
    ∃ c rest, x = c :: rest ∧ c.isDigit = true := by
  have hform : Pattern.Form grammar .number x := h
  obtain ⟨c, rest, rfl⟩ := List.exists_cons_of_ne_nil hform.ne_nil
  have hstarts := Regex.starts_of_matches h rfl
  refine ⟨c, rest, rfl, ?_⟩
  cases grammar <;>
    simpa [Regex.number, Regex.digits, Regex.plus, Regex.starts, Regex.nullable] using hstarts

end FilterQuery
