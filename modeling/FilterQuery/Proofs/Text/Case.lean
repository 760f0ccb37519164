import FilterQuery.Text.Basic

/-!
# Letter case by arithmetic

Two characters have the same lower case only if they are equal or the two cases of one ASCII letter,
32 apart. So what is no letter is only spelled in one way.
-/

namespace FilterQuery.Text

theorem toNat_toLower (c : Char) :
    c.toLower.toNat = if 65 ≤ c.toNat ∧ c.toNat ≤ 90 then c.toNat + 32 else c.toNat := by
  unfold Char.toLower
  have hbounds : (c.val ≥ 'A'.val ∧ c.val ≤ 'Z'.val) ↔ 65 ≤ c.toNat ∧ c.toNat ≤ 90 := by
    rw [ge_iff_le, UInt32.le_iff_toNat_le, UInt32.le_iff_toNat_le]
    rfl
  split
  · next h =>
    have hc := hbounds.mp h
    rw [if_pos hc]
    show (c.val + ('a'.val - 'A'.val)).toNat = c.val.toNat + 32
    rw [UInt32.toNat_add]
    show (c.val.toNat + 32) % 2 ^ 32 = c.val.toNat + 32
    exact Nat.mod_eq_of_lt (by have := hc.2; unfold Char.toNat at this; omega)
  · next h => rw [if_neg fun hc => h (hbounds.mpr hc)]

theorem isAlpha_iff {c : Char} : c.isAlpha = true ↔
    (65 ≤ c.toNat ∧ c.toNat ≤ 90) ∨ (97 ≤ c.toNat ∧ c.toNat ≤ 122) := by
  have hupper : c.isUpper = true ↔ 65 ≤ c.toNat ∧ c.toNat ≤ 90 := by
    show decide ('A'.val ≤ c.val ∧ c.val ≤ 'Z'.val) = true ↔ _
    rw [decide_eq_true_eq, UInt32.le_iff_toNat_le, UInt32.le_iff_toNat_le]
    rfl
  have hlower : c.isLower = true ↔ 97 ≤ c.toNat ∧ c.toNat ≤ 122 := by
    show (decide ('a'.val ≤ c.val) && decide (c.val ≤ 'z'.val)) = true ↔ _
    rw [Bool.and_eq_true, decide_eq_true_eq, decide_eq_true_eq, UInt32.le_iff_toNat_le,
      UInt32.le_iff_toNat_le]
    rfl
  show (c.isUpper || c.isLower) = true ↔ _
  rw [Bool.or_eq_true, hupper, hlower]

theorem isDigit_iff {c : Char} : c.isDigit = true ↔ 48 ≤ c.toNat ∧ c.toNat ≤ 57 := by
  simp only [Char.isDigit, Bool.and_eq_true, decide_eq_true_eq, ge_iff_le,
    UInt32.le_iff_toNat_le]
  rfl

/-- What is no letter is spelled in one way only. -/
theorem toLower_eq_iff {c d : Char} (hd : d.isAlpha = false) :
    c.toLower = d.toLower ↔ c = d := by
  constructor
  · intro h
    have hnat := congrArg Char.toNat h
    have hno : ¬(d.isAlpha = true) := by simp [hd]
    rw [isAlpha_iff] at hno
    rw [toNat_toLower, toNat_toLower] at hnat
    refine Char.toNat_inj.mp ?_
    split at hnat <;> split at hnat <;> omega
  · rintro rfl
    rfl

theorem isAlpha_toLower (c : Char) : c.toLower.isAlpha = c.isAlpha := by
  rw [Bool.eq_iff_iff, isAlpha_iff, isAlpha_iff, toNat_toLower]
  split <;> omega

/-- Two spellings of one character are letters, or the same character. -/
theorem isAlpha_or_eq_of_toLower_eq {c d : Char} (h : c.toLower = d.toLower) :
    c.isAlpha = true ∨ c = d := by
  by_cases hd : d.isAlpha = true
  · left
    rw [← isAlpha_toLower, h, isAlpha_toLower, hd]
  · right
    exact (toLower_eq_iff (by simpa using hd)).mp h

/-- The two cases of a letter are 32 apart. -/
theorem eq_or_toNat_of_toLower_eq {c d : Char} (h : c.toLower = d) :
    c = d ∨ c.toNat + 32 = d.toNat := by
  have hnat := congrArg Char.toNat h
  rw [toNat_toLower] at hnat
  split at hnat
  · exact Or.inr hnat
  · exact Or.inl (Char.toNat_inj.mp hnat)

/-- What has a text without letters as its folded form is that text. -/
theorem eq_of_fold_eq : ∀ {x y : Text}, y.any Char.isAlpha = false → fold x = fold y → x = y
  | [], [], _, _ => rfl
  | [], d :: y, _, h => by simp [fold] at h
  | c :: x, [], _, h => by simp [fold] at h
  | c :: x, d :: y, hy, h => by
    simp only [fold, List.map_cons, List.cons.injEq] at h
    rw [List.any_cons, Bool.or_eq_false_iff] at hy
    rw [(toLower_eq_iff hy.1).mp h.1, eq_of_fold_eq hy.2 h.2]

end FilterQuery.Text
