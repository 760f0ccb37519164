import FilterQuery.Proofs.Text.Case
import FilterQuery.Text.Blank
import Mathlib.Data.List.Infix

/-!
# Texts with one folded form

Two texts that differ in the case of ASCII letters only have the same folded form. Character by
character they have the same sizes and the same blanks, and a class of characters that has either
both cases of a letter or none (`IgnoresCase`) does not tell them apart. A part of the one has its
counterpart in the other, and a part without letters is its own counterpart.
-/

namespace FilterQuery

/-- A class of characters that has both cases of a letter or none. -/
def IgnoresCase (p : Char → Bool) : Prop := ∀ c : Char, p c.toLower = p c

namespace Text

/-! ## Single characters -/

theorem toLower_toLower (c : Char) : c.toLower.toLower = c.toLower := by
  refine Char.toNat_inj.mp ?_
  rw [toNat_toLower c.toLower, if_neg]
  rw [toNat_toLower]
  split <;> omega

/-- A character that is no letter is the lower case of itself alone. -/
theorem toLower_eq_symbol_iff {c d : Char} (hd : d.isAlpha = false) : c.toLower = d ↔ c = d := by
  have hlower : d.toLower = d := (toLower_eq_iff hd).mp (toLower_toLower d)
  have h := toLower_eq_iff (c := c) hd
  rwa [hlower] at h

theorem toLower_ne {c d : Char} (hd : d.isAlpha = false) (h : c ≠ d) : c.toLower ≠ d :=
  mt (toLower_eq_symbol_iff hd).mp h

/-- Of the two cases of one letter the lower case is one. -/
theorem toLower_eq_or_iff {c d u : Char} (hu : 65 ≤ u.toNat ∧ u.toNat ≤ 90)
    (hd : d.toNat = u.toNat + 32) : (c.toLower = d ∨ c.toLower = u) ↔ (c = d ∨ c = u) := by
  rw [← Char.toNat_inj, ← Char.toNat_inj, ← Char.toNat_inj, ← Char.toNat_inj, toNat_toLower]
  split <;> omega

theorem utf8Size_toLower (c : Char) : c.toLower.utf8Size = c.utf8Size := by
  have h := toNat_toLower c
  split at h
  · have hlower : c.toLower.utf8Size = 1 := by
      rw [Char.utf8Size_eq_one_iff, UInt32.le_iff_toNat_le]
      show c.toLower.toNat ≤ 127
      omega
    have hupper : c.utf8Size = 1 := by
      rw [Char.utf8Size_eq_one_iff, UInt32.le_iff_toNat_le]
      show c.toNat ≤ 127
      omega
    rw [hlower, hupper]
  · rw [Char.toNat_inj.mp h]

theorem ignoresCase_isDigit : IgnoresCase Char.isDigit := by
  intro c
  rw [Bool.eq_iff_iff, isDigit_iff, isDigit_iff, toNat_toLower]
  split <;> omega

/-- A single character that is no letter. -/
theorem ignoresCase_eq {d : Char} (hd : d.isAlpha = false) : IgnoresCase fun c => c = d := by
  intro c
  simp only [toLower_eq_symbol_iff hd]

/-- The two cases of a letter, or a character that is no letter. -/
theorem ignoresCase_toLower_eq (w : Char) : IgnoresCase fun c => c.toLower = w.toLower := by
  intro c
  simp only [toLower_toLower]

theorem ignoresCase_isBlank : IgnoresCase isBlank := by
  intro c
  rw [Bool.eq_iff_iff, isBlank, isBlank, CharSet.contains_iff, CharSet.contains_iff]
  simp only [blankChars, List.mem_cons, List.not_mem_nil, or_false, exists_eq_or_imp,
    exists_eq_left, toNat_toLower]
  split <;> omega

end Text

namespace IgnoresCase

variable {p q : Char → Bool}

theorem or (hp : IgnoresCase p) (hq : IgnoresCase q) : IgnoresCase fun c => p c || q c := by
  intro c
  simp only [hp c, hq c]

theorem comp_toLower (hp : IgnoresCase p) : p ∘ Char.toLower = p := funext hp

theorem all_fold (hp : IgnoresCase p) (t : Text) : (Text.fold t).all p = t.all p := by
  rw [Text.fold, List.all_map, hp.comp_toLower]

theorem takeWhile_fold (hp : IgnoresCase p) (t : Text) :
    (Text.fold t).takeWhile p = Text.fold (t.takeWhile p) := by
  rw [Text.fold, List.takeWhile_map, hp.comp_toLower]
  rfl

theorem dropWhile_fold (hp : IgnoresCase p) (t : Text) :
    (Text.fold t).dropWhile p = Text.fold (t.dropWhile p) := by
  rw [Text.fold, List.dropWhile_map, hp.comp_toLower]
  rfl

end IgnoresCase

namespace Text

variable {x y : Text}

/-! ## Texts -/

@[simp] theorem fold_nil : fold [] = [] := rfl

@[simp] theorem fold_cons (c : Char) (t : Text) : fold (c :: t) = c.toLower :: fold t := rfl

@[simp] theorem fold_fold (t : Text) : fold (fold t) = fold t := by
  rw [fold, fold, List.map_map]
  exact List.map_congr_left fun c _ => toLower_toLower c

theorem length_eq_of_fold_eq (h : fold x = fold y) : x.length = y.length := by
  have hlength := congrArg List.length h
  rwa [fold, fold, List.length_map, List.length_map] at hlength

theorem size_fold : ∀ t : Text, size (fold t) = size t
  | [] => rfl
  | c :: t => by rw [fold_cons, size_cons, size_cons, utf8Size_toLower, size_fold t]

theorem size_eq_of_fold_eq (h : fold x = fold y) : size x = size y := by
  rw [← size_fold x, h, size_fold]

theorem forall_of_fold_eq {p : Char → Bool} (hp : IgnoresCase p) (h : fold x = fold y)
    (hy : ∀ c ∈ y, p c = true) : ∀ c ∈ x, p c = true := by
  rw [← List.all_eq_true] at hy ⊢
  rw [← hp.all_fold, h, hp.all_fold, hy]

/-! ## Parts -/

/-- Two parts in a row have their counterparts. -/
theorem exists_append_of_fold_eq {a b : Text} (h : fold y = fold (a ++ b)) :
    ∃ a' b', y = a' ++ b' ∧ fold a' = fold a ∧ fold b' = fold b := by
  rw [fold_append] at h
  exact List.map_eq_append_iff.mp h

/-- A beginning has its counterpart. -/
theorem exists_prefix_of_fold_eq {t u : Text} (h : fold u = fold t) (hx : x <+: t) :
    ∃ x', x' <+: u ∧ fold x' = fold x := by
  obtain ⟨rest, rfl⟩ := hx
  obtain ⟨x', rest', rfl, hx', -⟩ := exists_append_of_fold_eq h
  exact ⟨x', List.prefix_append x' rest', hx'⟩

/-- So does any part. -/
theorem exists_infix_of_fold_eq {t u : Text} (h : fold u = fold t) (hx : x <:+: t) :
    ∃ x', x' <:+: u ∧ fold x' = fold x := by
  obtain ⟨before, after, rfl⟩ := hx
  obtain ⟨front, after', rfl, hfront, -⟩ := exists_append_of_fold_eq h
  obtain ⟨before', x', rfl, -, hx'⟩ := exists_append_of_fold_eq hfront
  exact ⟨x', ⟨before', after', rfl⟩, hx'⟩

/-- A part without letters is its own counterpart. -/
theorem infix_of_fold_eq {w : Text} (hw : w.any Char.isAlpha = false) (h : fold y = fold x)
    (hx : w <:+: x) : w <:+: y := by
  obtain ⟨w', hinfix, hw'⟩ := exists_infix_of_fold_eq h hx
  rwa [eq_of_fold_eq hw hw'] at hinfix

/-- A character that is no letter occurs in both texts or in none. -/
theorem mem_of_fold_eq {c : Char} (hc : c.isAlpha = false) (h : fold y = fold x) (hx : c ∈ x) :
    c ∈ y := by
  rw [← List.singleton_infix_iff] at hx ⊢
  exact infix_of_fold_eq (by simpa using hc) h hx

end Text
end FilterQuery
