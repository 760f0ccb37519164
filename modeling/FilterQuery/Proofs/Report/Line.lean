import FilterQuery.Proofs.Scan.Memory
import FilterQuery.Report.Diagnostic
import Mathlib.Data.List.TakeWhile

/-!
# The line of a place in a text

A place divides a text into what stands before it and what stands behind it. The place lies in the
line that is made of the last line of the one and the first line of the other, and this is said in
three ways: as a piece of the text between newlines (`getElem?_splitOn`), as the way to the place by
newlines and then by characters (`offsetAt?_place`), and by the offsets of the newlines around it
(`exists_append_lastLine`, `exists_firstLine_append`).

What stands before the place is divided at its last newline, if it has one
(`newline_not_mem_or_exists`). All statements about the last line follow these two cases.
-/

namespace FilterQuery

/-- The offset that is reached in a text behind some newlines and then some characters. -/
def Text.offsetAt? : (newlines characters : Nat) → Text → Option Nat
  | 0, 0, _ => some 0
  | _, _, [] => none
  | 0, characters + 1, c :: rest => (offsetAt? 0 characters rest).map (c.utf8Size + ·)
  | newlines + 1, characters, c :: rest =>
    (offsetAt? (if c = '\n' then newlines else newlines + 1) characters rest).map (c.utf8Size + ·)

/-- The offset of the last occurrence of a character in a text. -/
def Text.lastOccurrence? (c : Char) : Text → Option Nat
  | [] => none
  | d :: rest =>
    match lastOccurrence? c rest with
    | some place => some (d.utf8Size + place)
    | none => if d = c then some 0 else none

namespace Report.Diagnostic

variable {a b t before rest : Text}

/-! ## The first and the last line -/

theorem newline_not_mem_firstLine (t : Text) : '\n' ∉ firstLine t := by
  intro h
  exact absurd (List.mem_takeWhile_imp h) (by decide)

theorem newline_not_mem_lastLine (t : Text) : '\n' ∉ lastLine t := by
  unfold lastLine
  rw [List.mem_reverse]
  exact newline_not_mem_firstLine t.reverse

theorem firstLine_append_of_not_mem (ha : '\n' ∉ a) (b : Text) :
    firstLine (a ++ b) = a ++ firstLine b := by
  refine List.takeWhile_append_of_pos fun c hc => decide_eq_true ?_
  rintro rfl
  exact ha hc

theorem firstLine_append_newline (ha : '\n' ∉ a) (b : Text) : firstLine (a ++ '\n' :: b) = a := by
  rw [firstLine_append_of_not_mem ha]
  exact List.append_nil a

theorem firstLine_append_of_mem (ha : '\n' ∈ a) (b : Text) : firstLine (a ++ b) = firstLine a := by
  obtain ⟨front, behind, rfl, hfront⟩ := List.eq_append_cons_of_mem ha
  rw [List.append_assoc, List.cons_append, firstLine_append_newline hfront,
    firstLine_append_newline hfront]

theorem firstLine_of_not_mem (ht : '\n' ∉ t) : firstLine t = t := by
  have happend := firstLine_append_of_not_mem ht []
  rwa [List.append_nil, show firstLine [] = [] from rfl, List.append_nil] at happend

theorem lastLine_of_not_mem (ht : '\n' ∉ t) : lastLine t = t := by
  have hreverse : firstLine t.reverse = t.reverse :=
    firstLine_of_not_mem (mt List.mem_reverse.mp ht)
  show (firstLine t.reverse).reverse = t
  rw [hreverse, List.reverse_reverse]

theorem lastLine_append_newline (a : Text) (hb : '\n' ∉ b) : lastLine (a ++ '\n' :: b) = b := by
  have hreverse : (a ++ '\n' :: b).reverse = b.reverse ++ '\n' :: a.reverse := by
    rw [List.reverse_append, List.reverse_cons, List.append_assoc]
    rfl
  show (firstLine (a ++ '\n' :: b).reverse).reverse = b
  rw [hreverse, firstLine_append_newline (mt List.mem_reverse.mp hb), List.reverse_reverse]

/-- A text is a single line, or it is divided at its last newline. -/
theorem newline_not_mem_or_exists (t : Text) :
    '\n' ∉ t ∨ ∃ a b, t = a ++ '\n' :: b ∧ '\n' ∉ b := by
  induction t with
  | nil => exact Or.inl List.not_mem_nil
  | cons c t ih =>
    rcases ih with ht | ⟨a, b, rfl, hb⟩
    · by_cases hc : c = '\n'
      · exact Or.inr ⟨[], t, by rw [hc]; rfl, ht⟩
      · exact Or.inl (List.not_mem_cons_of_ne_of_not_mem (Ne.symm hc) ht)
    · exact Or.inr ⟨c :: a, b, rfl, hb⟩

theorem count_newline_append (a : Text) (hb : '\n' ∉ b) :
    (a ++ '\n' :: b).count '\n' = a.count '\n' + 1 := by
  rw [List.count_append, List.count_cons_self, List.count_eq_zero_of_not_mem hb]

/-! ## Pieces between newlines -/

theorem length_splitOn (t : Text) : (t.splitOn '\n').length = t.count '\n' + 1 := by
  induction t with
  | nil => rfl
  | cons c t ih =>
    rw [List.splitOn_cons_eq_if_modifyHead, List.count_cons]
    split
    · rw [List.length_cons, ih]
    · rw [List.length_modifyHead, ih]

theorem getElem?_zero_splitOn (t : Text) : (t.splitOn '\n')[0]? = some (firstLine t) := by
  by_cases ht : '\n' ∈ t
  · obtain ⟨a, b, rfl, ha⟩ := List.eq_append_cons_of_mem ht
    rw [List.splitOn_append_cons_self_of_not_mem ha, firstLine_append_newline ha]
    rfl
  · rw [List.splitOn_eq_singleton ht, firstLine_of_not_mem ht]
    rfl

/-- Before a line there are as many others as there are newlines before it. -/
theorem getElem?_splitOn (before rest : Text) :
    ((before ++ rest).splitOn '\n')[before.count '\n']? =
      some (lastLine before ++ firstLine rest) := by
  rcases newline_not_mem_or_exists before with hbefore | ⟨a, b, rfl, hb⟩
  · rw [List.count_eq_zero_of_not_mem hbefore, getElem?_zero_splitOn,
      firstLine_append_of_not_mem hbefore, lastLine_of_not_mem hbefore]
  · rw [count_newline_append a hb, lastLine_append_newline a hb, List.append_assoc,
      List.cons_append, List.splitOn_append_cons_self, ← length_splitOn,
      List.getElem?_append_right (Nat.le_refl _), Nat.sub_self, getElem?_zero_splitOn,
      firstLine_append_of_not_mem hb]

/-! ## The way to a place -/

theorem offsetAt?_characters : ∀ b rest : Text,
    Text.offsetAt? 0 b.length (b ++ rest) = some (Text.size b)
  | [], rest => by rw [List.length_nil, Text.offsetAt?]; rfl
  | c :: b, rest => by
    rw [List.length_cons, List.cons_append, Text.offsetAt?, offsetAt?_characters b rest]
    rfl

theorem offsetAt?_newlines (characters : Nat) (rest : Text) : ∀ a : Text,
    Text.offsetAt? (a.count '\n' + 1) characters (a ++ '\n' :: rest) =
      (Text.offsetAt? 0 characters rest).map (Text.size (a ++ ['\n']) + ·)
  | [] => by
    rw [List.count_nil, List.nil_append, Text.offsetAt?, if_pos rfl]
    rfl
  | c :: a => by
    have hcount : (if c = '\n' then (c :: a).count '\n' else (c :: a).count '\n' + 1)
        = a.count '\n' + 1 := by
      by_cases hc : c = '\n'
      · rw [if_pos hc, hc, List.count_cons_self]
      · rw [if_neg hc, List.count_cons_of_ne hc]
    rw [List.cons_append, Text.offsetAt?, hcount, offsetAt?_newlines characters rest a,
      Option.map_map, List.cons_append, Text.size_cons]
    refine congrArg (Option.map · _) (funext fun n => ?_)
    exact (Nat.add_assoc ..).symm

/-- A place is reached behind all newlines before it and then all characters of its line before
it. -/
theorem offsetAt?_place (before rest : Text) :
    Text.offsetAt? (before.count '\n') (lastLine before).length (before ++ rest) =
      some (Text.size before) := by
  rcases newline_not_mem_or_exists before with hbefore | ⟨a, b, rfl, hb⟩
  · rw [List.count_eq_zero_of_not_mem hbefore, lastLine_of_not_mem hbefore, offsetAt?_characters]
  · rw [count_newline_append a hb, lastLine_append_newline a hb, List.append_assoc,
      List.cons_append, offsetAt?_newlines, offsetAt?_characters, Option.map_some,
      ← Text.size_append, List.append_assoc]
    rfl

/-! ## The offsets around a line -/

/-- The offset at which the last line of a text starts: behind the last newline, if there is one. -/
def lineStart (before : Text) : Nat := ((Text.lastOccurrence? '\n' before).map (· + 1)).getD 0

/-- The offset at which the first line of a text stops that itself starts at a given offset: before
the first newline, if there is one. -/
def lineStop (offset : Nat) (rest : Text) : Nat :=
  (SubQuery.firstOccurrence? ['\n'] offset rest).getD (offset + Text.size rest)

theorem lastOccurrence?_of_not_mem : ∀ {t : Text}, '\n' ∉ t → Text.lastOccurrence? '\n' t = none
  | [], _ => rfl
  | c :: t, h => by
    have ht := lastOccurrence?_of_not_mem (List.not_mem_of_not_mem_cons h)
    rw [Text.lastOccurrence?, ht]
    exact if_neg (Ne.symm (List.ne_of_not_mem_cons h))

theorem lastOccurrence?_append_newline (hb : '\n' ∉ b) : ∀ a : Text,
    Text.lastOccurrence? '\n' (a ++ '\n' :: b) = some (Text.size a)
  | [] => by
    rw [List.nil_append, Text.lastOccurrence?, lastOccurrence?_of_not_mem hb]
    rfl
  | c :: a => by
    rw [List.cons_append, Text.lastOccurrence?, lastOccurrence?_append_newline hb a]
    rfl

theorem exists_append_lastLine (before : Text) :
    ∃ earlier, before = earlier ++ lastLine before ∧ Text.size earlier = lineStart before := by
  unfold lineStart
  rcases newline_not_mem_or_exists before with hbefore | ⟨a, b, rfl, hb⟩
  · rw [lastLine_of_not_mem hbefore, lastOccurrence?_of_not_mem hbefore]
    exact ⟨[], rfl, rfl⟩
  · rw [lastLine_append_newline a hb, lastOccurrence?_append_newline hb]
    exact ⟨a ++ ['\n'], List.append_cons .., Text.size_append a ['\n']⟩

theorem firstOccurrence?_newline_of_not_mem (ht : '\n' ∉ t) (offset : Nat) :
    SubQuery.firstOccurrence? ['\n'] offset t = none := by
  rw [Option.eq_none_iff_forall_ne_some]
  intro place hplace
  obtain ⟨a, b, rfl, -⟩ := SubQuery.exists_of_firstOccurrence? hplace
  exact ht (by simp)

theorem firstOccurrence?_append_newline (b : Text) : ∀ {a : Text} (offset : Nat), '\n' ∉ a →
    SubQuery.firstOccurrence? ['\n'] offset (a ++ '\n' :: b) = some (offset + Text.size a)
  | [], offset, _ => SubQuery.firstOccurrence?_of_starts ⟨b, rfl⟩
  | c :: a, offset, h => by
    have hc : ¬ ['\n'] <+: c :: (a ++ '\n' :: b) := fun hprefix =>
      List.ne_of_not_mem_cons h (List.cons_prefix_cons.mp hprefix).1
    rw [List.cons_append, SubQuery.firstOccurrence?_of_not_starts hc,
      firstOccurrence?_append_newline b _ (List.not_mem_of_not_mem_cons h), Nat.add_assoc]
    rfl

theorem exists_firstLine_append (offset : Nat) (rest : Text) :
    ∃ later, rest = firstLine rest ++ later ∧
      lineStop offset rest = offset + Text.size (firstLine rest) := by
  unfold lineStop
  by_cases hrest : '\n' ∈ rest
  · obtain ⟨a, b, rfl, ha⟩ := List.eq_append_cons_of_mem hrest
    rw [firstLine_append_newline ha, firstOccurrence?_append_newline b offset ha]
    exact ⟨'\n' :: b, rfl, rfl⟩
  · rw [firstLine_of_not_mem hrest, firstOccurrence?_newline_of_not_mem hrest]
    exact ⟨[], (List.append_nil rest).symm, rfl⟩

end Report.Diagnostic
end FilterQuery
