import FilterQuery.Text.Basic
import Mathlib.Data.List.Basic

/-!
# Offsets and beginnings

Two beginnings of one text are compared by bytes as by characters, and an offset that lies behind a
beginning splits the text behind that beginning.
-/

namespace FilterQuery.Text

theorem size_le_of_prefix {x y : Text} (h : x <+: y) : size x ≤ size y := by
  obtain ⟨z, rfl⟩ := h
  rw [size_append]
  exact Nat.le_add_right (size x) (size z)

/-- A beginning of two texts in a row lies within the first, or goes on into the second. -/
theorem prefix_append_cases {x a b : Text} (h : x <+: a ++ b) :
    x <+: a ∨ ∃ c u, c :: u <+: b ∧ x = a ++ c :: u := by
  rcases List.prefix_or_prefix_of_prefix h (List.prefix_append a b) with hle | ⟨u, rfl⟩
  · exact Or.inl hle
  · cases u with
    | nil => exact Or.inl ⟨[], by simp⟩
    | cons c u => exact Or.inr ⟨c, u, (List.prefix_append_right_inj a).mp h, rfl⟩

/-- A beginning without a certain character ends before that character. -/
theorem isPrefix_of_not_mem {x a b : Text} {c : Char} (h : x <+: a ++ c :: b) (hc : c ∉ x) :
    x <+: a := by
  rcases prefix_append_cases h with hle | ⟨d, u, hpre, rfl⟩
  · exact hle
  · rw [(List.cons_prefix_cons.mp hpre).1] at hc
    exact absurd (by simp) hc

/-- A text is told by the first occurrence of a character behind it, and so is what follows. -/
theorem append_cons_inj_of_not_mem {x y u v : Text} {c : Char} (hx : c ∉ x) (hy : c ∉ y)
    (h : x ++ c :: u = y ++ c :: v) : x = y ∧ u = v := by
  have hxy : x <+: y := isPrefix_of_not_mem (h ▸ List.prefix_append x (c :: u)) hx
  have hyx : y <+: x := isPrefix_of_not_mem (h ▸ List.prefix_append y (c :: v)) hy
  obtain rfl := hxy.eq_of_length_le hyx.length_le
  exact ⟨rfl, (List.cons.inj (List.append_cancel_left h)).2⟩

/-- Of two beginnings of one text the one with more characters has more bytes. -/
theorem size_le_iff {t x y : Text} (hx : x <+: t) (hy : y <+: t) :
    size x ≤ size y ↔ x.length ≤ y.length := by
  constructor
  · intro hle
    by_contra hlt
    obtain ⟨z, rfl⟩ := List.prefix_of_prefix_length_le hy hx (Nat.le_of_lt (Nat.not_le.mp hlt))
    rw [size_append] at hle
    have hz : z = [] := size_eq_zero.mp (by omega)
    rw [hz, List.append_nil] at hlt
    exact hlt (Nat.le_refl y.length)
  · intro hle
    exact size_le_of_prefix (List.prefix_of_prefix_length_le hx hy hle)

/-- Of two splits of one text the later one splits what follows the earlier one. -/
theorem exists_append_of_size_le {a b u v : Text} (h : a ++ u = b ++ v) (hle : size a ≤ size b) :
    ∃ gap, b = a ++ gap ∧ u = gap ++ v := by
  have ha : a <+: b ++ v := h ▸ List.prefix_append a u
  have hb : b <+: b ++ v := List.prefix_append b v
  obtain ⟨gap, rfl⟩ := List.prefix_of_prefix_length_le ha hb ((size_le_iff ha hb).mp hle)
  refine ⟨gap, rfl, ?_⟩
  rw [List.append_assoc] at h
  exact List.append_cancel_left h

/-- Two splits of one text at the same offset are the same. -/
theorem append_inj_of_size_eq {a b u v : Text} (h : a ++ u = b ++ v) (hsize : size a = size b) :
    a = b ∧ u = v := by
  obtain ⟨gap, rfl, rfl⟩ := exists_append_of_size_le h (Nat.le_of_eq hsize)
  rw [size_append] at hsize
  have hgap : gap = [] := size_eq_zero.mp (by omega)
  rw [hgap, List.append_nil]
  exact ⟨rfl, rfl⟩

/-- What stands behind two parts of a text, and where. -/
theorem place_behind {query before gap raw rest : Text} {offset : Nat}
    (hquery : query = before ++ (gap ++ raw ++ rest)) (hsize : size before = offset) :
    query = (before ++ gap ++ raw) ++ rest ∧
      size (before ++ gap ++ raw) = offset + size gap + size raw := by
  constructor
  · rw [hquery]
    simp only [List.append_assoc]
  · rw [size_append, size_append, hsize]

/-- A character that starts inside a part of a text belongs to that part. -/
theorem mem_of_size_lt {before after b run a : Text} {c : Char}
    (h : before ++ c :: after = b ++ run ++ a) (hlow : size b ≤ size before)
    (hhigh : size before < size b + size run) : c ∈ run := by
  rw [List.append_assoc] at h
  obtain ⟨gap, rfl, hrest⟩ := exists_append_of_size_le h.symm hlow
  rw [size_append] at hhigh
  obtain ⟨part, rfl, hpart⟩ := exists_append_of_size_le hrest.symm (by omega)
  cases part with
  | nil =>
    rw [List.append_nil] at hhigh
    omega
  | cons d part =>
    rw [List.cons_append, List.cons.injEq] at hpart
    rw [hpart.1]
    simp

theorem splitAt?_append_of_size_le : ∀ (a : Text) {t : Text} {n : Nat}, size a ≤ n →
    splitAt? n (a ++ t) = (splitAt? (n - size a) t).map fun (before, after) => (a ++ before, after)
  | [], t, n, _ => by simp
  | c :: a, t, n, h => by
    have hc := c.utf8Size_pos
    rw [size_cons] at h
    obtain ⟨m, rfl⟩ : ∃ m, n = m + 1 := ⟨n - 1, by omega⟩
    have hsub : m + 1 - c.utf8Size - size a = m + 1 - size (c :: a) := by rw [size_cons]; omega
    rw [List.cons_append, splitAt?, if_pos (by omega), splitAt?_append_of_size_le a (by omega),
      hsub, Option.map_map]
    rfl

end FilterQuery.Text
