import FilterQuery.Proofs.Text.Folding
import FilterQuery.Proofs.Text.Offset

/-!
# The bytes of a text

Offsets into a text count the bytes of its UTF-8 form. Here the bytes are written out, and what is
said of them is led back to the characters.

A byte of an ASCII character occurs in no other character: all bytes of those are 128 at least. So
a run of ASCII bytes stands at an offset exactly if its characters do (`bytes_prefix_drop_iff`), and
in particular the offset is then a character boundary.
-/

namespace FilterQuery.Text

/-- The bytes of a text in UTF-8. -/
def bytes (t : Text) : List UInt8 := t.flatMap String.utf8EncodeChar

@[simp] theorem bytes_nil : bytes [] = [] := rfl

@[simp] theorem bytes_cons (c : Char) (t : Text) :
    bytes (c :: t) = String.utf8EncodeChar c ++ bytes t := List.flatMap_cons

theorem length_bytes : ∀ t : Text, (bytes t).length = size t
  | [] => rfl
  | c :: t => by rw [bytes_cons, List.length_append, String.length_utf8EncodeChar,
      length_bytes t, size_cons]

/-! ## Single characters -/

/-- Whether a character is one of ASCII. -/
def isAscii (c : Char) : Bool := c.toNat < 128

theorem utf8EncodeChar_of_isAscii {c : Char} (h : isAscii c = true) :
    String.utf8EncodeChar c = [UInt8.ofNat c.toNat] := by
  rw [isAscii, decide_eq_true_eq] at h
  have hval : c.val.toNat = c.toNat := rfl
  unfold String.utf8EncodeChar
  rw [if_pos (by omega), hval]

theorem le_of_mem_utf8EncodeChar {c : Char} (h : isAscii c = false) :
    ∀ b ∈ String.utf8EncodeChar c, 128 ≤ b.toNat := by
  rw [isAscii, decide_eq_false_iff_not] at h
  have hval : c.val.toNat = c.toNat := rfl
  intro b hb
  unfold String.utf8EncodeChar at hb
  simp only [hval] at hb
  rw [if_neg (by omega)] at hb
  split at hb
  · simp only [List.mem_cons, List.not_mem_nil, or_false] at hb
    rcases hb with rfl | rfl <;> rw [UInt8.toNat_ofNat'] <;> omega
  · split at hb
    · simp only [List.mem_cons, List.not_mem_nil, or_false] at hb
      rcases hb with rfl | rfl | rfl <;> rw [UInt8.toNat_ofNat'] <;> omega
    · simp only [List.mem_cons, List.not_mem_nil, or_false] at hb
      rcases hb with rfl | rfl | rfl | rfl <;> rw [UInt8.toNat_ofNat'] <;> omega

theorem toNat_ofNat_of_isAscii {c : Char} (h : isAscii c = true) :
    (UInt8.ofNat c.toNat).toNat = c.toNat := by
  rw [isAscii, decide_eq_true_eq] at h
  rw [UInt8.toNat_ofNat']
  omega

/-! ## Letter case -/

theorem toNat_toAsciiLower (b : UInt8) :
    b.toAsciiLower.toNat = if 65 ≤ b.toNat ∧ b.toNat ≤ 90 then b.toNat + 32 else b.toNat := by
  have hlt : b - 65 < 26 ↔ 65 ≤ b.toNat ∧ b.toNat ≤ 90 := by
    have hb := b.toNat_lt
    rw [UInt8.lt_iff_toNat_lt, UInt8.toNat_sub]
    show (2 ^ 8 - 65 + b.toNat) % 2 ^ 8 < 26 ↔ _
    omega
  unfold UInt8.toAsciiLower
  split
  · next h =>
    rw [decide_eq_true (hlt.mpr h), UInt8.toNat_add]
    show (b.toNat + 32) % 2 ^ 8 = _
    omega
  · next h =>
    rw [decide_eq_false (mt hlt.mp h), UInt8.toNat_add]
    show (b.toNat + 0) % 2 ^ 8 = _
    have hb := b.toNat_lt
    omega

theorem isAscii_toLower (c : Char) : isAscii c.toLower = isAscii c := by
  rw [Bool.eq_iff_iff, isAscii, isAscii, decide_eq_true_eq, decide_eq_true_eq, toNat_toLower]
  split <;> omega

theorem map_toAsciiLower_utf8EncodeChar (c : Char) :
    (String.utf8EncodeChar c).map UInt8.toAsciiLower = String.utf8EncodeChar c.toLower := by
  cases h : isAscii c with
  | true =>
    have hlower : isAscii c.toLower = true := (isAscii_toLower c).trans h
    rw [utf8EncodeChar_of_isAscii h, utf8EncodeChar_of_isAscii hlower, List.map_singleton,
      List.singleton_inj, ← UInt8.toNat_inj, toNat_toAsciiLower, toNat_ofNat_of_isAscii h,
      toNat_ofNat_of_isAscii hlower, toNat_toLower]
  | false =>
    have hc : c.toLower = c := by
      rw [isAscii, decide_eq_false_iff_not] at h
      rw [← Char.toNat_inj, toNat_toLower, if_neg (by omega)]
    have hbytes : ∀ b ∈ String.utf8EncodeChar c, b.toAsciiLower = b := by
      intro b hb
      have hle := le_of_mem_utf8EncodeChar h b hb
      rw [← UInt8.toNat_inj, toNat_toAsciiLower, if_neg (by omega)]
    rw [hc, List.map_congr_left hbytes, List.map_id']

/-- The bytes without regard to the case of ASCII letters are those of the folded text. -/
theorem map_toAsciiLower_bytes : ∀ t : Text,
    (bytes t).map UInt8.toAsciiLower = bytes (fold t)
  | [] => rfl
  | c :: t => by
    rw [bytes_cons, List.map_append, map_toAsciiLower_utf8EncodeChar, map_toAsciiLower_bytes t,
      fold_cons, bytes_cons]

/-! ## Places of a text in another one -/

/-- A text that stands in another one at an offset. -/
def StandsAt (mark t : Text) (n : Nat) : Prop :=
  ∃ before after, t = before ++ mark ++ after ∧ size before = n

section Places

variable {mark t : Text} {n : Nat}

theorem standsAt_zero_iff : StandsAt mark t 0 ↔ mark <+: t := by
  constructor
  · rintro ⟨before, after, rfl, hsize⟩
    rw [size_eq_zero.mp hsize]
    exact List.prefix_append mark after
  · rintro ⟨after, rfl⟩
    exact ⟨[], after, rfl, rfl⟩

theorem not_standsAt_nil (hmark : mark ≠ []) : ¬ StandsAt mark [] n := by
  rintro ⟨before, after, heq, -⟩
  rw [List.nil_eq, List.append_eq_nil_iff, List.append_eq_nil_iff] at heq
  exact hmark heq.1.2

/-- What does not stand at the front of a text stands behind its first character. -/
theorem standsAt_cons_iff {c : Char} (hn : 0 < n) :
    StandsAt mark (c :: t) n ↔ c.utf8Size ≤ n ∧ StandsAt mark t (n - c.utf8Size) := by
  constructor
  · rintro ⟨before, after, heq, rfl⟩
    cases before with
    | nil => simp at hn
    | cons d before =>
      rw [List.cons_append, List.cons_append, List.cons.injEq] at heq
      obtain ⟨rfl, rfl⟩ := heq
      exact ⟨by simp, before, after, rfl, by simp⟩
  · rintro ⟨hle, before, after, rfl, hsize⟩
    exact ⟨c :: before, after, rfl, by rw [size_cons]; omega⟩

theorem standsAt_cons_iff_of_not_prefix {c : Char} (h : ¬ mark <+: c :: t) :
    StandsAt mark (c :: t) n ↔ c.utf8Size ≤ n ∧ StandsAt mark t (n - c.utf8Size) := by
  cases n with
  | zero =>
    have hc := c.utf8Size_pos
    rw [standsAt_zero_iff]
    exact iff_of_false h fun hle => by omega
  | succ n => exact standsAt_cons_iff n.succ_pos

/-- What stands behind the beginning of a text stands in what follows the beginning. -/
theorem standsAt_append_iff {front : Text} :
    StandsAt mark (front ++ t) (size front + n) ↔ StandsAt mark t n := by
  constructor
  · rintro ⟨before, after, heq, hsize⟩
    rw [List.append_assoc] at heq
    obtain ⟨gap, rfl, rfl⟩ := exists_append_of_size_le heq (by omega)
    rw [size_append] at hsize
    exact ⟨gap, after, (List.append_assoc ..).symm, by omega⟩
  · rintro ⟨before, after, rfl, rfl⟩
    exact ⟨front ++ before, after, by simp only [List.append_assoc], size_append front before⟩

end Places

/-! ## ASCII text among the bytes -/

/-- ASCII text does not start where a byte of another character is, nor at the end. -/
theorem not_prefix_of_head {m : Char} {mark : Text} {l : List UInt8} (hm : isAscii m = true)
    (hl : ∀ b ∈ l.head?, 128 ≤ b.toNat) : ¬ bytes (m :: mark) <+: l := by
  rintro ⟨l', rfl⟩
  rw [bytes_cons, utf8EncodeChar_of_isAscii hm] at hl
  have hle := hl _ rfl
  rw [toNat_ofNat_of_isAscii hm] at hle
  rw [isAscii, decide_eq_true_eq] at hm
  omega

/-- At an offset inside a character that is not one of ASCII, or right before it, there is a byte of
that character. -/
theorem le_of_mem_head?_drop {c : Char} {t : Text} {n : Nat} (hc : isAscii c = false)
    (hn : n < c.utf8Size) : ∀ b ∈ ((bytes (c :: t)).drop n).head?, 128 ≤ b.toNat := by
  intro b hb
  have hlength := String.length_utf8EncodeChar c
  have hne : (String.utf8EncodeChar c).drop n ≠ [] := by
    rw [Ne, List.drop_eq_nil_iff]
    omega
  rw [bytes_cons, List.drop_append_of_le_length (by omega), List.head?_append_of_ne_nil _ hne] at hb
  exact le_of_mem_utf8EncodeChar hc b (List.mem_of_mem_drop (List.mem_of_mem_head? hb))

theorem bytes_prefix_iff : ∀ {mark t : Text}, mark.all isAscii = true →
    (bytes mark <+: bytes t ↔ mark <+: t)
  | [], t, _ => by simp
  | m :: mark, [], hmark => by
    rw [List.all_cons, Bool.and_eq_true] at hmark
    exact iff_of_false (not_prefix_of_head hmark.1 (by simp)) (by simp)
  | m :: mark, c :: t, hmark => by
    rw [List.all_cons, Bool.and_eq_true] at hmark
    rw [List.cons_prefix_cons, ← bytes_prefix_iff hmark.2]
    cases hc : isAscii c with
    | true =>
      rw [bytes_cons, bytes_cons, utf8EncodeChar_of_isAscii hmark.1, utf8EncodeChar_of_isAscii hc,
        List.singleton_append, List.singleton_append, List.cons_prefix_cons, ← UInt8.toNat_inj,
        toNat_ofNat_of_isAscii hc, toNat_ofNat_of_isAscii hmark.1, Char.toNat_inj]
    | false =>
      refine iff_of_false (not_prefix_of_head hmark.1 (le_of_mem_head?_drop hc c.utf8Size_pos)) ?_
      rintro ⟨rfl, -⟩
      rw [hc] at hmark
      simp at hmark

/-- ASCII text stands at an offset exactly if its bytes do. -/
theorem bytes_prefix_drop_iff {m : Char} {mark : Text} (hmark : (m :: mark).all isAscii = true) :
    ∀ {t : Text} {n : Nat}, bytes (m :: mark) <+: (bytes t).drop n ↔ StandsAt (m :: mark) t n
  | t, 0 => by rw [List.drop_zero, bytes_prefix_iff hmark, standsAt_zero_iff]
  | [], n + 1 => by
    have hm : isAscii m = true := List.all_eq_true.mp hmark m List.mem_cons_self
    exact iff_of_false (not_prefix_of_head hm (by simp))
      (not_standsAt_nil (List.cons_ne_nil m mark))
  | c :: t, n + 1 => by
    have hm : isAscii m = true := List.all_eq_true.mp hmark m List.mem_cons_self
    rw [standsAt_cons_iff n.succ_pos, ← bytes_prefix_drop_iff hmark]
    by_cases hn : c.utf8Size ≤ n + 1
    · rw [bytes_cons c t, List.drop_append, String.length_utf8EncodeChar,
        List.drop_eq_nil_of_le (by rw [String.length_utf8EncodeChar]; exact hn), List.nil_append]
      exact (and_iff_right hn).symm
    · -- A character that is longer than a byte is not one of ASCII.
      have hc : isAscii c = false := by
        rw [← Bool.not_eq_true]
        intro hc
        have hlength := String.length_utf8EncodeChar c
        rw [utf8EncodeChar_of_isAscii hc, List.length_singleton] at hlength
        omega
      exact iff_of_false (not_prefix_of_head hm (le_of_mem_head?_drop hc (Nat.lt_of_not_le hn)))
        fun h => hn h.1

end FilterQuery.Text
