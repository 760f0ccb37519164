/-!
# Text and its byte offsets

A query is handled as the list of its characters, and every offset into it counts the bytes of its
UTF-8 form. So an offset is a character boundary exactly when it is the size of a beginning of the
text.

## Contents

* `size`: bytes of a text; it adds up over `++`
* `splitAt?`: the two parts at an offset, if the offset is a boundary
* `slice?`: the part between two offsets
* `fold`: ASCII letters brought to lower case, all else kept
* `cutFolded?`: a word taken off the front, whatever the case of its ASCII letters
-/

namespace FilterQuery

/-- Text is the list of its characters. -/
abbrev Text := List Char

namespace Text

/-! ## Size and offsets -/

/-- Bytes that a text takes in UTF-8. -/
def size : Text → Nat
  | [] => 0
  | c :: rest => c.utf8Size + size rest

@[simp] theorem size_nil : size [] = 0 := rfl

@[simp] theorem size_cons (c : Char) (rest : Text) :
    size (c :: rest) = c.utf8Size + size rest := rfl

@[simp] theorem size_append : ∀ a b : Text, size (a ++ b) = size a + size b
  | [], b => by simp
  | c :: a, b => by simp [size_append a b, Nat.add_assoc]

theorem length_le_size : ∀ t : Text, t.length ≤ size t
  | [] => Nat.le_refl 0
  | c :: rest => by
    have := length_le_size rest
    have := c.utf8Size_pos
    simp only [List.length_cons, size_cons]
    omega

theorem size_eq_zero {t : Text} : size t = 0 ↔ t = [] := by
  constructor
  · intro h
    have := length_le_size t
    exact List.eq_nil_of_length_eq_zero (by omega)
  · rintro rfl
    rfl

/-- The size is that of the text as a string. -/
theorem size_eq_utf8ByteSize : ∀ t : Text, size t = (String.ofList t).utf8ByteSize
  | [] => rfl
  | c :: rest => by
    simp [size_eq_utf8ByteSize rest, String.ofList_cons, String.utf8ByteSize_append]

/-- The parts before and after an offset. There are none when the offset is past the end or inside
a character. -/
def splitAt? : Nat → Text → Option (Text × Text)
  | 0, t => some ([], t)
  | _ + 1, [] => none
  | n + 1, c :: rest =>
    if c.utf8Size ≤ n + 1 then
      (splitAt? (n + 1 - c.utf8Size) rest).map fun (before, after) => (c :: before, after)
    else none

@[simp] theorem splitAt?_size_append : ∀ a b : Text, splitAt? (size a) (a ++ b) = some (a, b)
  | [], b => by cases b <;> rfl
  | c :: a, b => by
    have hc := c.utf8Size_pos
    obtain ⟨n, hn⟩ : ∃ n, size (c :: a) = n + 1 := ⟨size (c :: a) - 1, by simp; omega⟩
    have hle : c.utf8Size ≤ n + 1 := by rw [← hn]; simp
    have hsub : n + 1 - c.utf8Size = size a := by rw [← hn]; simp
    rw [hn, List.cons_append, splitAt?, if_pos hle, hsub, splitAt?_size_append a b]
    rfl

theorem eq_append_of_splitAt? :
    ∀ {n : Nat} {t a b : Text}, splitAt? n t = some (a, b) → t = a ++ b ∧ size a = n
  | 0, t, a, b, h => by
    have h : some (([] : Text), t) = some (a, b) := by simpa [splitAt?] using h
    injection h with h
    injection h with ha hb
    subst ha hb
    exact ⟨rfl, rfl⟩
  | n + 1, [], a, b, h => by simp [splitAt?] at h
  | n + 1, c :: rest, a, b, h => by
    by_cases hc : c.utf8Size ≤ n + 1
    · simp only [splitAt?, hc, ↓reduceIte, Option.map_eq_some_iff] at h
      obtain ⟨⟨a', b'⟩, h', heq⟩ := h
      obtain ⟨hrest, hsize⟩ := eq_append_of_splitAt? h'
      simp only [Prod.mk.injEq] at heq
      obtain ⟨rfl, rfl⟩ := heq
      exact ⟨by rw [hrest]; rfl, by simp; omega⟩
    · simp [splitAt?, hc] at h

/-- An offset splits the text exactly when it is the size of a beginning of it. -/
theorem splitAt?_eq_some_iff {n : Nat} {t a b : Text} :
    splitAt? n t = some (a, b) ↔ t = a ++ b ∧ size a = n :=
  ⟨eq_append_of_splitAt?, fun ⟨ht, hn⟩ => by rw [ht, ← hn, splitAt?_size_append]⟩

/-- The text from one offset to another. There is none when the offsets are out of order, past the
end or inside a character. -/
def slice? (t : Text) (start stop : Nat) : Option Text :=
  if start ≤ stop then do
    let (_, after) ← splitAt? start t
    let (part, _) ← splitAt? (stop - start) after
    some part
  else none

theorem slice?_eq_some_iff {t part : Text} {start stop : Nat} :
    slice? t start stop = some part ↔
      ∃ before after, t = before ++ part ++ after ∧ size before = start ∧
        size before + size part = stop := by
  constructor
  · intro h
    by_cases hle : start ≤ stop
    · simp only [slice?, hle, ↓reduceIte, Option.bind_eq_bind, Option.bind_eq_some_iff,
        Option.some.injEq] at h
      obtain ⟨⟨before, rest⟩, h1, ⟨part', after⟩, h2, rfl⟩ := h
      obtain ⟨rfl, hb⟩ := eq_append_of_splitAt? h1
      obtain ⟨rfl, hp⟩ := eq_append_of_splitAt? h2
      exact ⟨before, after, by simp, hb, by simp only; omega⟩
    · simp [slice?, hle] at h
  · rintro ⟨before, after, rfl, rfl, rfl⟩
    have hsub : size before + size part - size before = size part := by omega
    simp [slice?, hsub]

/-! ## Letter case -/

/-- ASCII letters brought to lower case; every other character stays. -/
def fold (t : Text) : Text := t.map Char.toLower

@[simp] theorem fold_append (a b : Text) : fold (a ++ b) = fold a ++ fold b := List.map_append

/-- Takes a word off the front of a text, whatever the case of its ASCII letters, and gives the
spelling found there and the rest. -/
def cutFolded? : Text → Text → Option (Text × Text)
  | [], t => some ([], t)
  | _ :: _, [] => none
  | w :: word, c :: rest =>
    if c.toLower = w.toLower then
      (cutFolded? word rest).map fun (found, after) => (c :: found, after)
    else none

theorem eq_append_of_cutFolded? :
    ∀ {word t found after : Text}, cutFolded? word t = some (found, after) →
      t = found ++ after ∧ fold found = fold word
  | [], t, found, after, h => by
    simp only [cutFolded?, Option.some.injEq, Prod.mk.injEq] at h
    obtain ⟨rfl, rfl⟩ := h
    exact ⟨rfl, rfl⟩
  | w :: word, [], found, after, h => by simp [cutFolded?] at h
  | w :: word, c :: rest, found, after, h => by
    by_cases hc : c.toLower = w.toLower
    · simp only [cutFolded?, hc, ↓reduceIte, Option.map_eq_some_iff, Prod.mk.injEq] at h
      obtain ⟨⟨found', after'⟩, h', rfl, rfl⟩ := h
      obtain ⟨hrest, hfold⟩ := eq_append_of_cutFolded? h'
      refine ⟨by rw [hrest]; rfl, ?_⟩
      simp only [fold, List.map_cons] at hfold ⊢
      rw [hc, hfold]
    · simp [cutFolded?, hc] at h

theorem cutFolded?_of_fold_eq :
    ∀ {word found : Text} (after : Text), fold found = fold word →
      cutFolded? word (found ++ after) = some (found, after)
  | [], [], after, _ => rfl
  | [], c :: found, after, h => by simp [fold] at h
  | w :: word, [], after, h => by simp [fold] at h
  | w :: word, c :: found, after, h => by
    simp only [fold, List.map_cons, List.cons.injEq] at h
    simp [cutFolded?, h.1, cutFolded?_of_fold_eq after h.2]

end Text
end FilterQuery
