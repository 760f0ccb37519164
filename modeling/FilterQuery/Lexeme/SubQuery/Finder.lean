import FilterQuery.Lexeme.SubQuery

/-!
# Finding full-text queries along a scan

Whether a full-text query starts at some place depends on marks that may be far behind it. To look
for them anew at every place would read the same text again and again. A finder keeps what it saw
last: a `Sighting` says from which offset a mark was looked for and where it was found. The sighting
answers for every offset from there up to the place found, or up to the end if there was none.

## Contents

* `Sighting`: the last look for one mark, and `Sighting.look`, which looks again only if it must
* `Finder`: the sightings of the closing mark and of the newline
* `Finder.length?`: the size of the full-text query at an offset
-/

namespace FilterQuery.SubQuery

/-! ## Looking for a mark -/

/-- The offset of the first occurrence of a mark in a text that itself starts at a given offset. -/
def firstOccurrence? (mark : Text) (offset : Nat) : Text → Option Nat
  | [] => none
  | c :: rest =>
    if mark.isPrefixOf (c :: rest) then some offset
    else firstOccurrence? mark (offset + c.utf8Size) rest

theorem le_of_firstOccurrence? {mark : Text} :
    ∀ {offset place : Nat} {t : Text}, firstOccurrence? mark offset t = some place → offset ≤ place
  | offset, place, [], h => by simp [firstOccurrence?] at h
  | offset, place, c :: rest, h => by
    rw [firstOccurrence?] at h
    split at h
    · exact Nat.le_of_eq (Option.some.inj h)
    · have := le_of_firstOccurrence? h
      omega

/-- From which offset a mark was looked for, and where its first occurrence from there is. -/
structure Sighting where
  start : Nat
  found : Option Nat
  deriving DecidableEq

namespace Sighting

/-- Whether a sighting tells where the mark occurs first from a given offset on. -/
def answers (s : Sighting) (offset : Nat) : Bool :=
  s.start ≤ offset && s.found.all fun place => offset ≤ place

/-- A fresh look for a mark in the text at a given offset. -/
def fresh (mark : Text) (offset : Nat) (t : Text) : Sighting :=
  ⟨offset, firstOccurrence? mark offset t⟩

/-- A sighting that answers for a given offset: the last one if it does, else a fresh one. -/
def look (last : Option Sighting) (mark : Text) (offset : Nat) (t : Text) : Sighting :=
  match last with
  | some s => if s.answers offset then s else fresh mark offset t
  | none => fresh mark offset t

/-- What is found lies at the offset asked about or behind it, whatever the last sighting was. -/
theorem le_of_look {last : Option Sighting} {mark t : Text} {offset place : Nat}
    (h : (look last mark offset t).found = some place) : offset ≤ place := by
  unfold look at h
  split at h
  · next s =>
    split at h
    · next hs =>
      simp only [answers, h, Option.all_some, Bool.and_eq_true, decide_eq_true_eq] at hs
      exact hs.2
    · exact le_of_firstOccurrence? h
  · exact le_of_firstOccurrence? h

end Sighting

/-! ## The finder -/

/-- What was last seen of the marks that decide about a full-text query. -/
structure Finder where
  closing : Option Sighting := none
  newline : Option Sighting := none
  deriving DecidableEq

namespace Finder

/-- The size of the full-text query at the front of a text that starts at a given offset, and what
has been seen after the look. -/
def length? (f : Finder) (offset : Nat) (t : Text) : Option Nat × Finder :=
  match Text.cutFolded? opening t with
  | none => (none, f)
  | some (word, rest) =>
    let start := offset + Text.size word
    let close := Sighting.look f.closing SubQuery.closing start rest
    match close.found with
    | none => (none, { f with closing := some close })
    | some place =>
      let newline := Sighting.look f.newline ['\n'] start rest
      let seen := { closing := some close, newline := some newline }
      if newline.found.any fun line => line < place then (none, seen)
      else (some (place + Text.size SubQuery.closing - offset), seen)

/-- The full-text query at the front of a text that starts at a given offset with what follows it,
and what has been seen after the look. -/
def cut? (f : Finder) (offset : Nat) (t : Text) : Option (Text × Text) × Finder :=
  let (length, seen) := f.length? offset t
  (length.bind fun n => Text.splitAt? n t, seen)

/-- A full-text query is never empty, whatever has been seen before. -/
theorem pos_of_length? {f : Finder} {offset n : Nat} {t : Text}
    (h : (f.length? offset t).1 = some n) : 0 < n := by
  unfold length? at h
  split at h
  · simp at h
  · next word rest _ =>
    simp only at h
    split at h
    · simp at h
    · next place hplace =>
      have hle := Sighting.le_of_look hplace
      split at h
      · simp at h
      · simp only [Option.some.injEq] at h
        have hclosing : Text.size SubQuery.closing = 2 := rfl
        omega

theorem append_of_cut? {f : Finder} {offset : Nat} {t query after : Text}
    (h : (f.cut? offset t).1 = some (query, after)) : query ++ after = t ∧ query ≠ [] := by
  obtain ⟨n, hn, hsplit⟩ := Option.bind_eq_some_iff.mp h
  obtain ⟨ht, hsize⟩ := Text.eq_append_of_splitAt? hsplit
  refine ⟨ht.symm, ?_⟩
  rintro rfl
  have := pos_of_length? hn
  simp only [Text.size_nil] at hsize
  omega

end Finder
end FilterQuery.SubQuery
