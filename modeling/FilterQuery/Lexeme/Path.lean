import FilterQuery.Text.Dotted

/-!
# Field paths

A field is named by a path: names joined by dots. A path through a relation is a path, a colon, and
a second path of at least two names. Names are made of ASCII letters, digits and underscores and do
not start with a digit.

Both readers take the longest path that the text starts with. For a relation this needs no search:
the first path has to end right before a colon, which no path contains.

Either may also be looked for anywhere in a text (`occurs`). For a plain path this comes down to a
single character (`containsPath_eq_any`).
-/

namespace FilterQuery

/-- The characters that a name may start with. -/
def isNameStart (c : Char) : Bool := c.isAlpha || c = '_'

/-- The characters that a name is made of. -/
def isNamePart (c : Char) : Bool := isNameStart c || c.isDigit

/-- The path at the front of a text, and what follows it. -/
def cutPath? : Text → Option (Text × Text)
  | [] => none
  | c :: rest =>
    if isNameStart c then
      let (path, after) := Text.cutDotted isNameStart isNamePart rest
      some (c :: path, after)
    else none

theorem append_of_cutPath? : ∀ {t path after : Text}, cutPath? t = some (path, after) →
    path ++ after = t ∧ path ≠ []
  | [], path, after, h => by simp [cutPath?] at h
  | c :: rest, path, after, h => by
    by_cases hc : isNameStart c
    · simp only [cutPath?, hc, ↓reduceIte, Option.some.injEq, Prod.mk.injEq] at h
      obtain ⟨rfl, rfl⟩ := h
      simp [Text.cutDotted_append]
    · simp [cutPath?, hc] at h

/-- The path through a relation at the front of a text, and what follows it. -/
def cutRelation? (t : Text) : Option (Text × Text) :=
  match cutPath? t with
  | some (source, ':' :: rest) =>
    match cutPath? rest with
    | some (target, after) => if '.' ∈ target then some (source ++ ':' :: target, after) else none
    | none => none
  | _ => none

theorem append_of_cutRelation? {t path after : Text} (h : cutRelation? t = some (path, after)) :
    path ++ after = t ∧ path ≠ [] := by
  unfold cutRelation? at h
  split at h
  · next source rest hsource =>
    split at h
    · next target after' htarget =>
      split at h
      · simp only [Option.some.injEq, Prod.mk.injEq] at h
        obtain ⟨rfl, rfl⟩ := h
        have h1 := (append_of_cutPath? hsource).1
        have h2 := (append_of_cutPath? htarget).1
        exact ⟨by simp [← h1, ← h2], by simp⟩
      · simp at h
    · simp at h
  · simp at h

/-- Whether a text is a path as a whole. -/
def isPath (t : Text) : Bool := cutPath? t = some (t, [])

/-- Whether a text is a path through a relation as a whole. -/
def isRelation (t : Text) : Bool := cutRelation? t = some (t, [])

/-! ## Paths anywhere -/

/-- Whether a reader finds something at some place of a text. The places are tried from the front,
and the end is one of them. -/
def occurs (cut? : Text → Option (Text × Text)) : Text → Bool
  | [] => (cut? []).isSome
  | c :: rest => (cut? (c :: rest)).isSome || occurs cut? rest

/-- The places of a text are the beginnings of what is left of it. -/
theorem occurs_iff_suffix {cut? : Text → Option (Text × Text)} :
    ∀ {t : Text}, occurs cut? t = true ↔ ∃ s, s <:+ t ∧ (cut? s).isSome = true
  | [] => by simp [occurs]
  | c :: rest => by
    simp only [occurs, Bool.or_eq_true, occurs_iff_suffix (t := rest), List.suffix_cons_iff,
      or_and_right, exists_or, exists_eq_left]

theorem occurs_of_eq_some {cut? : Text → Option (Text × Text)} {t : Text} {found : Text × Text}
    (h : cut? t = some found) : occurs cut? t = true :=
  occurs_iff_suffix.mpr ⟨t, List.suffix_rfl, Option.isSome_of_eq_some h⟩

/-- Whether some part of a text is a path. -/
def containsPath (t : Text) : Bool := occurs cutPath? t

/-- Whether some part of a text is a path through a relation. -/
def containsRelation (t : Text) : Bool := occurs cutRelation? t

/-- A path is found wherever a name may start: that character is a path by itself. -/
theorem containsPath_eq_any : ∀ t : Text, containsPath t = t.any isNameStart
  | [] => rfl
  | c :: rest => by
    have hrest : occurs cutPath? rest = rest.any isNameStart := containsPath_eq_any rest
    rw [containsPath, occurs, hrest, List.any_cons, cutPath?]
    cases isNameStart c <;> rfl

end FilterQuery
