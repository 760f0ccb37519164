import FilterQuery.Text.Basic

/-!
# Quoted texts

A quoted text stands between two quote marks of one style, single or double. The mark itself may
occur in it doubled. The reader stops at the last mark that can close the text: a pair of marks
continues it only if a closing mark comes later, so `'a''b` holds `'a'` and nothing more.

The value has every pair of marks collapsed to one mark, whichever style encloses the text.
-/

namespace FilterQuery

/-! ## Finding the end -/

/-- Reads on from inside a quoted text, up to and including the mark that closes it. -/
def cutClosing? (mark : Char) : Text → Option (Text × Text)
  | [] => none
  | [c] => if c = mark then some ([c], []) else none
  | c :: d :: rest =>
    if c = mark then
      if d = mark then
        match cutClosing? mark rest with
        | some (body, after) => some (c :: d :: body, after)
        | none => some ([c], d :: rest)
      else some ([c], d :: rest)
    else
      match cutClosing? mark (d :: rest) with
      | some (body, after) => some (c :: body, after)
      | none => none

theorem append_of_cutClosing? {mark : Char} {t body after : Text}
    (h : cutClosing? mark t = some (body, after)) : body ++ after = t := by
  fun_induction cutClosing? mark t generalizing body after with
  | case1 => simp at h
  | case2 =>
    simp only [Option.some.injEq, Prod.mk.injEq] at h
    simp [← h.1, ← h.2]
  | case3 => simp at h
  | case4 rest body' after' heq ih =>
    simp only [Option.some.injEq, Prod.mk.injEq] at h
    simp [← h.1, ← h.2, ih heq]
  | case5 rest heq ih =>
    simp only [Option.some.injEq, Prod.mk.injEq] at h
    simp [← h.1, ← h.2]
  | case6 d rest hd =>
    simp only [Option.some.injEq, Prod.mk.injEq] at h
    simp [← h.1, ← h.2]
  | case7 c d rest hc body' after' heq ih =>
    simp only [Option.some.injEq, Prod.mk.injEq] at h
    simp [← h.1, ← h.2, ih heq]
  | case8 => simp at h

/-- The text quoted with a given mark at the front of a text, and what follows it. -/
def cutQuoted? (mark : Char) : Text → Option (Text × Text)
  | [] => none
  | c :: rest =>
    if c = mark then (cutClosing? mark rest).map fun (body, after) => (c :: body, after) else none

theorem append_of_cutQuoted? {mark : Char} :
    ∀ {t quoted after : Text}, cutQuoted? mark t = some (quoted, after) →
      quoted ++ after = t ∧ quoted ≠ []
  | [], quoted, after, h => by simp [cutQuoted?] at h
  | c :: rest, quoted, after, h => by
    by_cases hc : c = mark
    · simp only [cutQuoted?, hc, ↓reduceIte, Option.map_eq_some_iff, Prod.mk.injEq] at h
      obtain ⟨⟨body, after'⟩, hbody, rfl, rfl⟩ := h
      simp [append_of_cutClosing? hbody, hc]
    · simp [cutQuoted?, hc] at h

/-! ## The text that is meant -/

/-- The text between equal quote marks at the two ends. -/
def quotedBody? : Text → Option Text
  | [] => none
  | c :: rest => if (c = '\'' ∨ c = '"') ∧ rest.getLast? = some c then some rest.dropLast else none

/-- Every pair of marks, from the left, replaced by one mark. -/
def collapse (mark : Char) : Text → Text
  | [] => []
  | [c] => [c]
  | c :: d :: rest =>
    if c = mark ∧ d = mark then mark :: collapse mark rest else c :: collapse mark (d :: rest)

/-- The text that is meant by what stands between the quote marks. -/
def unquote (body : Text) : Text := collapse '"' (collapse '\'' body)

end FilterQuery
