/-!
# Sets of characters

A set of characters is written as the inclusive ranges of its code points. Membership is decided by
arithmetic on the bounds, so a statement about every character of a small set is a matter of linear
arithmetic.
-/

namespace FilterQuery

/-- Ranges of code points, each given by its first and its last one. -/
abbrev CharSet := List (Nat × Nat)

/-- Whether a character lies in one of the ranges. -/
def CharSet.contains (s : CharSet) (c : Char) : Bool :=
  s.any fun (first, last) => first ≤ c.toNat && c.toNat ≤ last

theorem CharSet.contains_iff {s : CharSet} {c : Char} :
    s.contains c = true ↔ ∃ r ∈ s, r.1 ≤ c.toNat ∧ c.toNat ≤ r.2 := by
  simp [CharSet.contains]

end FilterQuery
