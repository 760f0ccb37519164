import FilterQuery.Text.Basic

/-!
# Dotted words

Field paths and numbers with points have one shape: groups of characters, joined by single dots,
where the first character of a group comes from a narrower class than the others. A dot belongs to
the word only if a group follows it.

`cutDotted` reads on from inside a group. It goes as far as the shape allows, so the rest starts
neither with a character of a group nor with a dot and the first character of one.
-/

namespace FilterQuery.Text

/-- Reads on from inside a group of a dotted word: gives the rest of the word and what follows
it. -/
def cutDotted (first part : Char → Bool) : Text → Text × Text
  | [] => ([], [])
  | [c] => if part c then ([c], []) else ([], [c])
  | c :: d :: rest =>
    if part c then
      let (word, after) := cutDotted first part (d :: rest)
      (c :: word, after)
    else if c = '.' ∧ first d then
      let (word, after) := cutDotted first part rest
      (c :: d :: word, after)
    else ([], c :: d :: rest)

theorem cutDotted_append (first part : Char → Bool) (t : Text) :
    (cutDotted first part t).1 ++ (cutDotted first part t).2 = t := by
  fun_induction cutDotted first part t with
  | case1 => rfl
  | case2 => rfl
  | case3 => rfl
  | case4 c d rest h word after heq ih => simpa [heq] using ih
  | case5 c d rest h hd word after heq ih => simpa [heq] using ih
  | case6 => rfl

end FilterQuery.Text
