import FilterQuery.Proofs.Regex.Basic

/-!
# The characters of an expression

Which characters the texts of an expression start with, end in and are made of, as far as this can
be read off the expression. Only one direction is shown: a character that is not allowed here does
not occur there.
-/

namespace FilterQuery.Regex

/-- Whether an expression stands for the empty text. -/
def nullable : Regex → Bool
  | empty => true
  | one _ => false
  | seq a b => nullable a && nullable b
  | alt a b => nullable a || nullable b
  | star _ => true

/-- Whether a text of the expression may start with a character. -/
def starts : Regex → Char → Bool
  | empty, _ => false
  | one p, c => p c
  | seq a b, c => starts a c || nullable a && starts b c
  | alt a b, c => starts a c || starts b c
  | star a, c => starts a c

/-- Whether a text of the expression may end in a character. -/
def finishes : Regex → Char → Bool
  | empty, _ => false
  | one p, c => p c
  | seq a b, c => finishes b c || nullable b && finishes a c
  | alt a b, c => finishes a c || finishes b c
  | star a, c => finishes a c

/-- Whether a character may occur in a text of the expression. -/
def uses : Regex → Char → Bool
  | empty, _ => false
  | one p, c => p c
  | seq a b, c => uses a c || uses b c
  | alt a b, c => uses a c || uses b c
  | star a, c => uses a c

theorem nullable_of_matches {r : Regex} {x : Text} (h : Matches r x) :
    x = [] → nullable r = true := by
  induction h with
  | empty => exact fun _ => rfl
  | one _ => exact fun h => by simp at h
  | seq _ _ iha ihb =>
    intro h
    rw [List.append_eq_nil_iff] at h
    rw [nullable, iha h.1, ihb h.2]
    rfl
  | left _ ih => exact fun h => by rw [nullable, ih h, Bool.true_or]
  | right _ ih => exact fun h => by rw [nullable, ih h, Bool.or_true]
  | stop => exact fun _ => rfl
  | more _ _ _ _ => exact fun _ => rfl

theorem starts_of_matches {r : Regex} {x : Text} (h : Matches r x) :
    ∀ {c : Char} {rest : Text}, x = c :: rest → starts r c = true := by
  induction h with
  | empty => intro c rest h; simp at h
  | one hc =>
    intro c rest h
    rw [List.cons.injEq] at h
    rw [starts, ← h.1, hc]
  | @seq a b x y hx _ iha ihb =>
    intro c rest h
    rw [starts]
    cases x with
    | nil => rw [nullable_of_matches hx rfl, ihb (by simpa using h)]; simp
    | cons d x =>
      rw [List.cons_append, List.cons.injEq] at h
      rw [iha (congrArg (· :: x) h.1), Bool.true_or]
  | left _ ih => intro c rest h; rw [starts, ih h, Bool.true_or]
  | right _ ih => intro c rest h; rw [starts, ih h, Bool.or_true]
  | stop => intro c rest h; simp at h
  | @more a x y _ _ iha ihy =>
    intro c rest h
    cases x with
    | nil => exact ihy (by simpa using h)
    | cons d x =>
      rw [List.cons_append, List.cons.injEq] at h
      exact iha (congrArg (· :: x) h.1)

theorem finishes_of_matches {r : Regex} {x : Text} (h : Matches r x) :
    ∀ c ∈ x.getLast?, finishes r c = true := by
  induction h with
  | empty => intro c hc; simp at hc
  | one hp =>
    intro c hc
    rw [List.getLast?_singleton, Option.mem_some_iff] at hc
    rw [finishes, ← hc, hp]
  | @seq a b x y _ hy iha ihb =>
    intro c hc
    rw [finishes]
    rw [List.getLast?_append, Option.mem_def, Option.or_eq_some_iff] at hc
    rcases hc with hc | ⟨hnone, hc⟩
    · rw [ihb c hc, Bool.true_or]
    · rw [nullable_of_matches hy (List.getLast?_eq_none_iff.mp hnone), iha c hc]
      simp
  | left _ ih => intro c hc; rw [finishes, ih c hc, Bool.true_or]
  | right _ ih => intro c hc; rw [finishes, ih c hc, Bool.or_true]
  | stop => intro c hc; simp at hc
  | @more a x y _ _ iha ihy =>
    intro c hc
    rw [List.getLast?_append, Option.mem_def, Option.or_eq_some_iff] at hc
    rcases hc with hc | ⟨_, hc⟩
    · exact ihy c hc
    · exact iha c hc

theorem uses_of_matches {r : Regex} {x : Text} (h : Matches r x) :
    ∀ c ∈ x, uses r c = true := by
  induction h with
  | empty => intro c hc; simp at hc
  | one hp =>
    intro c hc
    rw [List.mem_singleton] at hc
    rw [uses, hc, hp]
  | seq _ _ iha ihb =>
    intro c hc
    rw [uses, Bool.or_eq_true]
    rcases List.mem_append.mp hc with hc | hc
    · exact Or.inl (iha c hc)
    · exact Or.inr (ihb c hc)
  | left _ ih => intro c hc; rw [uses, ih c hc, Bool.true_or]
  | right _ ih => intro c hc; rw [uses, ih c hc, Bool.or_true]
  | stop => intro c hc; simp at hc
  | more _ _ iha ihy =>
    intro c hc
    rcases List.mem_append.mp hc with hc | hc
    · exact iha c hc
    · exact ihy c hc

/-- A character that no text of an expression may hold is in none of them. -/
theorem not_mem_of_matches {r : Regex} {x : Text} (h : Matches r x) {c : Char}
    (hc : r.uses c = false) : c ∉ x := by
  intro hmem
  rw [uses_of_matches h c hmem] at hc
  simp at hc

end FilterQuery.Regex
