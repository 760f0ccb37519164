import FilterQuery.Proofs.Pattern.Table
import FilterQuery.Text.Blank

/-!
# The characters of a lexeme

No lexeme ends in a blank, and only literals and full-text queries hold quote marks.
-/

namespace FilterQuery

/-- No visible character of ASCII is blank. -/
theorem not_isBlank_of_toNat {c : Char} (h1 : 33 ≤ c.toNat) (h2 : c.toNat ≤ 126) :
    isBlank c = false := by
  by_contra h
  obtain ⟨r, hr, hlow, hhigh⟩ := CharSet.contains_iff.mp (Bool.not_eq_false _ ▸ h)
  simp only [blankChars, List.mem_cons, List.not_mem_nil, or_false] at hr
  rcases hr with rfl | rfl | rfl | rfl | rfl | rfl | rfl | rfl | rfl | rfl <;>
    simp only at hlow hhigh <;> omega

theorem not_isBlank_of_isAlpha {c : Char} (h : c.isAlpha = true) : isBlank c = false := by
  rw [Text.isAlpha_iff] at h
  exact not_isBlank_of_toNat (by omega) (by omega)

theorem not_isBlank_of_isDigit {c : Char} (h : c.isDigit = true) : isBlank c = false := by
  rw [Text.isDigit_iff] at h
  exact not_isBlank_of_toNat (by omega) (by omega)

theorem not_isBlank_of_isNameStart {c : Char} (h : isNameStart c = true) : isBlank c = false := by
  rw [isNameStart, Bool.or_eq_true] at h
  rcases h with h | h
  · exact not_isBlank_of_isAlpha h
  · rw [of_decide_eq_true h]
    decide

theorem not_isBlank_of_isNamePart {c : Char} (h : isNamePart c = true) : isBlank c = false := by
  rw [isNamePart, Bool.or_eq_true] at h
  rcases h with h | h
  · exact not_isBlank_of_isNameStart h
  · exact not_isBlank_of_isDigit h

/-- A character of a word is not blank, in whatever case. -/
theorem not_isBlank_of_toLower_eq {c d : Char} (h : c.toLower = d.toLower)
    (hd : isBlank d = false) : isBlank c = false := by
  rcases Text.isAlpha_or_eq_of_toLower_eq h with hc | rfl
  · exact not_isBlank_of_isAlpha hc
  · exact hd

/-- The marks that enclose a quoted text. -/
def IsMark (c : Char) : Prop := c = '\'' ∨ c = '"'

theorem IsMark.not_isBlank {c : Char} (h : IsMark c) : isBlank c = false := by
  rcases h with rfl | rfl <;> decide

/-- A full-text query starts with the first letter of its opening word. -/
theorem SubQuery.IsQuery.head {c : Char} {tail : Text} (h : IsQuery (c :: tail)) :
    c.toLower = 'q' := by
  obtain ⟨word, body, hx, hword, -⟩ := h
  cases word with
  | nil => exact absurd hword (by decide)
  | cons d word =>
    simp only [List.cons_append, List.cons.injEq] at hx
    rw [hx.1]
    rw [opening_eq, Text.fold, List.map_cons] at hword
    exact (List.cons.inj hword).1

/-- A quoted text ends in its mark. -/
theorem not_isBlank_of_finishes_quoted {mark c : Char} (h : IsMark mark)
    (hc : (Regex.quoted mark).finishes c = true) : isBlank c = false := by
  have hlast : c = mark := by
    simpa [Regex.quoted, Regex.finishes, Regex.nullable, Regex.char] using hc
  rw [hlast]
  exact h.not_isBlank

namespace Pattern

variable {grammar : NumberGrammar}

theorem not_isBlank_of_finishes {p : Pattern} {r : Regex} (h : p.expression? grammar = some r)
    {c : Char} (hc : r.finishes c = true) : isBlank c = false := by
  cases p with
  | subQuery => simp [expression?] at h
  | singleQuoted =>
    cases h
    exact not_isBlank_of_finishes_quoted (Or.inl rfl) hc
  | doubleQuoted =>
    cases h
    exact not_isBlank_of_finishes_quoted (Or.inr rfl) hc
  | operator =>
    cases h
    have hc : c = '=' ∨ c = '>' ∨ c = '<' ∨ c.toLower = 'e' := by
      simpa [Regex.operator, Regex.anyOf, Regex.literal, Regex.word, Regex.finishes,
        Regex.nullable, Regex.char] using hc
    rcases hc with rfl | rfl | rfl | hc
    · decide
    · decide
    · decide
    · exact not_isBlank_of_toLower_eq (d := 'e') hc (by decide)
  | keyword =>
    cases h
    have hc : c.toLower = 'l' ∨ c.toLower = 'y' := by
      simpa [Regex.keyword, Regex.anyOf, Regex.word, Regex.finishes, Regex.nullable] using hc
    rcases hc with hc | hc
    · exact not_isBlank_of_toLower_eq (d := 'l') hc (by decide)
    · exact not_isBlank_of_toLower_eq (d := 'y') hc (by decide)
  | relation =>
    cases h
    have hc : isNamePart c = true ∨ isNameStart c = true := by
      simpa [Regex.relation, Regex.longPath, Regex.identifier, Regex.run, Regex.plus,
        Regex.finishes, Regex.nullable, Regex.char] using hc
    rcases hc with hc | hc
    · exact not_isBlank_of_isNamePart hc
    · exact not_isBlank_of_isNameStart hc
  | field =>
    cases h
    have hc : isNamePart c = true ∨ isNameStart c = true := by
      simpa [Regex.path, Regex.identifier, Regex.run, Regex.finishes, Regex.nullable,
        Regex.char] using hc
    rcases hc with hc | hc
    · exact not_isBlank_of_isNamePart hc
    · exact not_isBlank_of_isNameStart hc
  | number =>
    cases h
    have hc : c.isDigit = true := by
      cases grammar <;>
        simpa [Regex.number, Regex.digits, Regex.plus, Regex.fraction, Regex.exponent, Regex.opt,
          Regex.finishes, Regex.nullable, Regex.char] using hc
    exact not_isBlank_of_isDigit hc
  | parenthesis =>
    cases h
    have hc : c = '(' ∨ c = ')' := by simpa [Regex.parenthesis, Regex.finishes] using hc
    rcases hc with rfl | rfl
    · decide
    · decide

/-- No lexeme ends in a blank. -/
theorem Form.not_isBlank_last {p : Pattern} {x : Text} (h : p.Form grammar x) :
    ∀ c ∈ x.getLast?, isBlank c = false := by
  intro c hc
  cases hp : p.expression? grammar with
  | some r =>
    have hmatches := (form_of_expression? hp x).mp h
    exact not_isBlank_of_finishes hp (Regex.finishes_of_matches hmatches c hc)
  | none =>
    obtain ⟨word, body, rfl, -⟩ : SubQuery.IsQuery x := by
      rwa [Form, hp] at h
    have hlast : (word ++ body ++ SubQuery.closing).getLast? = some ')' := by
      rw [SubQuery.closing_eq, List.getLast?_append]
      rfl
    rw [hlast, Option.mem_some_iff] at hc
    subst hc
    decide

/-! ## Quote marks -/

/-- The pattern of the texts that a mark encloses. -/
def ofMark (mark : Char) : Pattern := if mark = '\'' then singleQuoted else doubleQuoted

theorem expression?_ofMark {mark : Char} (h : IsMark mark) :
    (ofMark mark).expression? grammar = some (Regex.quoted mark) := by
  rcases h with rfl | rfl <;> rfl

theorem form_ofMark {mark : Char} (h : IsMark mark) {x : Text} :
    (ofMark mark).Form grammar x ↔ (Regex.quoted mark).Matches x :=
  form_of_expression? (expression?_ofMark h) x

theorem not_starts_mark {p : Pattern} {r : Regex} (hr : p.expression? grammar = some r)
    {mark : Char} (h : IsMark mark) (hp : p ≠ ofMark mark) : r.starts mark = false := by
  cases p with
  | subQuery => simp [expression?] at hr
  | number => cases hr; cases grammar <;> rcases h with rfl | rfl <;> decide
  | _ =>
    cases hr
    rcases h with rfl | rfl <;> first | exact absurd rfl hp | decide

theorem not_uses_mark {p : Pattern} {r : Regex} (hr : p.expression? grammar = some r)
    {mark : Char} (h : IsMark mark) (hsingle : p ≠ singleQuoted) (hdouble : p ≠ doubleQuoted) :
    r.uses mark = false := by
  cases p with
  | subQuery => simp [expression?] at hr
  | singleQuoted => exact absurd rfl hsingle
  | doubleQuoted => exact absurd rfl hdouble
  | number => cases hr; cases grammar <;> rcases h with rfl | rfl <;> decide
  | _ =>
    cases hr
    rcases h with rfl | rfl <;> decide

/-- A lexeme that starts with a mark is one that the mark encloses. -/
theorem eq_ofMark_of_form {p : Pattern} {mark : Char} {tail : Text} (h : IsMark mark)
    (hform : p.Form grammar (mark :: tail)) : p = ofMark mark := by
  by_contra hp
  cases hr : p.expression? grammar with
  | some r =>
    have hstarts := Regex.starts_of_matches ((form_of_expression? hr _).mp hform) rfl
    rw [not_starts_mark hr h hp] at hstarts
    simp at hstarts
  | none =>
    have hquery : SubQuery.IsQuery (mark :: tail) := by rwa [Form, hr] at hform
    have hq := hquery.head
    rcases h with rfl | rfl
    · exact absurd hq (by decide)
    · exact absurd hq (by decide)

end Pattern

/-! ## Words of letters -/

theorem Regex.matches_star_one {q : Char → Bool} : ∀ {x : Text}, (∀ c ∈ x, q c = true) →
    (star (one q)).Matches x
  | [], _ => .stop
  | c :: x, h => by
    rw [← List.singleton_append]
    exact .more (.one (h c List.mem_cons_self))
      (matches_star_one fun d hd => h d (List.mem_cons_of_mem c hd))

theorem isNameStart_of_isAlpha {c : Char} (h : c.isAlpha = true) : isNameStart c = true := by
  rw [isNameStart, h, Bool.true_or]

/-- A word of letters is a path. -/
theorem path_of_isAlpha {x : Text} (hne : x ≠ []) (h : ∀ c ∈ x, c.isAlpha = true) :
    Regex.path.Matches x := by
  obtain ⟨c, tail, rfl⟩ := List.exists_cons_of_ne_nil hne
  have hfirst := Regex.Matches.one (isNameStart_of_isAlpha (h c List.mem_cons_self))
  have hpart : ∀ d ∈ tail, isNamePart d = true := by
    intro d hd
    rw [isNamePart, isNameStart_of_isAlpha (h d (List.mem_cons_of_mem c hd)), Bool.true_or]
  have hname : Regex.identifier.Matches (c :: tail) :=
    .seq hfirst (Regex.matches_star_one hpart)
  rw [← List.append_nil (c :: tail)]
  exact .seq hname .stop

/-- A path through a relation holds a colon. -/
theorem mem_of_relation {x : Text} (h : Regex.relation.Matches x) : ':' ∈ x := by
  simp only [Regex.relation, Regex.matches_seq_iff, Regex.matches_char_iff] at h
  obtain ⟨source, u, -, ⟨colon, target, rfl, -, rfl⟩, rfl⟩ := h
  simp

end FilterQuery
