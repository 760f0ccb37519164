import FilterQuery.Lexeme.Meaning
import FilterQuery.Proofs.Pattern.Characters
import FilterQuery.Proofs.Pattern.Paired

/-!
# The meaning of lexemes of a known form

Meaning is given without regard to the pattern that found a text. Here the two are brought together:
what a text of a certain form means.
-/

namespace FilterQuery

/-- No number starts with this character. -/
def StartsNoNumeral (c : Char) : Prop := c.isDigit = false ∧ c ≠ '+' ∧ c ≠ '-' ∧ c ≠ '.'

instance : DecidablePred StartsNoNumeral := fun _ => inferInstanceAs (Decidable (_ ∧ _))

theorem isNumeral_cons_of_startsNoNumeral {c : Char} (h : StartsNoNumeral c) (t : Text) :
    isNumeral (c :: t) = false := by
  obtain ⟨hdigit, hplus, hminus, hpoint⟩ := h
  have hsign : cutSign (c :: t) = ([], c :: t) := by
    unfold cutSign
    split
    · next heq => exact absurd (List.cons.inj heq).1 hplus
    · next heq => exact absurd (List.cons.inj heq).1 hminus
    · rfl
  have hdigits : digits (c :: t) = [] := by
    rw [digits, List.takeWhile_cons_of_neg (by simp [hdigit])]
  have hafter : afterDigits (c :: t) = c :: t := by
    rw [afterDigits, List.dropWhile_cons_of_neg (by simp [hdigit])]
  unfold isNumeral
  simp only [hsign, hdigits, hafter]
  split
  · next heq => exact absurd (List.cons.inj heq).1 hpoint
  · simp

/-! ## Quoted texts -/

theorem IsMark.startsNoNumeral {mark : Char} (h : IsMark mark) : StartsNoNumeral mark := by
  rcases h with rfl | rfl
  · refine ⟨?_, ?_, ?_, ?_⟩ <;> decide
  · refine ⟨?_, ?_, ?_, ?_⟩ <;> decide

theorem quotedBody?_of_mark {mark : Char} (h : IsMark mark) (body : Text) :
    quotedBody? (mark :: body ++ [mark]) = some body := by
  rw [List.cons_append, quotedBody?, if_pos ⟨h, by simp⟩, List.dropLast_concat]

theorem meaning_of_quotedBody? (grammar : NumberGrammar) {x body : Text}
    (hnumeral : isNumeral x = false) (hbody : quotedBody? x = some body) :
    meaning grammar x = (.string, unquote body) := by
  unfold meaning
  simp [hnumeral, hbody]

/-- A quoted text means the text that was quoted. -/
theorem meaning_quote (grammar : NumberGrammar) {mark : Char} (h : IsMark mark) (s : Text) :
    meaning grammar (Text.quote mark s) = (.string, s) := by
  have hnumeral : isNumeral (Text.quote mark s) = false :=
    isNumeral_cons_of_startsNoNumeral h.startsNoNumeral _
  rw [meaning_of_quotedBody? grammar hnumeral (quotedBody?_of_mark h _), unquote_double]

/-- A mark alone means nothing. -/
theorem meaning_mark (grammar : NumberGrammar) {mark : Char} (h : IsMark mark) :
    meaning grammar [mark] = (.unrecognized, [mark]) := by
  cases grammar <;> rcases h with rfl | rfl <;> decide

/-! ## Full-text queries -/

namespace SubQuery

variable {x : Text}

/-- A text means a full-text query only if it starts with the opening. -/
theorem body?_eq_none (h : ¬ Text.fold opening <+: Text.fold x) : body? x = none := by
  rw [body?, Option.map_eq_none_iff]
  cases hcut : Text.cutFolded? opening x with
  | none => rfl
  | some found =>
    obtain ⟨hx, hfold⟩ := Text.eq_append_of_cutFolded? hcut
    rw [hx, Text.fold_append, hfold] at h
    exact absurd (List.prefix_append _ _) h

/-- The opening has a parenthesis in it. -/
theorem body?_of_not_mem (h : '(' ∉ x) : body? x = none := by
  refine body?_eq_none fun hpre => ?_
  have hmem : '(' ∈ Text.fold opening := by decide
  obtain ⟨c, hc, heq⟩ := List.mem_map.mp (hpre.mem hmem)
  have hparen : c = '(' := (Text.toLower_eq_iff (d := '(') (by decide)).mp heq
  exact h (hparen ▸ hc)

end SubQuery

/-! ## Paths -/

theorem startsNoNumeral_of_isNameStart {c : Char} (h : isNameStart c = true) :
    StartsNoNumeral c := by
  rw [isNameStart, Bool.or_eq_true, decide_eq_true_eq] at h
  rcases h with h | rfl
  · rw [Text.isAlpha_iff] at h
    refine ⟨?_, ?_, ?_, ?_⟩
    · rw [← Bool.not_eq_true, Text.isDigit_iff]
      omega
    all_goals
      rintro rfl
      revert h
      decide
  · refine ⟨?_, ?_, ?_, ?_⟩ <;> decide

theorem exists_isNameStart_of_path {x : Text} (h : Regex.path.Matches x) :
    ∃ c tail, x = c :: tail ∧ isNameStart c = true := by
  have hform : Pattern.Form .strict .field x := h
  obtain ⟨c, tail, rfl⟩ := List.exists_cons_of_ne_nil hform.ne_nil
  have hstarts := Regex.starts_of_matches h rfl
  simp only [Regex.path, Regex.identifier, Regex.run, Regex.starts, Regex.nullable,
    Bool.false_and, Bool.or_false] at hstarts
  exact ⟨c, tail, rfl, hstarts⟩

theorem isPath_of_path {x : Text} (h : Regex.path.Matches x) : isPath x = true := by
  have hform : Pattern.Form .strict .field x := h
  rw [isPath, decide_eq_true_eq]
  exact hform.cut?_eq

theorem containsPath_of_path {x : Text} (h : Regex.path.Matches x) : containsPath x = true := by
  obtain ⟨c, tail, rfl, hc⟩ := exists_isNameStart_of_path h
  rw [containsPath_eq_any, List.any_cons, hc, Bool.true_or]

/-- A path through a relation holds a colon. -/
theorem mem_of_cutRelation? {t x after : Text} (h : cutRelation? t = some (x, after)) :
    ':' ∈ t := by
  unfold cutRelation? at h
  split at h
  · next source rest hsource =>
    rw [← (append_of_cutPath? hsource).1]
    simp
  · simp at h

theorem isRelation_of_not_mem {x : Text} (h : ':' ∉ x) : isRelation x = false := by
  rw [isRelation, decide_eq_false_iff_not]
  exact fun hcut => h (mem_of_cutRelation? hcut)

theorem containsRelation_of_not_mem {x : Text} (h : ':' ∉ x) : containsRelation x = false := by
  rw [← Bool.not_eq_true, containsRelation, occurs_iff_suffix]
  rintro ⟨s, hs, hcut⟩
  obtain ⟨found, hcut⟩ := Option.isSome_iff_exists.mp hcut
  exact h (hs.subset (mem_of_cutRelation? hcut))

theorem meaning_of_name (grammar : NumberGrammar) {x : Text} (hnumeral : isNumeral x = false)
    (hquoted : quotedBody? x = none) (hquery : SubQuery.body? x = none)
    (hword : Kind.ofSpelling? x = none) : meaning grammar x = (nameKind grammar x, x) := by
  unfold meaning
  simp [hnumeral, hquoted, hquery, hword]

/-- A path with no fixed wording is a field. -/
theorem meaning_of_path (grammar : NumberGrammar) {x : Text} (h : Regex.path.Matches x)
    (hword : Kind.ofSpelling? x = none) : meaning grammar x = (.field, x) := by
  have hcolon : ':' ∉ x := Regex.not_mem_of_matches h (by decide)
  have hkind : nameKind grammar x = .field := by
    cases grammar with
    | strict => simp [nameKind, isRelation_of_not_mem hcolon, isPath_of_path h]
    | compat => simp [nameKind, containsRelation_of_not_mem hcolon, containsPath_of_path h]
  have hquery : SubQuery.body? x = none :=
    SubQuery.body?_of_not_mem (Regex.not_mem_of_matches h (by decide))
  obtain ⟨c, tail, rfl, hc⟩ := exists_isNameStart_of_path h
  have hquoted : quotedBody? (c :: tail) = none := by
    rw [quotedBody?, if_neg]
    rintro ⟨rfl | rfl, -⟩
    · exact absurd hc (by decide)
    · exact absurd hc (by decide)
  rw [meaning_of_name grammar
    (isNumeral_cons_of_startsNoNumeral (startsNoNumeral_of_isNameStart hc) tail) hquoted hquery
    hword, hkind]

end FilterQuery
