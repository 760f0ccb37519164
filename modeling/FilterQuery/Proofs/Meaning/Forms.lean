import FilterQuery.Proofs.Meaning.Lexemes
import FilterQuery.Proofs.Pattern.Number

/-!
# What each form means

The rules that give a text its meaning are written apart from the patterns that find lexemes, and in
another order. Here each form of a lexeme is led to the rule that takes it. Two facts rule out the
others: no form but the number starts as a numeral does (`Pattern.Form.isNumeral`), and no form but
the quoted texts starts with a mark (`Pattern.Form.quotedBody?`).

A character that has no form has no meaning either (`meaning_of_alone`).
-/

namespace FilterQuery

variable {grammar : NumberGrammar} {x : Text}

/-! ## First characters -/

theorem startsNoNumeral_of_toLower_eq {c d : Char} (h : c.toLower = d.toLower)
    (hd : StartsNoNumeral d) : StartsNoNumeral c := by
  rcases Text.isAlpha_or_eq_of_toLower_eq h with hc | rfl
  · exact startsNoNumeral_of_isNameStart (isNameStart_of_isAlpha hc)
  · exact hd

namespace Pattern

/-- Only numbers start as numerals do. -/
theorem startsNoNumeral_of_starts {p : Pattern} {r : Regex} (hr : p.expression? grammar = some r)
    (hp : p ≠ number) {c : Char} (hc : r.starts c = true) : StartsNoNumeral c := by
  cases p with
  | subQuery => simp [expression?] at hr
  | number => exact absurd rfl hp
  | singleQuoted =>
    cases hr
    have hc : c = '\'' := by simpa [Regex.quoted, Regex.starts, Regex.nullable, Regex.char] using hc
    rw [hc]
    decide
  | doubleQuoted =>
    cases hr
    have hc : c = '"' := by simpa [Regex.quoted, Regex.starts, Regex.nullable, Regex.char] using hc
    rw [hc]
    decide
  | operator =>
    cases hr
    have hc : c = '>' ∨ c = '<' ∨ c = '!' ∨ c = '=' ∨ c = '>' ∨ c = '<' ∨ c.toLower = 'n' ∨
        c.toLower = 'l' := by
      simpa [Regex.operator, Regex.anyOf, Regex.literal, Regex.word, Regex.starts,
        Regex.nullable, Regex.char] using hc
    rcases hc with rfl | rfl | rfl | rfl | rfl | rfl | hc | hc
    iterate 6 decide
    · exact startsNoNumeral_of_toLower_eq (d := 'n') hc (by decide)
    · exact startsNoNumeral_of_toLower_eq (d := 'l') hc (by decide)
  | keyword =>
    cases hr
    have hc : c.toLower = 'n' ∨ c.toLower = 'e' := by
      simpa [Regex.keyword, Regex.anyOf, Regex.word, Regex.starts, Regex.nullable] using hc
    rcases hc with hc | hc
    · exact startsNoNumeral_of_toLower_eq (d := 'n') hc (by decide)
    · exact startsNoNumeral_of_toLower_eq (d := 'e') hc (by decide)
  | relation =>
    cases hr
    have hc : isNameStart c = true := by
      simpa [Regex.relation, Regex.path, Regex.identifier, Regex.run, Regex.starts,
        Regex.nullable] using hc
    exact startsNoNumeral_of_isNameStart hc
  | field =>
    cases hr
    have hc : isNameStart c = true := by
      simpa [Regex.path, Regex.identifier, Regex.run, Regex.starts, Regex.nullable] using hc
    exact startsNoNumeral_of_isNameStart hc
  | parenthesis =>
    cases hr
    have hc : c = '(' ∨ c = ')' := by simpa [Regex.parenthesis, Regex.starts] using hc
    rcases hc with rfl | rfl
    · decide
    · decide

theorem Form.startsNoNumeral {p : Pattern} {c : Char} {tail : Text}
    (h : p.Form grammar (c :: tail)) (hp : p ≠ number) : StartsNoNumeral c := by
  cases hr : p.expression? grammar with
  | some r =>
    exact startsNoNumeral_of_starts hr hp
      (Regex.starts_of_matches ((form_of_expression? hr _).mp h) rfl)
  | none =>
    obtain rfl := eq_subQuery_of_expression? hr
    have hquery : SubQuery.IsQuery (c :: tail) := h
    exact startsNoNumeral_of_toLower_eq (d := 'q') hquery.head (by decide)

/-- No form but the number is a numeral. -/
theorem Form.isNumeral {p : Pattern} (h : p.Form grammar x) (hp : p ≠ number) :
    isNumeral x = false := by
  obtain ⟨c, tail, rfl⟩ := List.exists_cons_of_ne_nil h.ne_nil
  exact isNumeral_cons_of_startsNoNumeral (h.startsNoNumeral hp) tail

/-- No form but the quoted texts stands between marks. -/
theorem Form.quotedBody? {p : Pattern} (h : p.Form grammar x) (hsingle : p ≠ singleQuoted)
    (hdouble : p ≠ doubleQuoted) : quotedBody? x = none := by
  obtain ⟨c, tail, rfl⟩ := List.exists_cons_of_ne_nil h.ne_nil
  rw [FilterQuery.quotedBody?, if_neg]
  rintro ⟨rfl | rfl, -⟩
  · exact hsingle (eq_ofMark_of_form (Or.inl rfl) h)
  · exact hdouble (eq_ofMark_of_form (Or.inr rfl) h)

end Pattern

theorem meaning_of_isNumeral (h : isNumeral x = true) :
    meaning grammar x = (if isInteger x then .integer else .float, x) := by
  unfold meaning
  simp [h]

/-! ## Quoted texts and full-text queries -/

/-- A quoted text means what stands between its marks. -/
theorem meaning_of_quoted (grammar : NumberGrammar) {mark : Char} (hmark : IsMark mark)
    (h : (Regex.quoted mark).Matches x) : ∃ body, meaning grammar x = (.string, unquote body) := by
  obtain ⟨body, -, rfl⟩ := Regex.matches_quoted_iff.mp h
  exact ⟨body, meaning_of_quotedBody? grammar
    (isNumeral_cons_of_startsNoNumeral hmark.startsNoNumeral _) (quotedBody?_of_mark hmark body)⟩

theorem SubQuery.body?_append {word body : Text} (h : Text.fold word = Text.fold opening) :
    body? (word ++ body ++ closing) = some body := by
  rw [body?, List.append_assoc, Text.cutFolded?_of_fold_eq _ h, Option.map_some]
  simp only
  rw [if_pos (by simp), List.length_append, Nat.add_sub_cancel, List.take_left']
  rfl

theorem meaning_of_body? {body : Text} (hnumeral : isNumeral x = false)
    (hquoted : quotedBody? x = none) (hbody : SubQuery.body? x = some body) :
    meaning grammar x = (.subQuery, body) := by
  unfold meaning
  simp [hnumeral, hquoted, hbody]

/-- A full-text query means what stands between its opening and its closing mark. -/
theorem meaning_of_enclosed (grammar : NumberGrammar) {word body : Text}
    (hword : Text.fold word = Text.fold SubQuery.opening)
    (h : SubQuery.IsQuery (word ++ body ++ SubQuery.closing)) :
    meaning grammar (word ++ body ++ SubQuery.closing) = (.subQuery, body) := by
  have hform : Pattern.Form grammar .subQuery (word ++ body ++ SubQuery.closing) := h
  exact meaning_of_body? (hform.isNumeral (by decide)) (hform.quotedBody? (by decide) (by decide))
    (SubQuery.body?_append hword)

theorem meaning_of_isQuery (grammar : NumberGrammar) (h : SubQuery.IsQuery x) :
    ∃ body, meaning grammar x = (.subQuery, body) := by
  have hquery := h
  obtain ⟨word, body, rfl, hword, -⟩ := h
  exact ⟨body, meaning_of_enclosed grammar hword hquery⟩

/-! ## Kinds of fixed wording -/

theorem Kind.ofSpelling?_eq_some_iff {k : Kind} :
    ofSpelling? x = some k ↔ k ∈ worded ∧ Text.fold x = Text.fold k.spelling := by
  constructor
  · intro h
    exact ⟨(fold_spelling_of_ofSpelling? h).1, (fold_spelling_of_ofSpelling? h).2.symm⟩
  · rintro ⟨hk, hfold⟩
    rw [ofSpelling?, hfold]
    exact ofSpelling?_spelling hk

namespace Pattern

theorem form_operator_iff :
    operator.Form grammar x ↔ ∃ k ∈ operators, Text.fold x = Text.fold k.spelling := by
  rw [form_of_expression? rfl, Regex.operator_eq, Regex.matches_wordings_iff]

theorem form_keyword_iff :
    keyword.Form grammar x ↔ ∃ k ∈ [Kind.null, .empty], Text.fold x = Text.fold k.spelling := by
  rw [form_of_expression? rfl, Regex.keyword_eq, Regex.matches_wordings_iff]

theorem form_parenthesis_iff :
    parenthesis.Form grammar x ↔ x = Kind.leftParen.spelling ∨ x = Kind.rightParen.spelling := by
  rw [form_of_expression? rfl, Regex.parenthesis, Regex.matches_one_iff]
  constructor
  · rintro ⟨c, hc, rfl⟩
    have hc : c = '(' ∨ c = ')' := by simpa using hc
    rcases hc with rfl | rfl
    · exact Or.inl rfl
    · exact Or.inr rfl
  · rintro (rfl | rfl)
    · exact ⟨'(', rfl, rfl⟩
    · exact ⟨')', rfl, rfl⟩

/-- Every text of a fixed wording has a form. -/
theorem exists_form_of_worded (grammar : NumberGrammar) {k : Kind} (hk : k ∈ Kind.worded)
    (h : Text.fold x = Text.fold k.spelling) :
    ∃ p ∈ [operator, keyword, field, parenthesis], p.Form grammar x := by
  by_cases hoperator : k ∈ operators
  · exact ⟨operator, by decide, form_operator_iff.mpr ⟨k, hoperator, h⟩⟩
  by_cases hkeyword : k ∈ [Kind.null, .empty]
  · exact ⟨keyword, by decide, form_keyword_iff.mpr ⟨k, hkeyword, h⟩⟩
  by_cases hparen : k = .leftParen ∨ k = .rightParen
  · refine ⟨parenthesis, by decide, form_parenthesis_iff.mpr ?_⟩
    rcases hparen with rfl | rfl
    · exact Or.inl (Text.eq_of_fold_eq (by decide) h)
    · exact Or.inr (Text.eq_of_fold_eq (by decide) h)
  -- What is left are the words that join conditions, which are paths.
  have hletters : (Text.fold k.spelling).all Char.isAlpha = true := by
    revert hk hoperator hkeyword hparen
    cases k <;> decide
  refine ⟨field, by decide, path_of_isAlpha ?_ fun c hc => ?_⟩
  · rintro rfl
    exact spelling_ne_nil k h.symm
  · rw [← Text.isAlpha_toLower]
    refine List.all_eq_true.mp hletters _ ?_
    rw [← h]
    exact List.mem_map_of_mem hc

end Pattern

theorem meaning_of_ofSpelling? {k : Kind} (hnumeral : isNumeral x = false)
    (hquoted : quotedBody? x = none) (hquery : SubQuery.body? x = none)
    (hword : Kind.ofSpelling? x = some k) : meaning grammar x = (k, x) := by
  unfold meaning
  simp [hnumeral, hquoted, hquery, hword]

/-- A text of a fixed wording is of the kind that has the wording. -/
theorem meaning_of_worded {k : Kind} (hk : k ∈ Kind.worded)
    (h : Text.fold x = Text.fold k.spelling) : meaning grammar x = (k, x) := by
  obtain ⟨p, hp, hform⟩ := Pattern.exists_form_of_worded grammar hk h
  have hopening : ¬ Text.fold SubQuery.opening <+: Text.fold k.spelling := by
    cases k <;> decide
  refine meaning_of_ofSpelling? (hform.isNumeral ?_) (hform.quotedBody? ?_ ?_)
    (SubQuery.body?_eq_none (h ▸ hopening)) (Kind.ofSpelling?_eq_some_iff.mpr ⟨hk, h⟩)
  all_goals
    rintro rfl
    exact absurd hp (by decide)

/-! ## Paths -/

/-- No fixed wording has a colon. -/
theorem Kind.ofSpelling?_of_colon (h : ':' ∈ x) : ofSpelling? x = none := by
  rw [Option.eq_none_iff_forall_ne_some]
  intro k hk
  have hmem : ':' ∈ Text.fold x := List.mem_map_of_mem (f := Char.toLower) h
  rw [(ofSpelling?_eq_some_iff.mp hk).2] at hmem
  revert hmem
  cases k <;> decide

theorem cutRelation?_of_relation (h : Regex.relation.Matches x) :
    cutRelation? x = some (x, []) := by
  have hform : Pattern.Form .strict .relation x := h
  exact hform.cut?_eq

/-- A path through a relation is one, under both grammars. -/
theorem meaning_of_relation (h : Regex.relation.Matches x) :
    meaning grammar x = (.relation, x) := by
  have hform : Pattern.Form grammar .relation x := h
  have hcut := cutRelation?_of_relation h
  have hparen : '(' ∉ x := Regex.not_mem_of_matches h (by decide)
  have hkind : nameKind grammar x = .relation := by
    cases grammar with
    | strict => simp [nameKind, isRelation, hcut]
    | compat => simp [nameKind, containsRelation, occurs_of_eq_some hcut]
  rw [meaning_of_name grammar (hform.isNumeral (by decide))
    (hform.quotedBody? (by decide) (by decide)) (SubQuery.body?_of_not_mem hparen)
    (Kind.ofSpelling?_of_colon (mem_of_relation h)), hkind]

/-! ## Characters without a form -/

theorem isNumeral_singleton {c : Char} (h : c.isDigit = false) : isNumeral [c] = false := by
  by_cases hc : c = '+' ∨ c = '-' ∨ c = '.'
  · rcases hc with rfl | rfl | rfl
    · decide
    · decide
    · decide
  · simp only [not_or] at hc
    exact isNumeral_cons_of_startsNoNumeral ⟨h, hc⟩ []

/-- A character that no pattern finds anything at means nothing. -/
theorem meaning_of_alone {c : Char} (h : ∀ p : Pattern, p.cut? grammar [c] = none) :
    meaning grammar [c] = (.unrecognized, [c]) := by
  have hdigit : c.isDigit = false := by
    rw [← Bool.not_eq_true]
    intro hc
    have hnone : cutNumber? grammar [c] = none := h .number
    simp [cutNumber?, hc] at hnone
  have hpath : cutPath? [c] = none := h .field
  have hrelation : cutRelation? [c] = none := h .relation
  have hpath' : cutPath? [] = none := rfl
  have hrelation' : cutRelation? [] = none := rfl
  have hopening : ¬ Text.fold SubQuery.opening <+: Text.fold [c] := by
    intro hpre
    have hle : 7 ≤ 1 := hpre.length_le
    omega
  have hword : Kind.ofSpelling? [c] = none := by
    rw [Option.eq_none_iff_forall_ne_some]
    intro k hk
    obtain ⟨hworded, hfold⟩ := Kind.ofSpelling?_eq_some_iff.mp hk
    obtain ⟨p, -, hform⟩ := Pattern.exists_form_of_worded grammar hworded hfold
    exact Pattern.cut?_eq_none_iff.mp (h p) [c] List.prefix_rfl hform
  have hkind : nameKind grammar [c] = .unrecognized := by
    cases grammar with
    | strict => simp [nameKind, isRelation, isPath, hrelation, hpath]
    | compat =>
      simp [nameKind, containsRelation, containsPath, occurs, hrelation, hrelation', hpath, hpath']
  rw [meaning_of_name grammar (isNumeral_singleton hdigit) (by simp [quotedBody?])
    (SubQuery.body?_eq_none hopening) hword, hkind]

/-! ## The two grammars -/

/-- A name of the strict grammar is the same kind of name under the compatible one. -/
theorem nameKind_compat (h : nameKind .strict x ≠ .unrecognized) :
    nameKind .compat x = nameKind .strict x := by
  by_cases hrelation : isRelation x = true
  · have hcut : cutRelation? x = some (x, []) := of_decide_eq_true hrelation
    simp [nameKind, hrelation, containsRelation, occurs_of_eq_some hcut]
  by_cases hpath : isPath x = true
  · have hcut : Pattern.field.cut? .strict x = some (x, []) := of_decide_eq_true hpath
    have hmatches : Regex.path.Matches x := (Pattern.cut?_eq_some_iff.mp hcut).2.1
    have hcolon : ':' ∉ x := Regex.not_mem_of_matches hmatches (by decide)
    simp [nameKind, hrelation, hpath, containsRelation_of_not_mem hcolon,
      containsPath_of_path hmatches]
  · simp [nameKind, hrelation, hpath] at h

/-- The grammars differ in names only: a text means one thing under both, or it is what it is as a
name under each. -/
theorem meaning_eq_or_name (x : Text) :
    (∃ k v, k ≠ .unrecognized ∧ ∀ grammar, meaning grammar x = (k, v)) ∨
      ∀ grammar, meaning grammar x = (nameKind grammar x, x) := by
  cases hnumeral : isNumeral x with
  | true =>
    refine Or.inl ⟨if isInteger x then .integer else .float, x, ?_, fun _ =>
      meaning_of_isNumeral hnumeral⟩
    split <;> decide
  | false =>
    cases hquoted : quotedBody? x with
    | some body =>
      exact Or.inl ⟨.string, unquote body, by decide, fun grammar =>
        meaning_of_quotedBody? grammar hnumeral hquoted⟩
    | none =>
      cases hquery : SubQuery.body? x with
      | some body =>
        exact Or.inl ⟨.subQuery, body, by decide, fun _ =>
          meaning_of_body? hnumeral hquoted hquery⟩
      | none =>
        cases hword : Kind.ofSpelling? x with
        | some k =>
          refine Or.inl ⟨k, x, ?_, fun _ => meaning_of_ofSpelling? hnumeral hquoted hquery hword⟩
          rintro rfl
          exact absurd (Kind.ofSpelling?_eq_some_iff.mp hword).1 (by decide)
        | none => exact Or.inr fun grammar => meaning_of_name grammar hnumeral hquoted hquery hword

/-- A text that means something under the strict grammar means the same under the compatible
one. -/
theorem meaning_compat (h : (meaning .strict x).1 ≠ .unrecognized) :
    meaning .compat x = meaning .strict x := by
  rcases meaning_eq_or_name x with ⟨k, v, -, hboth⟩ | hname
  · rw [hboth, hboth]
  · rw [hname] at h
    rw [hname, hname, nameKind_compat h]

end FilterQuery
