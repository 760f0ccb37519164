import FilterQuery.Proofs.Meaning.Numbers
import FilterQuery.Proofs.Scan.Run

/-!
# The pattern of a lexeme and its kind

The rules that give a lexeme its kind do not know which pattern found it. They come to what the
pattern says all the same: `Suits` lists which kinds go with which pattern, and every token has a
kind that goes with the pattern that found it (`tokenize_suits`).

For a path this depends on the order of the patterns. A word such as `like` is a path too, but where
it stands the operator is found before the path. So the only words that are found as paths and have
a kind of their own are those that join conditions (`Leads.ofSpelling?_of_field`).
-/

namespace FilterQuery

variable {grammar : NumberGrammar} {raw rest : Text} {k : Kind}

/-- Whether a kind goes with the pattern that found a lexeme of the given characters. -/
def Suits (grammar : NumberGrammar) (raw : Text) (k : Kind) : Option Pattern → Prop
  | none => k = .unrecognized
  | some .subQuery => k = .subQuery
  | some .singleQuoted => k = .string
  | some .doubleQuoted => k = .string
  | some .operator => k.isOperator = true ∧ Text.fold raw = Text.fold k.spelling
  | some .keyword => (k = .null ∨ k = .empty) ∧ Text.fold raw = Text.fold k.spelling
  | some .relation => k = .relation
  | some .field =>
    k = if Text.fold raw = "and".toList then .and
      else if Text.fold raw = "or".toList then .or
      else .field
  | some .number =>
    ((Regex.number .strict).Matches raw →
        k = if raw.all Char.isDigit then .integer else .float) ∧
      (¬ (Regex.number .strict).Matches raw →
        grammar = .compat ∧ Regex.longNumber.Matches raw ∧ (k = .field ∨ k = .unrecognized))
  | some .parenthesis =>
    raw = "(".toList ∧ k = .leftParen ∨ raw = ")".toList ∧ k = .rightParen

/-- Under the strict grammar every pattern says what its lexemes are. -/
theorem Suits.ne_unrecognized {p : Pattern} (h : Suits .strict raw k (some p)) :
    k ≠ .unrecognized := by
  rintro rfl
  cases p with
  | operator => exact absurd h.1 (by decide)
  | keyword => exact absurd h.1 (by decide)
  | field =>
    simp only [Suits] at h
    split at h
    · simp at h
    · split at h <;> simp at h
  | number =>
    by_cases hnumber : (Regex.number .strict).Matches raw
    · have hkind := h.1 hnumber
      split at hkind <;> simp at hkind
    · exact absurd (h.2 hnumber).1 (by decide)
  | parenthesis => simp [Suits] at h
  | _ => simp [Suits] at h

/-! ## The pattern at the front of a text -/

namespace Leads

theorem form {p : Pattern} (h : Leads grammar (some p) raw rest) : p.Form grammar raw := by
  cases h with
  | found _ _ hform _ => exact hform

/-- A pattern that is tried earlier has no lexeme there. -/
theorem not_form_of_earlier {p q : Pattern} (h : Leads grammar (some p) raw rest)
    (hq : q ∈ Pattern.order.takeWhile (· ≠ p)) : ¬ q.Form grammar raw := by
  cases h with
  | @found _ earlier later _ _ horder hearlier _ _ =>
    have hmem : q ∈ earlier := by
      rw [horder, List.takeWhile_append] at hq
      split at hq
      · simpa using hq
      · exact (List.takeWhile_prefix _).mem hq
    exact hearlier q hmem raw (List.prefix_append raw rest)

/-- Of the words with a kind of their own, paths are found for those that join conditions only. -/
theorem ofSpelling?_of_field (h : Leads grammar (some .field) raw rest)
    (hand : Text.fold raw ≠ "and".toList) (hor : Text.fold raw ≠ "or".toList) :
    Kind.ofSpelling? raw = none := by
  have hpath : Regex.path.Matches raw := h.form
  rw [Option.eq_none_iff_forall_ne_some]
  intro k hk
  obtain ⟨hworded, hfold⟩ := Kind.ofSpelling?_eq_some_iff.mp hk
  -- Operators and keywords are found before paths, and parentheses are no part of a path.
  have hoperator : k ∉ Pattern.operators := fun hmem =>
    h.not_form_of_earlier (q := .operator) (by decide)
      (Pattern.form_operator_iff.mpr ⟨k, hmem, hfold⟩)
  have hkeyword : k ∉ [Kind.null, .empty] := fun hmem =>
    h.not_form_of_earlier (q := .keyword) (by decide)
      (Pattern.form_keyword_iff.mpr ⟨k, hmem, hfold⟩)
  have hleft : k ≠ .leftParen := by
    rintro rfl
    rw [Text.eq_of_fold_eq (by decide) hfold] at hpath
    exact Regex.not_mem_of_matches hpath (c := '(') (by decide) (by decide)
  have hright : k ≠ .rightParen := by
    rintro rfl
    rw [Text.eq_of_fold_eq (by decide) hfold] at hpath
    exact Regex.not_mem_of_matches hpath (c := ')') (by decide) (by decide)
  cases k with
  | and => exact hand hfold
  | or => exact hor hfold
  | leftParen => exact hleft rfl
  | rightParen => exact hright rfl
  | _ =>
    first
    | exact hoperator (by decide)
    | exact hkeyword (by decide)
    | exact absurd hworded (by decide)

/-- A lexeme that no pattern finds has no meaning. -/
theorem meaning_of_none (h : Leads grammar none raw rest) :
    ∃ c, raw = [c] ∧ meaning grammar raw = (.unrecognized, raw) := by
  have hend := h.nothing_behind
  cases hend with
  | @alone c _ hnone =>
    exact ⟨c, rfl, meaning_of_alone fun p => Pattern.cut?_eq_none_iff.mpr (hnone p)⟩

/-- The kind of a lexeme goes with the pattern that finds it. -/
theorem suits {p : Option Pattern} (h : Leads grammar p raw rest) :
    Suits grammar raw (meaning grammar raw).1 p := by
  cases p with
  | none =>
    obtain ⟨c, -, hmeaning⟩ := h.meaning_of_none
    rw [hmeaning]
    rfl
  | some p =>
    have hform := h.form
    cases p with
    | subQuery =>
      obtain ⟨body, hmeaning⟩ := meaning_of_isQuery grammar hform
      rw [hmeaning]
      rfl
    | singleQuoted =>
      obtain ⟨body, hmeaning⟩ := meaning_of_quoted grammar (Or.inl rfl) hform
      rw [hmeaning]
      rfl
    | doubleQuoted =>
      obtain ⟨body, hmeaning⟩ := meaning_of_quoted grammar (Or.inr rfl) hform
      rw [hmeaning]
      rfl
    | operator =>
      obtain ⟨k, hk, hfold⟩ := Pattern.form_operator_iff.mp hform
      have hkinds : ∀ k ∈ Pattern.operators, k ∈ Kind.worded ∧ k.isOperator = true := by decide
      rw [meaning_of_worded (hkinds k hk).1 hfold]
      exact ⟨(hkinds k hk).2, hfold⟩
    | keyword =>
      obtain ⟨k, hk, hfold⟩ := Pattern.form_keyword_iff.mp hform
      have hkind : k = .null ∨ k = .empty := by simpa using hk
      have hworded : k ∈ Kind.worded := by rcases hkind with rfl | rfl <;> decide
      rw [meaning_of_worded hworded hfold]
      exact ⟨hkind, hfold⟩
    | relation =>
      rw [meaning_of_relation hform]
      rfl
    | field =>
      show (meaning grammar raw).1 = _
      by_cases hand : Text.fold raw = "and".toList
      · rw [if_pos hand, meaning_of_worded (k := .and) (by decide) hand]
      by_cases hor : Text.fold raw = "or".toList
      · rw [if_neg hand, if_pos hor, meaning_of_worded (k := .or) (by decide) hor]
      · have hword := h.ofSpelling?_of_field hand hor
        rw [if_neg hand, if_neg hor, meaning_of_path grammar hform hword]
    | number =>
      refine ⟨fun hnumber => by rw [meaning_of_number hnumber], fun hnumber => ?_⟩
      have hform : (Regex.number grammar).Matches raw := hform
      cases grammar with
      | strict => exact absurd hform hnumber
      | compat =>
        have hlong := (Regex.matches_number_compat_iff.mp hform).resolve_left hnumber
        refine ⟨rfl, hlong, ?_⟩
        rw [meaning_of_longNumber hlong]
        split
        · exact Or.inl rfl
        · exact Or.inr rfl
    | parenthesis =>
      rcases Pattern.form_parenthesis_iff.mp hform with hraw | hraw
      · rw [meaning_of_worded (k := .leftParen) (by decide) (congrArg Text.fold hraw)]
        exact Or.inl ⟨hraw, rfl⟩
      · rw [meaning_of_worded (k := .rightParen) (by decide) (congrArg Text.fold hraw)]
        exact Or.inr ⟨hraw, rfl⟩

theorem foremost?_eq {p : Option Pattern} (h : Leads grammar p raw rest) :
    Pattern.foremost? grammar (raw ++ rest) = p.map fun p => (p, raw, rest) := by
  cases p with
  | none => exact h.foremost?_eq_none
  | some p => exact h.foremost?_eq_some

/-- Under the strict grammar a lexeme has no meaning exactly if no pattern has a lexeme there. -/
theorem unrecognized_iff {p : Option Pattern} (h : Leads .strict p raw rest) :
    (meaning .strict raw).1 = .unrecognized ↔
      ∀ q : Pattern, q.cut? .strict (raw ++ rest) = none := by
  cases p with
  | none =>
    obtain ⟨c, -, hmeaning⟩ := h.meaning_of_none
    refine ⟨fun _ q => Pattern.cut?_eq_none_iff.mpr ?_, fun _ => by rw [hmeaning]⟩
    cases h with
    | alone hnone => exact hnone q
  | some p =>
    refine ⟨fun hkind => absurd hkind h.suits.ne_unrecognized, fun hnone => ?_⟩
    exact absurd h.form (Pattern.cut?_eq_none_iff.mp (hnone p) raw (List.prefix_append raw rest))

end Leads

/-- Every lexeme of a text is at the front of what follows its start. -/
theorem Scans.exists_leads {offset : Nat} {t : Text} {ls : List Lexeme}
    (h : Scans grammar offset t ls) : ∀ l ∈ ls, ∃ before rest, t = before ++ (l.raw ++ rest) ∧
      offset + Text.size before = l.start ∧ Leads grammar l.pattern l.raw rest := by
  induction h with
  | done _ => exact List.forall_mem_nil _
  | @lexeme offset gap raw rest p ls _ _ hleads _ ih =>
    rw [List.forall_mem_cons]
    refine ⟨⟨gap, rest, List.append_assoc .., rfl, hleads⟩, fun l hl => ?_⟩
    obtain ⟨before, rest', rfl, hstart, hleads'⟩ := ih l hl
    refine ⟨gap ++ raw ++ before, rest', by simp only [List.append_assoc], ?_, hleads'⟩
    rw [← hstart, Text.size_append, Text.size_append]
    omega

/-- Every token has a kind that goes with the first pattern that has a lexeme where the token
stands. Under the strict grammar a token is not recognised exactly if there is no such pattern, and
then it is a single character. -/
theorem tokenize_suits (config : Config) (query : Text) :
    (∀ t ∈ tokenize config query, ∃ l ∈ lexemes config query, t = l.token config.numeric ∧
      ∃ before rest, query = before ++ (t.raw ++ rest) ∧ Text.size before = t.span.start ∧
        Pattern.foremost? config.numeric (t.raw ++ rest)
          = l.pattern.map (fun p => (p, t.raw, rest)) ∧
        Suits config.numeric t.raw t.kind l.pattern) ∧
    ∀ t ∈ tokenize { numeric := .strict } query,
      ∃ before rest, query = before ++ rest ∧ Text.size before = t.span.start ∧
        (t.kind = .unrecognized ↔ ∀ p : Pattern, p.cut? .strict rest = none) ∧
        (t.kind = .unrecognized → ∃ c, t.raw = [c]) := by
  constructor
  · intro t ht
    obtain ⟨l, hl, rfl⟩ := List.mem_map.mp ht
    obtain ⟨before, rest, hquery, hstart, hleads⟩ := (Scans.lexemes config query).exists_leads l hl
    rw [Nat.zero_add] at hstart
    exact ⟨l, hl, rfl, before, rest, hquery, hstart, hleads.foremost?_eq, hleads.suits⟩
  · intro t ht
    obtain ⟨l, hl, rfl⟩ := List.mem_map.mp ht
    obtain ⟨before, rest, hquery, hstart, hleads⟩ :=
      (Scans.lexemes { numeric := .strict } query).exists_leads l hl
    rw [Nat.zero_add] at hstart
    refine ⟨before, l.raw ++ rest, hquery, hstart, hleads.unrecognized_iff, fun hkind => ?_⟩
    have hkind : (meaning .strict l.raw).1 = .unrecognized := hkind
    cases hp : l.pattern with
    | none =>
      rw [hp] at hleads
      obtain ⟨c, hraw, -⟩ := hleads.meaning_of_none
      exact ⟨c, hraw⟩
    | some p =>
      rw [hp] at hleads
      exact absurd hkind hleads.suits.ne_unrecognized

end FilterQuery
