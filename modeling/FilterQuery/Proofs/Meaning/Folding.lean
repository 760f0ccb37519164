import FilterQuery.Proofs.Meaning.Lexemes
import FilterQuery.Proofs.Pattern.Folding

/-!
# The meaning of a text ignores letter case

The folded form of a text has the kind of the text, and the folded value (`meaning_fold`). Each rule
for the meaning is seen to be kept by folding: the readers of numbers, of quoted texts and of
full-text queries part by part, fixed wordings since they are compared when folded, and names by
their expressions.
-/

namespace FilterQuery

open Text (fold)

/-! ## Numbers -/

theorem digits_fold (t : Text) : digits (fold t) = fold (digits t) :=
  Text.ignoresCase_isDigit.takeWhile_fold t

theorem afterDigits_fold (t : Text) : afterDigits (fold t) = fold (afterDigits t) :=
  Text.ignoresCase_isDigit.dropWhile_fold t

theorem fold_eq_nil_iff {t : Text} : fold t = [] ↔ t = [] := List.map_eq_nil_iff

theorem cutSign_of_ne {c : Char} (hplus : c ≠ '+') (hminus : c ≠ '-') (t : Text) :
    cutSign (c :: t) = ([], c :: t) := by
  rw [cutSign]
  · intro rest h
    exact hplus (List.cons.inj h).1
  · intro rest h
    exact hminus (List.cons.inj h).1

theorem cutSign_fold : ∀ t : Text, cutSign (fold t) = Prod.map fold fold (cutSign t)
  | [] => rfl
  | c :: t => by
    by_cases hplus : c = '+'
    · subst hplus
      rfl
    by_cases hminus : c = '-'
    · subst hminus
      rfl
    have hplus' : c.toLower ≠ '+' := Text.toLower_ne (by decide) hplus
    have hminus' : c.toLower ≠ '-' := Text.toLower_ne (by decide) hminus
    rw [cutSign_of_ne hplus hminus, Text.fold_cons, cutSign_of_ne hplus' hminus']
    rfl

theorem cutExponent_fold : ∀ t : Text, cutExponent (fold t) = Prod.map fold fold (cutExponent t)
  | [] => rfl
  | e :: t => by
    rw [Text.fold_cons, cutExponent, cutExponent, cutSign_fold]
    simp only [Prod.map_fst, Prod.map_snd, digits_fold, afterDigits_fold, ne_eq, fold_eq_nil_iff,
      Text.toLower_eq_or_iff (d := 'e') (u := 'E') (by decide) rfl]
    split
    · rw [Prod.map_apply, Text.fold_append, Text.fold_cons]
    · rfl

theorem isNumeral_fold (t : Text) : isNumeral (fold t) = isNumeral t := by
  rw [isNumeral, isNumeral, cutSign_fold]
  simp only [Prod.map_snd, digits_fold, afterDigits_fold]
  cases hrest : afterDigits (cutSign t).2 with
  | nil => simp only [Text.fold_nil, ne_eq, fold_eq_nil_iff]
  | cons c rest =>
    by_cases hpoint : c = '.'
    · subst hpoint
      have hlower : '.'.toLower = '.' := rfl
      simp only [Text.fold_cons, hlower, digits_fold, afterDigits_fold, cutExponent_fold,
        Prod.map_snd, ne_eq, fold_eq_nil_iff]
    · have hpoint' : c.toLower ≠ '.' := Text.toLower_ne (by decide) hpoint
      rw [Text.fold_cons]
      split
      · next h => exact absurd (List.cons.inj h).1 hpoint'
      · split
        · next h => exact absurd (List.cons.inj h).1 hpoint
        · rw [← Text.fold_cons, cutExponent_fold]
          simp only [Prod.map_snd, ne_eq, fold_eq_nil_iff]

theorem isInteger_of_ne {c : Char} (h : c ≠ '-') (t : Text) :
    isInteger (c :: t) = (c :: t).all Char.isDigit := by
  rw [isInteger]
  · simp only [ne_eq, reduceCtorEq, not_false_eq_true, true_and, Bool.decide_eq_true]
  · intro rest heq
    exact h (List.cons.inj heq).1

theorem isInteger_fold : ∀ t : Text, isInteger (fold t) = isInteger t
  | [] => rfl
  | c :: t => by
    by_cases hminus : c = '-'
    · subst hminus
      show isInteger ('-' :: fold t) = isInteger ('-' :: t)
      rw [isInteger, isInteger, Text.ignoresCase_isDigit.all_fold]
      simp only [ne_eq, fold_eq_nil_iff]
    · have hminus' : c.toLower ≠ '-' := Text.toLower_ne (by decide) hminus
      rw [isInteger_of_ne hminus, Text.fold_cons, isInteger_of_ne hminus', ← Text.fold_cons,
        Text.ignoresCase_isDigit.all_fold]

/-! ## Quoted texts and full-text queries -/

theorem IsMark.toLower_eq_iff {mark c : Char} (h : IsMark mark) : c.toLower = mark ↔ c = mark :=
  Text.toLower_eq_symbol_iff (by rcases h with rfl | rfl <;> decide)

theorem isMark_toLower_iff {c : Char} : IsMark c.toLower ↔ IsMark c :=
  or_congr (IsMark.toLower_eq_iff (Or.inl rfl)) (IsMark.toLower_eq_iff (Or.inr rfl))

theorem quotedBody?_fold : ∀ t : Text, quotedBody? (fold t) = (quotedBody? t).map fold
  | [] => rfl
  | c :: t => by
    rw [Text.fold_cons, quotedBody?, quotedBody?]
    by_cases hmark : IsMark c
    · have hlower : c.toLower = c := hmark.toLower_eq_iff.mpr rfl
      have hlast : (fold t).getLast? = some c ↔ t.getLast? = some c := by
        rw [fold, List.getLast?_map, Option.map_eq_some_iff]
        simp only [hmark.toLower_eq_iff, exists_eq_right]
      simp only [hlower, hlast]
      split
      · rw [Option.map_some, fold, fold, List.map_dropLast]
      · rfl
    · rw [if_neg fun h => hmark (isMark_toLower_iff.mp h.1), if_neg fun h => hmark h.1]
      rfl

theorem collapse_fold {mark : Char} (h : IsMark mark) (t : Text) :
    collapse mark (fold t) = fold (collapse mark t) := by
  have hlower : mark.toLower = mark := h.toLower_eq_iff.mpr rfl
  fun_induction collapse mark t with
  | case1 => rfl
  | case2 => rfl
  | case3 c d rest hpair ih =>
    rw [Text.fold_cons, Text.fold_cons, hpair.1, hpair.2, hlower, collapse, if_pos ⟨rfl, rfl⟩, ih,
      Text.fold_cons, hlower]
  | case4 c d rest hpair ih =>
    have hpair' : ¬ (c.toLower = mark ∧ d.toLower = mark) := by
      rwa [h.toLower_eq_iff, h.toLower_eq_iff]
    rw [Text.fold_cons, Text.fold_cons, collapse, if_neg hpair', ← Text.fold_cons, ih,
      Text.fold_cons]

theorem unquote_fold (t : Text) : unquote (fold t) = fold (unquote t) := by
  rw [unquote, collapse_fold (Or.inl rfl), collapse_fold (Or.inr rfl), unquote]

theorem cutFolded?_fold : ∀ word t : Text,
    Text.cutFolded? word (fold t) = (Text.cutFolded? word t).map (Prod.map fold fold)
  | [], t => rfl
  | w :: word, [] => rfl
  | w :: word, c :: t => by
    rw [Text.fold_cons, Text.cutFolded?, Text.cutFolded?, Text.toLower_toLower]
    split
    · rw [cutFolded?_fold word t, Option.map_map, Option.map_map]
      rfl
    · rfl

theorem isSuffixOf_fold {w : Text} (hw : w.any Char.isAlpha = false) (t : Text) :
    w.isSuffixOf (fold t) = w.isSuffixOf t := by
  rw [Bool.eq_iff_iff, List.isSuffixOf_iff_suffix, List.isSuffixOf_iff_suffix]
  constructor
  · rintro ⟨front, h⟩
    have hfold : fold t = fold (front ++ w) := by rw [h, Text.fold_fold]
    obtain ⟨front', w', rfl, -, hw'⟩ := Text.exists_append_of_fold_eq hfold
    exact ⟨front', by rw [Text.eq_of_fold_eq hw hw']⟩
  · rintro ⟨front, rfl⟩
    refine ⟨fold front, ?_⟩
    rw [Text.fold_append, Text.eq_of_fold_eq hw (Text.fold_fold w)]

theorem body?_fold (t : Text) : SubQuery.body? (fold t) = (SubQuery.body? t).map fold := by
  rw [SubQuery.body?, SubQuery.body?, cutFolded?_fold, Option.map_map, Option.map_map]
  refine Option.map_congr ?_
  rintro ⟨word, rest⟩ -
  have hclosing : SubQuery.closing.any Char.isAlpha = false := by decide
  simp only [Function.comp, Prod.map_apply, isSuffixOf_fold hclosing]
  split
  · rw [fold, fold, List.length_map, List.map_take]
  · rfl

/-! ## Names -/

theorem isPath_iff {x : Text} : isPath x = true ↔ Regex.path.Matches x := by
  refine ⟨fun h => ?_, isPath_of_path⟩
  have hcut : Pattern.field.cut? .strict x = some (x, []) := of_decide_eq_true h
  exact (Pattern.cut?_eq_some_iff.mp hcut).2.1

theorem isRelation_iff {x : Text} : isRelation x = true ↔ Regex.relation.Matches x := by
  constructor
  · intro h
    have hcut : Pattern.relation.cut? .strict x = some (x, []) := of_decide_eq_true h
    exact (Pattern.cut?_eq_some_iff.mp hcut).2.1
  · intro h
    have hform : Pattern.relation.Form .strict x := h
    exact decide_eq_true hform.cut?_eq

namespace Pattern

variable {grammar : NumberGrammar} {p : Pattern} {t : Text}

theorem isSome_cut?_iff : (p.cut? grammar t).isSome = true ↔ ∃ x, x <+: t ∧ p.Form grammar x := by
  rw [← not_iff_not, Bool.not_eq_true, Option.isSome_eq_false_iff, Option.isNone_iff_eq_none,
    cut?_eq_none_iff]
  simp only [not_exists, not_and]

/-- A search anywhere in a text finds something exactly if some part of the text has the form. -/
theorem occurs_cut?_iff (grammar : NumberGrammar) (p : Pattern) :
    occurs (p.cut? grammar) t = true ↔ ∃ x, x <:+: t ∧ p.Form grammar x := by
  rw [occurs_iff_suffix]
  constructor
  · rintro ⟨s, hs, hcut⟩
    obtain ⟨x, hx, hform⟩ := isSome_cut?_iff.mp hcut
    exact ⟨x, hx.isInfix.trans hs.isInfix, hform⟩
  · rintro ⟨x, ⟨before, after, rfl⟩, hform⟩
    refine ⟨x ++ after, ⟨before, (List.append_assoc _ _ _).symm⟩, ?_⟩
    exact isSome_cut?_iff.mpr ⟨x, List.prefix_append x after, hform⟩

end Pattern

/-- Some part of a text is a path exactly if some part is in the language. -/
theorem containsPath_iff {t : Text} :
    containsPath t = true ↔ ∃ x, x <:+: t ∧ Regex.path.Matches x :=
  Pattern.occurs_cut?_iff .strict .field

/-- Some part of a text is a path through a relation exactly if some part is in the language. -/
theorem containsRelation_iff {t : Text} :
    containsRelation t = true ↔ ∃ x, x <:+: t ∧ Regex.relation.Matches x :=
  Pattern.occurs_cut?_iff .strict .relation

theorem isPath_fold (t : Text) : isPath (fold t) = isPath t := by
  rw [Bool.eq_iff_iff, isPath_iff, isPath_iff, Regex.ignoresCase_path.matches_fold_iff]

theorem isRelation_fold (t : Text) : isRelation (fold t) = isRelation t := by
  rw [Bool.eq_iff_iff, isRelation_iff, isRelation_iff, Regex.ignoresCase_relation.matches_fold_iff]

/-- A part of the one text has its counterpart in the other. -/
theorem Regex.IgnoresCase.exists_infix_fold_iff {r : Regex} (h : r.IgnoresCase) (t : Text) :
    (∃ x, x <:+: fold t ∧ r.Matches x) ↔ ∃ x, x <:+: t ∧ r.Matches x := by
  have hcounterpart : ∀ {t u : Text}, fold u = fold t → (∃ x, x <:+: t ∧ r.Matches x) →
      ∃ x, x <:+: u ∧ r.Matches x := by
    rintro t u hfold ⟨x, hx, hmatches⟩
    obtain ⟨x', hx', hfold'⟩ := Text.exists_infix_of_fold_eq hfold hx
    exact ⟨x', hx', Regex.IgnoresCase.matches_of_fold_eq hmatches h hfold'⟩
  exact ⟨hcounterpart (Text.fold_fold t).symm, hcounterpart (Text.fold_fold t)⟩

theorem containsPath_fold (t : Text) : containsPath (fold t) = containsPath t := by
  rw [Bool.eq_iff_iff, containsPath_iff, containsPath_iff,
    Regex.ignoresCase_path.exists_infix_fold_iff]

theorem containsRelation_fold (t : Text) : containsRelation (fold t) = containsRelation t := by
  rw [Bool.eq_iff_iff, containsRelation_iff, containsRelation_iff,
    Regex.ignoresCase_relation.exists_infix_fold_iff]

theorem nameKind_fold (grammar : NumberGrammar) (t : Text) :
    nameKind grammar (fold t) = nameKind grammar t := by
  cases grammar with
  | strict => rw [nameKind, nameKind, isRelation_fold, isPath_fold]
  | compat => rw [nameKind, nameKind, containsRelation_fold, containsPath_fold]

/-! ## The meaning -/

theorem ofSpelling?_fold (t : Text) : Kind.ofSpelling? (fold t) = Kind.ofSpelling? t := by
  rw [Kind.ofSpelling?, Text.fold_fold, Kind.ofSpelling?]

/-- Folding a text keeps its kind and folds its value. -/
theorem meaning_fold (grammar : NumberGrammar) (t : Text) :
    meaning grammar (fold t) = Prod.map id fold (meaning grammar t) := by
  rw [meaning, meaning, isNumeral_fold, isInteger_fold, quotedBody?_fold, body?_fold,
    ofSpelling?_fold, nameKind_fold]
  split
  · rfl
  · cases quotedBody? t with
    | some body => simp only [Option.map_some, unquote_fold, Prod.map_apply, id]
    | none =>
      cases SubQuery.body? t with
      | some body => rfl
      | none =>
        cases Kind.ofSpelling? t with
        | some kind => rfl
        | none => rfl

/-- Spellings of one text have one kind, and their values are spellings of one value. -/
theorem meaning_of_fold_eq (grammar : NumberGrammar) {x y : Text} (h : fold x = fold y) :
    (meaning grammar x).1 = (meaning grammar y).1 ∧
      fold (meaning grammar x).2 = fold (meaning grammar y).2 := by
  have hmeaning : Prod.map id fold (meaning grammar x) = Prod.map id fold (meaning grammar y) := by
    rw [← meaning_fold, h, meaning_fold]
  exact Prod.mk.inj hmeaning

end FilterQuery
