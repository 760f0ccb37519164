import FilterQuery.Proofs.Meaning.Forms
import FilterQuery.Proofs.Meaning.Numerals

/-!
# The rules for the meaning of a text do not overlap

Under the strict grammar a text has its meaning from the first of six rules that takes it. Hardly any
two rules take the same text: only fixed wordings may be fields as well, and those are the words
`like`, `and`, `or`, `null` and `empty`. So the order of the rules does not matter, as long as the
wordings are tried before the fields (`rules_do_not_overlap`).

The texts that a rule is for are said by their form (`Rule.Takes`), and the test for the rule finds
just these (`Rule.isSome_meaning?_iff`).
-/

namespace FilterQuery

open Text (fold)

/-- A rule that may give a text its meaning under the strict grammar. -/
inductive Rule where
  | number
  | quoted
  | subQuery
  | worded
  | relation
  | field
  deriving DecidableEq

namespace Rule

/-- All rules, in the order in which they are tried. -/
def inOrder : List Rule := [number, quoted, subQuery, worded, relation, field]

theorem mem_inOrder (r : Rule) : r ∈ inOrder := by cases r <;> decide

/-- The texts that a rule is for. -/
def Takes : Rule → Text → Prop
  | number, x => Regex.numeral.Matches x
  | quoted, x =>
    2 ≤ Text.size x ∧ ∃ mark, IsMark mark ∧ x.head? = some mark ∧ x.getLast? = some mark
  | subQuery, x => fold SubQuery.opening <+: fold x
  | worded, x => ∃ k ∈ Kind.worded, fold x = fold k.spelling
  | relation, x => Regex.relation.Matches x
  | field, x => Regex.path.Matches x

/-- The meaning that a rule gives to a text, if it takes the text. -/
def meaning? : Rule → Text → Option (Kind × Text)
  | number, raw =>
    if isNumeral raw then some (if isInteger raw then .integer else .float, raw) else none
  | quoted, raw => (quotedBody? raw).map fun body => (.string, unquote body)
  | subQuery, raw => (SubQuery.body? raw).map fun body => (.subQuery, body)
  | worded, raw => (Kind.ofSpelling? raw).map fun kind => (kind, raw)
  | relation, raw => if isRelation raw then some (.relation, raw) else none
  | field, raw => if isPath raw then some (.field, raw) else none

/-- The meaning of a text by the first of some rules that takes it. -/
def meaningBy (rules : List Rule) (raw : Text) : Kind × Text :=
  (rules.findSome? (meaning? · raw)).getD (.unrecognized, raw)

/-- Tried in their order, the rules give the meaning of a text. -/
theorem meaningBy_inOrder (raw : Text) : meaningBy inOrder raw = meaning .strict raw := by
  unfold meaningBy inOrder meaning nameKind
  simp only [List.findSome?_cons, List.findSome?_nil, meaning?]
  cases isNumeral raw with
  | true => rfl
  | false =>
    cases quotedBody? raw with
    | some body => rfl
    | none =>
      cases SubQuery.body? raw with
      | some body => rfl
      | none =>
        cases Kind.ofSpelling? raw with
        | some kind => rfl
        | none => cases isRelation raw <;> cases isPath raw <;> rfl

/-! ## The tests for the rules -/

variable {r r' : Rule} {x : Text}

theorem isSome_quotedBody?_iff : (quotedBody? x).isSome = true ↔ quoted.Takes x := by
  cases x with
  | nil => simp [quotedBody?, Takes]
  | cons c rest =>
    have htest : (quotedBody? (c :: rest)).isSome = true ↔ IsMark c ∧ rest.getLast? = some c := by
      rw [quotedBody?]
      split
      · next h => exact iff_of_true rfl h
      · next h => exact iff_of_false (by simp) h
    rw [htest]
    constructor
    · rintro ⟨hmark, hlast⟩
      have hrest : rest ≠ [] := by
        rintro rfl
        simp at hlast
      have hpos := mt Text.size_eq_zero.mp hrest
      have hc := c.utf8Size_pos
      refine ⟨?_, c, hmark, rfl, ?_⟩
      · rw [Text.size_cons]
        omega
      · rw [List.getLast?_cons, hlast]
        rfl
    · rintro ⟨hsize, mark, hmark, hhead, hlast⟩
      obtain rfl := Option.some.inj hhead
      have hrest : rest ≠ [] := by
        rintro rfl
        have hone : c.utf8Size = 1 := by rcases hmark with rfl | rfl <;> rfl
        rw [Text.size_cons, hone] at hsize
        exact absurd hsize (by decide)
      refine ⟨hmark, ?_⟩
      rwa [List.getLast?_cons_of_ne_nil hrest] at hlast

theorem isSome_body?_iff : (SubQuery.body? x).isSome = true ↔ subQuery.Takes x := by
  constructor
  · intro h
    by_contra hopening
    rw [SubQuery.body?_eq_none hopening] at h
    simp at h
  · rintro ⟨tail, htail⟩
    have hfold : fold x = fold (SubQuery.opening ++ tail) := by
      rw [← Text.fold_fold x, ← htail, Text.fold_append, Text.fold_append, Text.fold_fold]
    obtain ⟨word, rest, rfl, hword, -⟩ := Text.exists_append_of_fold_eq hfold
    rw [SubQuery.body?, Text.cutFolded?_of_fold_eq rest hword]
    rfl

/-- A rule gives a meaning to the texts that it is for. -/
theorem isSome_meaning?_iff : (r.meaning? x).isSome = true ↔ r.Takes x := by
  cases r with
  | number => rw [meaning?, Takes, ← isNumeral_iff]; split <;> simp [*]
  | quoted => rw [meaning?, Option.isSome_map, isSome_quotedBody?_iff]
  | subQuery => rw [meaning?, Option.isSome_map, isSome_body?_iff]
  | worded =>
    rw [meaning?, Option.isSome_map, Option.isSome_iff_exists, Takes]
    simp only [Kind.ofSpelling?_eq_some_iff]
  | relation => rw [meaning?, Takes, ← isRelation_iff]; split <;> simp [*]
  | field => rw [meaning?, Takes, ← isPath_iff]; split <;> simp [*]

instance (r : Rule) (x : Text) : Decidable (r.Takes x) := decidable_of_iff _ isSome_meaning?_iff

/-! ## Rules that take the same text -/

theorem exists_cons_of_subQuery (h : subQuery.Takes x) :
    ∃ c rest, x = c :: rest ∧ c.toLower = 'q' := by
  cases x with
  | nil => exact absurd h (by decide)
  | cons c rest => exact ⟨c, rest, rfl, (List.cons_prefix_cons.mp h).1.symm⟩

/-- What is taken by one of the last three rules is a lexeme, and neither a number nor quoted. -/
theorem exists_form (h : r.Takes x) (hr : r ∈ [worded, relation, field]) :
    ∃ p ∈ [Pattern.operator, .keyword, .relation, .field, .parenthesis], p.Form .strict x := by
  simp only [List.mem_cons, List.not_mem_nil, or_false] at hr
  rcases hr with rfl | rfl | rfl
  · obtain ⟨k, hk, hfold⟩ := h
    obtain ⟨p, hp, hform⟩ := Pattern.exists_form_of_worded .strict hk hfold
    have hsub : [Pattern.operator, .keyword, .field, .parenthesis]
        ⊆ [.operator, .keyword, .relation, .field, .parenthesis] := by decide
    exact ⟨p, hsub hp, hform⟩
  · exact ⟨.relation, by decide, h⟩
  · exact ⟨.field, by decide, h⟩

theorem not_number_of_takes (h : r.Takes x) (hr : r ≠ number) : ¬ number.Takes x := by
  show ¬ Regex.numeral.Matches x
  rw [← isNumeral_iff, Bool.not_eq_true]
  cases r with
  | number => exact absurd rfl hr
  | quoted =>
    obtain ⟨-, mark, hmark, hhead, -⟩ := h
    obtain ⟨rest, rfl⟩ := List.head?_eq_some_iff.mp hhead
    exact isNumeral_cons_of_startsNoNumeral hmark.startsNoNumeral rest
  | subQuery =>
    obtain ⟨c, rest, rfl, hc⟩ := exists_cons_of_subQuery h
    exact isNumeral_cons_of_startsNoNumeral
      (startsNoNumeral_of_toLower_eq (d := 'q') hc (by decide)) rest
  | worded | relation | field =>
    obtain ⟨p, hp, hform⟩ := exists_form h (by decide)
    refine hform.isNumeral ?_
    rintro rfl
    exact absurd hp (by decide)

theorem not_quoted_of_takes (h : r.Takes x) (hr : r ∈ [subQuery, worded, relation, field]) :
    ¬ quoted.Takes x := by
  rcases List.mem_cons.mp hr with rfl | hr
  · obtain ⟨c, rest, rfl, hc⟩ := exists_cons_of_subQuery h
    rintro ⟨-, mark, hmark, hhead, -⟩
    obtain rfl := Option.some.inj hhead
    rcases hmark with rfl | rfl
    · exact absurd hc (by decide)
    · exact absurd hc (by decide)
  · obtain ⟨p, hp, hform⟩ := exists_form h hr
    rw [← isSome_quotedBody?_iff, hform.quotedBody? ?_ ?_]
    · simp
    all_goals
      rintro rfl
      exact absurd hp (by decide)

theorem not_subQuery_of_takes (h : r.Takes x) (hr : r ∈ [worded, relation, field]) :
    ¬ subQuery.Takes x := by
  have hparen (hx : '(' ∉ x) : ¬ subQuery.Takes x := by
    rw [← isSome_body?_iff, SubQuery.body?_of_not_mem hx]
    simp
  simp only [List.mem_cons, List.not_mem_nil, or_false] at hr
  rcases hr with rfl | rfl | rfl
  · obtain ⟨k, hk, hfold⟩ := h
    have hopening : ∀ k ∈ Kind.worded, ¬ fold SubQuery.opening <+: fold k.spelling := by decide
    show ¬ fold SubQuery.opening <+: fold x
    rw [hfold]
    exact hopening k hk
  · exact hparen (Regex.not_mem_of_matches h (by decide))
  · exact hparen (Regex.not_mem_of_matches h (by decide))

theorem not_worded_of_relation (h : relation.Takes x) : ¬ worded.Takes x := by
  rw [← isSome_meaning?_iff, meaning?, Kind.ofSpelling?_of_colon (mem_of_relation h)]
  simp

theorem not_relation_of_field (h : field.Takes x) : ¬ relation.Takes x :=
  fun hrelation => Regex.not_mem_of_matches h (by decide) (mem_of_relation hrelation)

/-- Of two rules that take the same text, the one that is tried first is that for wordings and the
other one that for fields. -/
theorem pairwise_inOrder (x : Text) :
    inOrder.Pairwise fun r r' => r.Takes x → r'.Takes x → r = worded ∧ r' = field := by
  refine .cons (fun r hr hnumber h => ?_) (.cons (fun r hr hquoted h => ?_)
    (.cons (fun r hr hsubQuery h => ?_) (.cons (fun r hr hworded h => ?_)
    (.cons (fun r hr hrelation h => ?_) (List.pairwise_singleton _ _)))))
  · exact absurd hnumber (not_number_of_takes h (by rintro rfl; exact absurd hr (by decide)))
  · exact absurd hquoted (not_quoted_of_takes h hr)
  · exact absurd hsubQuery (not_subQuery_of_takes h hr)
  · rcases List.mem_cons.mp hr with rfl | hr
    · exact absurd hworded (not_worded_of_relation h)
    · exact ⟨rfl, List.mem_singleton.mp hr⟩
  · rw [List.mem_singleton.mp hr] at h
    exact absurd hrelation (not_relation_of_field h)

/-- Two rules that take the same text are those for wordings and for fields. -/
theorem eq_or_of_takes (h : r.Takes x) (h' : r'.Takes x) :
    r = r' ∨ (r = worded ∧ r' = field) ∨ (r = field ∧ r' = worded) := by
  refine List.Pairwise.forall_of_forall_of_flip (l := inOrder)
    (R := fun r r' => r.Takes x → r'.Takes x →
      r = r' ∨ (r = worded ∧ r' = field) ∨ (r = field ∧ r' = worded))
    (fun _ _ _ _ => Or.inl rfl) ?_ ?_ (mem_inOrder r) (mem_inOrder r') h h'
  · exact (pairwise_inOrder x).imp fun hpair h h' => Or.inr (Or.inl (hpair h h'))
  · exact (pairwise_inOrder x).imp fun hpair h' h => Or.inr (Or.inr (hpair h h').symm)

/-- The words that are a fixed wording and a path. -/
def sharedWords : List Text :=
  ["like".toList, "and".toList, "or".toList, "null".toList, "empty".toList]

theorem worded_and_field_iff : worded.Takes x ∧ field.Takes x ↔ fold x ∈ sharedWords := by
  have hpath : field.Takes x ↔ isPath (fold x) = true := by
    rw [isPath_fold, isPath_iff]
    rfl
  rw [hpath]
  constructor
  · rintro ⟨⟨k, hk, hfold⟩, h⟩
    have hpaths : ∀ k ∈ Kind.worded, isPath (fold k.spelling) = true →
        fold k.spelling ∈ sharedWords := by decide
    rw [hfold] at h ⊢
    exact hpaths k hk h
  · intro h
    have hshared : ∀ word ∈ sharedWords,
        (∃ k ∈ Kind.worded, word = fold k.spelling) ∧ isPath word = true := by decide
    exact hshared (fold x) h

/-! ## The order of the rules -/

/-- A rule decides about a text if it takes it. Only the rule for fields leaves it to the wordings if
they take it as well. -/
def Decides (r : Rule) (x : Text) (m : Kind × Text) : Prop :=
  r.meaning? x = some m ∧ (r = field → ¬ worded.Takes x)

theorem Decides.takes {m : Kind × Text} (h : r.Decides x m) : r.Takes x := by
  rw [← isSome_meaning?_iff, h.1]
  rfl

/-- No matter how many rules take a text, only one decides. -/
theorem Decides.unique {m m' : Kind × Text} (h : r.Decides x m) (h' : r'.Decides x m') :
    m = m' := by
  rcases eq_or_of_takes h.takes h'.takes with rfl | ⟨rfl, rfl⟩ | ⟨rfl, rfl⟩
  · exact Option.some.inj (h.1.symm.trans h'.1)
  · exact absurd h.takes (h'.2 rfl)
  · exact absurd h'.takes (h.2 rfl)

theorem mem_of_idxOf_lt {front back : List Rule}
    (h : (front ++ field :: back).idxOf worded < (front ++ field :: back).idxOf field) :
    worded ∈ front := by
  by_contra hworded
  rw [List.idxOf_append_of_notMem hworded] at h
  have hle : (front ++ field :: back).idxOf field ≤ front.length := by
    by_cases hfield : field ∈ front
    · rw [List.idxOf_append_of_mem hfield]
      exact Nat.le_of_lt (List.idxOf_lt_length_iff.mpr hfield)
    · rw [List.idxOf_append_of_notMem hfield, List.idxOf_cons_self]
      exact Nat.le_refl _
  omega

/-- What the rules find does not depend on their order, if the wordings come before the fields. -/
theorem findSome?_eq_some_iff {rules : List Rule} (hall : ∀ r, r ∈ rules)
    (hfirst : rules.idxOf worded < rules.idxOf field) {m : Kind × Text} :
    rules.findSome? (meaning? · x) = some m ↔ ∃ r : Rule, r.Decides x m := by
  have hdecides {m : Kind × Text} (h : rules.findSome? (meaning? · x) = some m) :
      ∃ r : Rule, r.Decides x m := by
    obtain ⟨front, r, back, rfl, hr, hnone⟩ := List.findSome?_eq_some_iff.mp h
    refine ⟨r, hr, ?_⟩
    rintro rfl
    rw [← isSome_meaning?_iff, hnone worded (mem_of_idxOf_lt hfirst)]
    simp
  refine ⟨hdecides, ?_⟩
  rintro ⟨r, hr⟩
  cases hfind : rules.findSome? (meaning? · x) with
  | none =>
    have hnone := List.findSome?_eq_none_iff.mp hfind r (hall r)
    rw [hr.1] at hnone
    simp at hnone
  | some m' =>
    obtain ⟨r', hr'⟩ := hdecides hfind
    rw [hr.unique hr']

theorem meaningBy_eq {rules : List Rule} (hall : ∀ r, r ∈ rules)
    (hfirst : rules.idxOf worded < rules.idxOf field) (raw : Text) :
    meaningBy rules raw = meaning .strict raw := by
  have hfind : rules.findSome? (meaning? · raw) = inOrder.findSome? (meaning? · raw) := by
    refine Option.ext fun m => ?_
    rw [findSome?_eq_some_iff hall hfirst, findSome?_eq_some_iff mem_inOrder (by decide)]
  rw [← meaningBy_inOrder, meaningBy, hfind, meaningBy]

end Rule

/-- At most one rule takes a text, apart from the wordings and the fields, and these both take the
shared words and no other texts. Whole numbers are numbers. Each test finds the texts that its rule
is for, and in any order that keeps the wordings before the fields the rules give a text its
meaning. -/
theorem rules_do_not_overlap (raw : Text) :
    (∀ r r' : Rule, r.Takes raw → r'.Takes raw →
      r = r' ∨ (r = .worded ∧ r' = .field) ∨ (r = .field ∧ r' = .worded)) ∧
    (Rule.worded.Takes raw ∧ Rule.field.Takes raw ↔ fold raw ∈ Rule.sharedWords) ∧
    (isInteger raw = true → isNumeral raw = true) ∧
    (∀ r : Rule, (r.meaning? raw).isSome = true ↔ r.Takes raw) ∧
    ∀ rules : List Rule, rules.Perm Rule.inOrder → rules.idxOf .worded < rules.idxOf .field →
      Rule.meaningBy rules raw = meaning .strict raw :=
  ⟨fun _ _ => Rule.eq_or_of_takes, Rule.worded_and_field_iff, isNumeral_of_isInteger,
    fun _ => Rule.isSome_meaning?_iff, fun _ hperm hfirst =>
      Rule.meaningBy_eq (fun r => hperm.mem_iff.mpr (Rule.mem_inOrder r)) hfirst raw⟩

/-- A shared word is no field, even if the rule for fields is the second one. A whole number is a
number, and nothing else. -/
theorem rules_do_not_overlap_of_null :
    (Rule.worded.Takes "Null".toList ∧ Rule.field.Takes "Null".toList) ∧
    Rule.meaningBy [.worded, .field, .relation, .subQuery, .quoted, .number] "Null".toList
      = meaning .strict "Null".toList ∧
    isNumeral "-7".toList = true ∧
    ∀ r : Rule, r.Takes "-7".toList → Rule.number = r := by
  obtain ⟨-, hshared, -, -, horder⟩ := rules_do_not_overlap "Null".toList
  obtain ⟨honce, -, hinteger, -⟩ := rules_do_not_overlap "-7".toList
  refine ⟨hshared.mpr (by decide), horder _ (by decide) (by decide), hinteger (by decide), ?_⟩
  intro r hr
  rcases honce .number r (by decide) hr with h | ⟨h, -⟩ | ⟨h, -⟩
  · exact h
  · exact absurd h (by decide)
  · exact absurd h (by decide)

end FilterQuery
