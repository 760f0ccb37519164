import FilterQuery.Proofs.Pattern.Dotted
import FilterQuery.Proofs.Pattern.Quoted
import FilterQuery.Proofs.Pattern.SubQuery
import FilterQuery.Proofs.Pattern.Wording
import FilterQuery.Proofs.Text.Offset

/-!
# The pattern table: order first, then length

Every pattern takes the longest beginning of a text that has its form (`cut?_eq_some_iff`), and
fails only where no beginning has it (`cut?_eq_none_iff`). Between patterns the order decides
(`search?_first_longest`): a pattern that fits wins over all later ones, also over one that would
take more.
-/

namespace FilterQuery.Pattern

variable {grammar : NumberGrammar}

/-- Each entry of the table is read as its expression is searched for, to the longest match. -/
theorem reads_cut? {p : Pattern} {r : Regex} (h : p.expression? grammar = some r) (t : Text) :
    r.Reads t (p.cut? grammar t) := by
  cases p with
  | subQuery => simp [expression?] at h
  | singleQuoted => cases h; exact Regex.reads_cutQuoted? '\'' t
  | doubleQuoted => cases h; exact Regex.reads_cutQuoted? '"' t
  | operator => cases h; exact Regex.reads_operators t
  | keyword => cases h; exact Regex.reads_keywords t
  | relation => cases h; exact Regex.reads_cutRelation? t
  | field => cases h; exact Regex.reads_cutPath? t
  | number => cases h; exact Regex.reads_cutNumber? grammar t
  | parenthesis => cases h; exact Regex.reads_parentheses t

theorem form_of_expression? {p : Pattern} {r : Regex} (h : p.expression? grammar = some r)
    (x : Text) : p.Form grammar x ↔ r.Matches x := by
  rw [Form, h]

theorem eq_subQuery_of_expression? {p : Pattern} (h : p.expression? grammar = none) :
    p = subQuery := by
  cases p <;> first | rfl | simp [expression?] at h

/-- A pattern fails only where no beginning of the text has its form. -/
theorem cut?_eq_none_iff {p : Pattern} {t : Text} :
    p.cut? grammar t = none ↔ ∀ x, x <+: t → ¬ p.Form grammar x := by
  cases h : p.expression? grammar with
  | none =>
    rw [eq_subQuery_of_expression? h]
    exact SubQuery.cut?_eq_none_iff
  | some r =>
    rw [(reads_cut? h t).eq_none_iff]
    simp only [form_of_expression? h]

/-- A pattern takes the longest beginning of the text that has its form. -/
theorem cut?_eq_some_iff {p : Pattern} {t x after : Text} :
    p.cut? grammar t = some (x, after) ↔
      x ++ after = t ∧ p.Form grammar x ∧
        ∀ y, y <+: t → p.Form grammar y → y.length ≤ x.length := by
  cases h : p.expression? grammar with
  | none =>
    rw [eq_subQuery_of_expression? h]
    refine SubQuery.cut?_eq_some_iff.trans ⟨?_, fun h => ⟨h.1, h.2.1⟩⟩
    rintro ⟨rfl, hx⟩
    refine ⟨rfl, hx, ?_⟩
    intro y hy hform
    have heq := hform.eq_of_prefix hx hy (List.prefix_append x after)
    exact Nat.le_of_eq (congrArg List.length heq)
  | some r =>
    rw [(reads_cut? h t).eq_some_iff]
    simp only [form_of_expression? h]

/-- A lexeme is found where it stands alone. -/
theorem Form.cut?_eq {p : Pattern} {x : Text} (h : p.Form grammar x) :
    p.cut? grammar x = some (x, []) :=
  cut?_eq_some_iff.mpr ⟨List.append_nil x, h, fun _ hy _ => hy.length_le⟩

theorem Form.ne_nil {p : Pattern} {x : Text} (h : p.Form grammar x) : x ≠ [] :=
  (append_of_cut? h.cut?_eq).2

theorem Form.exists_cons_of_prefix {p : Pattern} {c : Char} {x t : Text} (h : p.Form grammar x)
    (hx : x <+: c :: t) : ∃ tail, x = c :: tail := by
  obtain ⟨d, tail, rfl⟩ := List.exists_cons_of_ne_nil h.ne_nil
  obtain ⟨rfl, -⟩ := List.cons_prefix_cons.mp hx
  exact ⟨tail, rfl⟩

/-! ## The order of the table -/

theorem findSome?_cut?_eq_none_iff {ps : List Pattern} {t : Text} :
    (ps.findSome? fun p => (p.cut? grammar t).map fun cut => (p, cut)) = none ↔
      ∀ p ∈ ps, ∀ x, x <+: t → ¬ p.Form grammar x := by
  rw [List.findSome?_eq_none_iff]
  simp only [Option.map_eq_none_iff, cut?_eq_none_iff]

theorem findSome?_cut?_eq_some_iff {ps : List Pattern} {t x after : Text} {p : Pattern} :
    (ps.findSome? fun p => (p.cut? grammar t).map fun cut => (p, cut)) = some (p, x, after) ↔
      ∃ earlier later, ps = earlier ++ p :: later ∧
        (∀ q ∈ earlier, ∀ y, y <+: t → ¬ q.Form grammar y) ∧
          x ++ after = t ∧ p.Form grammar x ∧
            ∀ y, y <+: t → p.Form grammar y → y.length ≤ x.length := by
  rw [List.findSome?_eq_some_iff]
  simp only [Option.map_eq_none_iff, cut?_eq_none_iff]
  constructor
  · rintro ⟨earlier, q, later, hps, hcut, hearlier⟩
    obtain ⟨cut, hcut, heq⟩ := Option.map_eq_some_iff.mp hcut
    rw [Prod.mk.injEq] at heq
    obtain ⟨rfl, rfl⟩ := heq
    exact ⟨earlier, later, hps, hearlier, cut?_eq_some_iff.mp hcut⟩
  · rintro ⟨earlier, later, hps, hearlier, hcut⟩
    refine ⟨earlier, p, later, hps, ?_, hearlier⟩
    rw [cut?_eq_some_iff.mpr hcut]
    rfl

theorem first?_eq_none_iff {t : Text} :
    first? grammar t = none ↔ ∀ p ∈ table, ∀ x, x <+: t → ¬ p.Form grammar x :=
  findSome?_cut?_eq_none_iff

theorem first?_eq_some_iff {t x after : Text} {p : Pattern} :
    first? grammar t = some (p, x, after) ↔
      ∃ earlier later, table = earlier ++ p :: later ∧
        (∀ q ∈ earlier, ∀ y, y <+: t → ¬ q.Form grammar y) ∧
          x ++ after = t ∧ p.Form grammar x ∧
            ∀ y, y <+: t → p.Form grammar y → y.length ≤ x.length :=
  findSome?_cut?_eq_some_iff

/-- The search for an entry finds the lexeme that the entry is read to. -/
theorem row?_eq {p : Pattern} (hp : p ∈ table) (t : Text) :
    row? grammar t p = (p.cut? grammar t).map fun (lexeme, _) => (p, Text.size lexeme) := by
  rw [row?]
  cases h : p.expression? grammar with
  | none =>
    rw [eq_subQuery_of_expression? h] at hp
    exact absurd hp (by decide)
  | some r =>
    rw [Option.bind_eq_bind, Option.bind_some, (reads_cut? h t).first?_eq]
    cases hcut : p.cut? grammar t with
    | none => rfl
    | some cut =>
      -- No lexeme is empty, so none is passed over.
      have hne := (append_of_cut? hcut).2
      rw [Option.map_some, Option.filter_some, if_pos (by simp [hne])]
      rfl

theorem search?_eq (t : Text) :
    search? grammar t
      = (first? grammar t).map fun (p, lexeme, _) => (p, Text.size lexeme) := by
  rw [search?, first?, List.map_findSome?, ← List.head?_filterMap, ← List.head?_filterMap]
  refine congrArg List.head? (List.filterMap_congr ?_)
  intro p hp
  rw [row?_eq hp, Function.comp, Option.map_map]
  rfl

/-- The table finds nothing exactly where no beginning of the text has the form of an entry. Else it
finds the first entry of which the text has a beginning, with the size of the longest one. -/
theorem search?_first_longest (grammar : NumberGrammar) (t : Text) :
    (search? grammar t
      = (first? grammar t).map fun (p, lexeme, _) => (p, Text.size lexeme)) ∧
    (search? grammar t = none ↔ ∀ p ∈ table, ∀ x, x <+: t → ¬ p.Form grammar x) ∧
    ∀ p n, search? grammar t = some (p, n) ↔
      ∃ earlier later, table = earlier ++ p :: later ∧
        (∀ q ∈ earlier, ∀ x, x <+: t → ¬ q.Form grammar x) ∧
        ∃ lexeme, lexeme <+: t ∧ p.Form grammar lexeme ∧ Text.size lexeme = n ∧
          ∀ x, x <+: t → p.Form grammar x → Text.size x ≤ Text.size lexeme := by
  refine ⟨search?_eq t, ?_, ?_⟩
  · rw [search?_eq, Option.map_eq_none_iff, first?_eq_none_iff]
  · intro p n
    rw [search?_eq, Option.map_eq_some_iff]
    constructor
    · rintro ⟨⟨p', lexeme, after⟩, hfirst, heq⟩
      simp only [Prod.mk.injEq] at heq
      obtain ⟨rfl, rfl⟩ := heq
      obtain ⟨earlier, later, htable, hearlier, rfl, hform, hmax⟩ := first?_eq_some_iff.mp hfirst
      have hlexeme := List.prefix_append lexeme after
      refine ⟨earlier, later, htable, hearlier, lexeme, hlexeme, hform, rfl, ?_⟩
      exact fun x hx hx' => (Text.size_le_iff hx hlexeme).mpr (hmax x hx hx')
    · rintro ⟨earlier, later, htable, hearlier, lexeme, ⟨after, rfl⟩, hform, rfl, hmax⟩
      refine ⟨(p, lexeme, after), first?_eq_some_iff.mpr ⟨earlier, later, htable, hearlier, rfl,
        hform, ?_⟩, rfl⟩
      exact fun x hx hx' =>
        (Text.size_le_iff hx (List.prefix_append lexeme after)).mp (hmax x hx hx')

/-- A pair of marks is given back where the text does not go on to a closing mark. -/
example : search? .strict "'a''b".toList = some (.singleQuoted, 3) := by decide

end FilterQuery.Pattern
