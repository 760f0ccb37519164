import FilterQuery.Proofs.Pattern.Quoted

/-!
# Quoted texts and doubled marks

Between its two marks a quoted text holds the mark only in pairs (`Paired`). So two quoted texts
with nothing between them are one quoted text, and a quoted text that goes on behind its end goes on
with a mark.

Any text can be quoted: with both marks doubled (`quote`) it stands for itself, whichever mark
encloses it.
-/

namespace FilterQuery

/-! ## Marks in pairs -/

/-- A text that holds a mark only in pairs, as the pairs are counted from the left. -/
inductive Paired (mark : Char) : Text → Prop
  | nil : Paired mark []
  | other {c : Char} {t : Text} : c ≠ mark → Paired mark t → Paired mark (c :: t)
  | pair {t : Text} : Paired mark t → Paired mark (mark :: mark :: t)

namespace Paired

variable {mark : Char} {a b : Text}

theorem append (ha : Paired mark a) (hb : Paired mark b) : Paired mark (a ++ b) := by
  induction ha with
  | nil => exact hb
  | other hc _ ih => exact other hc ih
  | pair _ ih => exact pair ih

/-- What follows a mark behind a paired text, up to another such mark, is nothing or starts with the
mark. -/
theorem head_of_append_eq (ha : Paired mark a) : ∀ {b : Text}, Paired mark b → ∀ {y : Text},
    a ++ mark :: y = b ++ [mark] → ∀ c ∈ y.head?, c = mark := by
  -- The two texts are taken apart side by side. Where the first one ends, its mark is either the
  -- last of all or the first of a pair.
  induction ha with
  | nil =>
    intro b hb y h c hc
    cases hb with
    | nil =>
      rw [List.nil_append, List.nil_append, List.cons.injEq] at h
      rw [h.2] at hc
      simp at hc
    | other hd _ =>
      rw [List.nil_append, List.cons_append, List.cons.injEq] at h
      exact absurd h.1.symm hd
    | pair _ =>
      rw [List.nil_append, List.cons_append, List.cons_append, List.cons.injEq] at h
      rw [h.2, List.head?_cons, Option.mem_some_iff] at hc
      exact hc.symm
  | other hd _ ih =>
    intro b hb y h c hc
    cases hb with
    | nil =>
      rw [List.cons_append, List.nil_append, List.cons.injEq] at h
      exact absurd h.1 hd
    | other _ hb =>
      rw [List.cons_append, List.cons_append, List.cons.injEq] at h
      exact ih hb h.2 c hc
    | pair _ =>
      rw [List.cons_append, List.cons_append, List.cons.injEq] at h
      exact absurd h.1 hd
  | pair _ ih =>
    intro b hb y h c hc
    cases hb with
    | nil => simp at h
    | other hd _ =>
      simp only [List.cons_append, List.cons.injEq] at h
      exact absurd h.1.symm hd
    | pair hb =>
      simp only [List.cons_append, List.cons.injEq, true_and] at h
      exact ih hb h c hc

end Paired

namespace Regex

variable {mark : Char} {x y : Text}

theorem matches_quotedItem_iff :
    Matches (quotedItem mark) x ↔ (∃ c, c ≠ mark ∧ x = [c]) ∨ x = [mark, mark] := by
  rw [quotedItem, matches_alt_iff, matches_one_iff, matches_seq_iff]
  simp only [matches_char_iff, decide_eq_true_eq]
  constructor
  · rintro (hc | ⟨u, v, rfl, rfl, rfl⟩)
    · exact Or.inl hc
    · exact Or.inr rfl
  · rintro (hc | rfl)
    · exact Or.inl hc
    · exact Or.inr ⟨[mark], [mark], rfl, rfl, rfl⟩

theorem matches_star_quotedItem_iff : Matches (star (quotedItem mark)) x ↔ Paired mark x := by
  constructor
  · intro h
    generalize hr : star (quotedItem mark) = r at h
    induction h with
    | stop => exact .nil
    | more hitem _ _ ih =>
      rw [star.injEq] at hr
      subst hr
      rcases matches_quotedItem_iff.mp hitem with ⟨c, hc, rfl⟩ | rfl
      · exact .other hc (ih rfl)
      · exact .pair (ih rfl)
    | _ => simp at hr
  · intro h
    induction h with
    | nil => exact .stop
    | other hc _ ih => exact .more (matches_quotedItem_iff.mpr (Or.inl ⟨_, hc, rfl⟩)) ih
    | pair _ ih => exact .more (matches_quotedItem_iff.mpr (Or.inr rfl)) ih

/-- A quoted text is a paired text between two marks. -/
theorem matches_quoted_iff :
    Matches (quoted mark) x ↔ ∃ body, Paired mark body ∧ x = mark :: body ++ [mark] := by
  have hquoted : quoted mark = seq (char mark) (seq (star (quotedItem mark)) (char mark)) := rfl
  rw [hquoted, matches_seq_iff]
  simp only [matches_seq_iff, matches_char_iff, matches_star_quotedItem_iff]
  constructor
  · rintro ⟨u, v, rfl, ⟨body, w, hbody, rfl, rfl⟩, rfl⟩
    exact ⟨body, hbody, rfl⟩
  · rintro ⟨body, hbody, rfl⟩
    exact ⟨[mark], body ++ [mark], rfl, ⟨body, [mark], hbody, rfl, rfl⟩, rfl⟩

/-- A quoted text that goes on to a longer one goes on with its mark. -/
theorem head_of_matches_quoted_append (hx : Matches (quoted mark) x)
    (hxy : Matches (quoted mark) (x ++ y)) : ∀ c ∈ y.head?, c = mark := by
  obtain ⟨a, ha, rfl⟩ := matches_quoted_iff.mp hx
  obtain ⟨b, hb, hy⟩ := matches_quoted_iff.mp hxy
  simp only [List.cons_append, List.append_assoc, List.nil_append, List.cons.injEq,
    true_and] at hy
  exact ha.head_of_append_eq hb hy

/-- Two quoted texts with nothing between them are one. -/
theorem matches_quoted_append (hx : Matches (quoted mark) x) (hy : Matches (quoted mark) y) :
    Matches (quoted mark) (x ++ y) := by
  obtain ⟨a, ha, rfl⟩ := matches_quoted_iff.mp hx
  obtain ⟨b, hb, rfl⟩ := matches_quoted_iff.mp hy
  exact matches_quoted_iff.mpr ⟨a ++ mark :: mark :: b, ha.append (.pair hb), by simp⟩

end Regex

/-! ## Quoting a text -/

namespace Text

/-- A text with every occurrence of a mark doubled. -/
def double (mark : Char) : Text → Text
  | [] => []
  | c :: rest => if c = mark then c :: c :: double mark rest else c :: double mark rest

/-- A text with both marks doubled, between two marks of one style. -/
def quote (mark : Char) (s : Text) : Text := mark :: double '\'' (double '"' s) ++ [mark]

theorem paired_double (mark : Char) : ∀ s : Text, Paired mark (double mark s)
  | [] => .nil
  | c :: rest => by
    rw [double]
    split
    · next hc =>
      subst hc
      exact .pair (paired_double c rest)
    · next hc => exact .other hc (paired_double mark rest)

/-- Doubling another mark leaves the pairs of a mark. -/
theorem paired_double_of_ne {mark other : Char} (hne : other ≠ mark) {t : Text}
    (h : Paired mark t) : Paired mark (double other t) := by
  induction h with
  | nil => exact .nil
  | other hc _ ih =>
    rw [double]
    split
    · exact .other hc (.other hc ih)
    · exact .other hc ih
  | pair _ ih =>
    rw [double, if_neg (Ne.symm hne), double, if_neg (Ne.symm hne)]
    exact .pair ih

end Text

theorem collapse_cons_of_ne {mark c : Char} (hc : c ≠ mark) :
    ∀ t : Text, collapse mark (c :: t) = c :: collapse mark t
  | [] => rfl
  | d :: t => by rw [collapse, if_neg fun h => hc h.1]

/-- Collapsing undoes doubling. -/
theorem collapse_double (mark : Char) : ∀ s : Text, collapse mark (Text.double mark s) = s
  | [] => rfl
  | c :: rest => by
    rw [Text.double]
    split
    · next hc =>
      subst hc
      rw [collapse, if_pos ⟨rfl, rfl⟩, collapse_double c rest]
    · next hc => rw [collapse_cons_of_ne hc, collapse_double mark rest]

theorem unquote_double (s : Text) : unquote (Text.double '\'' (Text.double '"' s)) = s := by
  rw [unquote, collapse_double, collapse_double]

/-- A text is quoted with either mark. -/
theorem Text.matches_quote {mark : Char} (h : mark = '\'' ∨ mark = '"') (s : Text) :
    (Regex.quoted mark).Matches (quote mark s) := by
  refine Regex.matches_quoted_iff.mpr ⟨_, ?_, rfl⟩
  rcases h with rfl | rfl
  · exact paired_double '\'' (double '"' s)
  · exact paired_double_of_ne (by decide) (paired_double '"' s)

end FilterQuery
