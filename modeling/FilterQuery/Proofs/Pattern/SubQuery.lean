import FilterQuery.Proofs.Pattern.Expression

/-!
# Full-text queries end at their first closing mark

A text starts with one full-text query at most, so among its beginnings there is no choice.
-/

namespace FilterQuery.SubQuery

theorem closing_eq : closing = ['"', ')'] := rfl

theorem opening_eq : opening = ['q', 'u', 'e', 'r', 'y', '(', '"'] := rfl

theorem closing_prefix_iff {t : Text} : closing <+: t ↔ ∃ rest, t = '"' :: ')' :: rest := by
  rw [closing_eq]
  constructor
  · rintro ⟨rest, rfl⟩
    exact ⟨rest, rfl⟩
  · rintro ⟨rest, rfl⟩
    exact ⟨rest, rfl⟩

theorem closing_infix_cons_iff {c : Char} {t : Text} :
    closing <:+: c :: t ↔ (c = '"' ∧ ∃ rest, t = ')' :: rest) ∨ closing <:+: t := by
  rw [List.infix_cons_iff, closing_prefix_iff]
  simp only [List.cons.injEq, exists_and_left]

theorem not_closing_infix_nil : ¬ closing <:+: [] := by
  rw [List.infix_nil, closing_eq]
  simp

/-! ## The end of a full-text query -/

theorem cutClosing?_append : ∀ {body after : Text}, '\n' ∉ body → ¬ closing <:+: body →
    cutClosing? (body ++ closing ++ after) = some (body ++ closing, after)
  | [], _, _, _ => rfl
  | [c], after, hline, _ => by
    have hc : c ≠ '\n' := fun hc => hline (by simp [hc])
    show cutClosing? (c :: '"' :: ')' :: after) = _
    rw [cutClosing?, if_neg (by simp), if_neg hc]
    rfl
  | c :: d :: body, after, hline, hbody => by
    rw [List.mem_cons, not_or] at hline
    rw [closing_infix_cons_iff, not_or] at hbody
    have ih : cutClosing? (d :: body ++ closing ++ after) = some (d :: body ++ closing, after) :=
      cutClosing?_append hline.2 hbody.2
    rw [List.cons_append, List.cons_append, List.cons_append, List.cons_append, cutClosing?,
      if_neg fun h => hbody.1 ⟨h.1, body, by rw [h.2]⟩, if_neg (Ne.symm hline.1)]
    rw [List.cons_append, List.cons_append] at ih
    rw [ih]
    rfl

theorem form_of_cutClosing? {t x after : Text} (h : cutClosing? t = some (x, after)) :
    ∃ body, x = body ++ closing ∧ '\n' ∉ body ∧ ¬ closing <:+: body := by
  fun_induction cutClosing? t generalizing x after with
  | case1 => simp at h
  | case2 => simp at h
  | case3 c d rest hcd =>
    simp only [Option.some.injEq, Prod.mk.injEq] at h
    exact ⟨[], by rw [← h.1, hcd.1, hcd.2]; rfl, List.not_mem_nil, not_closing_infix_nil⟩
  | case4 => simp at h
  | case5 c d rest hcd hline ih =>
    obtain ⟨⟨x', after'⟩, hx, heq⟩ := Option.map_eq_some_iff.mp h
    simp only [Prod.mk.injEq] at heq
    obtain ⟨body, rfl, hno, hbody⟩ := ih hx
    refine ⟨c :: body, heq.1.symm, by simp [Ne.symm hline, hno], ?_⟩
    rw [closing_infix_cons_iff, not_or]
    refine ⟨?_, hbody⟩
    -- The character behind `c` in the body is the one behind it in the text.
    rintro ⟨hc, tail, rfl⟩
    have ht := append_of_cutClosing? hx
    simp only [List.cons_append, List.cons.injEq] at ht
    exact hcd ⟨hc, ht.1.symm⟩

/-! ## The whole full-text query -/

/-- A full-text query is found exactly where the text starts with one. -/
theorem cut?_eq_some_iff {t x after : Text} :
    cut? t = some (x, after) ↔ x ++ after = t ∧ IsQuery x := by
  constructor
  · intro h
    refine ⟨(append_of_cut? h).1, ?_⟩
    simp only [cut?, Option.bind_eq_bind, Option.bind_eq_some_iff, Option.some.injEq,
      Prod.mk.injEq] at h
    obtain ⟨⟨word, rest⟩, hword, ⟨tail, after'⟩, htail, rfl, -⟩ := h
    obtain ⟨body, rfl, hline, hbody⟩ := form_of_cutClosing? htail
    exact ⟨word, body, (List.append_assoc ..).symm, (Text.eq_append_of_cutFolded? hword).2, hline,
      hbody⟩
  · rintro ⟨rfl, word, body, rfl, hfold, hline, hbody⟩
    have hword := Text.cutFolded?_of_fold_eq (body ++ closing ++ after) hfold
    rw [← List.append_assoc, ← List.append_assoc] at hword
    simp only [cut?, hword, Option.bind_eq_bind, Option.bind_some,
      cutClosing?_append hline hbody]
    rw [List.append_assoc]

theorem cut?_eq_none_iff {t : Text} : cut? t = none ↔ ∀ x, x <+: t → ¬ IsQuery x := by
  constructor
  · rintro h x ⟨after, hx⟩ hform
    rw [cut?_eq_some_iff.mpr ⟨hx, hform⟩] at h
    exact absurd h (by simp)
  · intro h
    cases hcut : cut? t with
    | none => rfl
    | some found =>
      obtain ⟨hx, hform⟩ := cut?_eq_some_iff.mp hcut
      exact absurd hform (h found.1 ⟨found.2, hx⟩)

/-- Two full-text queries that one text starts with are the same. -/
theorem IsQuery.eq_of_prefix {t x y : Text} (hx : IsQuery x) (hy : IsQuery y) (hxt : x <+: t)
    (hyt : y <+: t) : x = y := by
  obtain ⟨u, hu⟩ := hxt
  obtain ⟨v, hv⟩ := hyt
  have h1 := cut?_eq_some_iff.mpr ⟨hu, hx⟩
  rw [cut?_eq_some_iff.mpr ⟨hv, hy⟩] at h1
  simp only [Option.some.injEq, Prod.mk.injEq] at h1
  exact h1.1.symm

end FilterQuery.SubQuery
