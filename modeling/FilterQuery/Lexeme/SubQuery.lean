import FilterQuery.Text.Basic

/-!
# Full-text queries

A full-text query is written `query("…")`, its first word in any case of its letters. It ends at the
first closing mark `")` after the opening one, and stays on one line: a newline before the closing
mark means that no full-text query starts here.
-/

namespace FilterQuery.SubQuery

/-- What a full-text query starts with. -/
def opening : Text := "query(\"".toList

/-- What a full-text query ends with. -/
def closing : Text := "\")".toList

/-- Reads on from inside a full-text query, up to and including its closing mark. -/
def cutClosing? : Text → Option (Text × Text)
  | [] => none
  | [_] => none
  | c :: d :: rest =>
    if c = '"' ∧ d = ')' then some ([c, d], rest)
    else if c = '\n' then none
    else (cutClosing? (d :: rest)).map fun (body, after) => (c :: body, after)

theorem append_of_cutClosing? {t body after : Text} (h : cutClosing? t = some (body, after)) :
    body ++ after = t := by
  fun_induction cutClosing? t generalizing body after with
  | case1 => simp at h
  | case2 => simp at h
  | case3 =>
    simp only [Option.some.injEq, Prod.mk.injEq] at h
    simp [← h.1, ← h.2]
  | case4 => simp at h
  | case5 c d rest hc hn ih =>
    simp only [Option.map_eq_some_iff, Prod.mk.injEq] at h
    obtain ⟨⟨body', after'⟩, h', rfl, rfl⟩ := h
    simp [ih h']

/-- The full-text query at the front of a text, and what follows it. -/
def cut? (t : Text) : Option (Text × Text) := do
  let (word, rest) ← Text.cutFolded? opening t
  let (body, after) ← cutClosing? rest
  some (word ++ body, after)

theorem append_of_cut? {t query after : Text} (h : cut? t = some (query, after)) :
    query ++ after = t ∧ query ≠ [] := by
  simp only [cut?, Option.bind_eq_bind, Option.bind_eq_some_iff, Option.some.injEq,
    Prod.mk.injEq] at h
  obtain ⟨⟨word, rest⟩, h1, ⟨body, after'⟩, h2, rfl, rfl⟩ := h
  obtain ⟨hw, hfold⟩ := Text.eq_append_of_cutFolded? h1
  have hb := append_of_cutClosing? h2
  refine ⟨by simp_all, ?_⟩
  intro hnil
  have hword : word = [] := (List.append_eq_nil_iff.mp hnil).1
  rw [hword] at hfold
  exact absurd hfold (by decide)

/-- The text of a full-text query: what follows the opening mark, without the closing mark if that
is there. -/
def body? (t : Text) : Option Text :=
  (Text.cutFolded? opening t).map fun (_, rest) =>
    if closing.isSuffixOf rest then rest.take (rest.length - closing.length) else rest

end FilterQuery.SubQuery
