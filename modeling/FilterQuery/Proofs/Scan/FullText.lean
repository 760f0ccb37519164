import FilterQuery.Proofs.Scan.Placed
import FilterQuery.Proofs.Text.Folding

/-!
# Full-text queries mean what they enclose

A text on one line without a closing mark in it, put between an opening and a closing mark, is a
full-text query with that text as its value, whatever follows it. No other text is, and no token is
a full-text query in any other way (`tokenize_subQuery`).
-/

namespace FilterQuery

variable {grammar : NumberGrammar} {query raw rest : Text} {p : Option Pattern}

/-- The opening has a fixed length, so what is enclosed can be told from it. -/
theorem SubQuery.isQuery_append_iff {word body : Text}
    (hword : Text.fold word = Text.fold opening) :
    IsQuery (word ++ body ++ closing) ↔ '\n' ∉ body ∧ ¬ closing <:+: body := by
  constructor
  · rintro ⟨word', body', heq, hword', hline, hbody⟩
    have hlength := Text.length_eq_of_fold_eq (hword.trans hword'.symm)
    rw [List.append_cancel_right_eq] at heq
    rw [(List.append_inj heq hlength).2]
    exact ⟨hline, hbody⟩
  · rintro ⟨hline, hbody⟩
    exact ⟨word, body, rfl, hword, hline, hbody⟩

/-- Nothing is tried before the full-text query, and no other one starts at the same place. -/
theorem leads_of_isQuery (grammar : NumberGrammar) (h : SubQuery.IsQuery raw) (rest : Text) :
    Leads grammar (some .subQuery) raw rest := by
  have horder : Pattern.order = [] ++ .subQuery :: Pattern.table := rfl
  refine .found horder (List.forall_mem_nil _) h fun x hx hform => ?_
  rw [h.eq_of_prefix hform (List.prefix_append raw rest) hx]

/-- A full-text query in front of other text is the first token of the whole. -/
theorem exists_tokenize_of_isQuery (config : Config) (h : SubQuery.IsQuery raw) (rest : Text) :
    ∃ t tokens, tokenize config (raw ++ rest) = t :: tokens ∧ t.raw = raw ∧
      meaning config.numeric raw = (t.kind, t.value) := by
  have hhead : ∀ c ∈ raw.head?, isBlank c = false := by
    intro c hc
    obtain ⟨tail, rfl⟩ := List.head?_eq_some_iff.mp hc
    exact not_isBlank_of_toLower_eq (d := 'q') h.head (by decide)
  exact ⟨_, _, tokenize_of_leads hhead (leads_of_isQuery config.numeric h rest), rfl, rfl⟩

/-- The first token of an opening, a text, a closing mark and anything behind them is a full-text
query with that text as its value exactly if the text has neither a newline nor a closing mark in
it. Every full-text query among the tokens of a query is of this form. -/
theorem tokenize_subQuery (config : Config) :
    (∀ word v post : Text, Text.fold word = Text.fold "query(\"".toList →
      ((∃ t tokens, tokenize config (word ++ v ++ "\")".toList ++ post) = t :: tokens ∧
          t.kind = .subQuery ∧ t.raw = word ++ v ++ "\")".toList ∧ t.value = v) ↔
        '\n' ∉ v ∧ ¬ "\")".toList <:+: v)) ∧
    ∀ query, ∀ t ∈ tokenize config query, t.kind = .subQuery →
      ∃ word, Text.fold word = Text.fold "query(\"".toList ∧
        t.raw = word ++ t.value ++ "\")".toList ∧
        '\n' ∉ t.value ∧ ¬ "\")".toList <:+: t.value := by
  constructor
  · intro word v post hword
    rw [← SubQuery.closing, ← SubQuery.isQuery_append_iff hword]
    constructor
    · rintro ⟨t, tokens, htokens, hkind, hraw, -⟩
      have ht : t ∈ tokenize config (word ++ v ++ SubQuery.closing ++ post) := by
        rw [htokens]
        exact List.mem_cons_self
      obtain ⟨p, before, rest, later, hplaced⟩ := exists_placed_of_mem ht
      exact hraw ▸ hplaced.isQuery hkind
    · intro hquery
      obtain ⟨t, tokens, htokens, hraw, hmeaning⟩ := exists_tokenize_of_isQuery config hquery post
      rw [meaning_of_enclosed config.numeric hword hquery, Prod.mk.injEq] at hmeaning
      exact ⟨t, tokens, htokens, hmeaning.1.symm, hraw, hmeaning.2.symm⟩
  · intro query t ht hkind
    obtain ⟨p, before, rest, later, hplaced⟩ := exists_placed_of_mem ht
    have hquery := hplaced.isQuery hkind
    obtain ⟨word, body, hraw, hword, hline, hbody⟩ := hplaced.isQuery hkind
    -- The value is read off the characters, which enclose the text.
    have hmeaning := hplaced.meaning
    rw [hraw] at hquery hmeaning
    rw [meaning_of_enclosed config.numeric hword hquery, Prod.mk.injEq] at hmeaning
    rw [← hmeaning.2]
    exact ⟨word, hword, hraw, hline, hbody⟩

/-- A text that ends in a quote mark and has an opening and parentheses in it, with another closing
mark behind the literal, and the same literal found behind a word. -/
theorem tokenize_subQuery_of_opening_within :
    (∃ t tokens, tokenize {} ("QuErY(\"".toList ++ "é query(\" (x) \"".toList ++ "\")".toList ++
        "\") or a".toList) = t :: tokens ∧ t.kind = .subQuery ∧
      t.raw = "QuErY(\"".toList ++ "é query(\" (x) \"".toList ++ "\")".toList ∧
      t.value = "é query(\" (x) \"".toList) ∧
    ∃ word, Text.fold word = Text.fold "query(\"".toList ∧
      "Query(\"b\"\")".toList = word ++ "b\"".toList ++ "\")".toList ∧
      '\n' ∉ "b\"".toList ∧ ¬ "\")".toList <:+: "b\"".toList :=
  ⟨((tokenize_subQuery {}).1 "QuErY(\"".toList "é query(\" (x) \"".toList "\") or a".toList
      (by decide)).mpr ⟨by decide, by decide⟩,
    (tokenize_subQuery {}).2 "a=Query(\"b\"\")".toList
      { kind := .subQuery, value := "b\"".toList, raw := "Query(\"b\"\")".toList, span := ⟨2, 13⟩ }
      (by decide) rfl⟩

end FilterQuery
