import FilterQuery.Proofs.Meaning.Folding
import FilterQuery.Proofs.Scan.Placed

/-!
# Reserved words and names

The words `like`, `null` and `empty` are found wherever a text begins with one of them, whatever
follows: their patterns ask for no end of the word, and no pattern before them starts with one of
their letters (`leads_of_reserved`). So a name that begins with one of them falls into that word and
the rest, and it cannot be written in a query at all. Every other path is found as a whole
(`leads_of_path`, `leads_of_relation`), though a plain one may mean an `and` or an `or`
(`tokenize_names`).
-/

namespace FilterQuery

variable {grammar : NumberGrammar} {k : Kind} {word rest x y : Text} {q : Pattern}

/-! ## Reserved words -/

/-- The words that no name may begin with, in lower case, and their kinds. -/
def Kind.reserved : List (Kind × Text) :=
  [(.like, "like".toList), (.null, "null".toList), (.empty, "empty".toList)]

/-- A text begins with a reserved word, in any case of its letters. -/
def BeginsReserved (x : Text) : Prop := ∃ r ∈ Kind.reserved, r.2 <+: Text.fold x

theorem beginsReserved_iff :
    BeginsReserved x ↔ ∃ k word rest, x = word ++ rest ∧ (k, Text.fold word) ∈ Kind.reserved := by
  constructor
  · rintro ⟨⟨k, w⟩, hk, u, hu⟩
    obtain ⟨word, rest, rfl, rfl, -⟩ := List.map_eq_append_iff.mp hu.symm
    exact ⟨k, word, rest, rfl, hk⟩
  · rintro ⟨k, word, rest, rfl, hk⟩
    exact ⟨(k, Text.fold word), hk, by rw [Text.fold_append]; exact List.prefix_append _ _⟩

namespace Kind

theorem fold_spelling_of_reserved (h : (k, Text.fold word) ∈ reserved) :
    Text.fold word = Text.fold k.spelling := by
  have hall : ∀ r ∈ reserved, r.2 = Text.fold r.1.spelling := by decide
  exact hall _ h

theorem worded_of_reserved (h : (k, Text.fold word) ∈ reserved) : k ∈ worded := by
  have hall : ∀ r ∈ reserved, r.1 ∈ worded := by decide
  exact hall _ h

/-- Where a reserved word stands, there is no other operator and no other keyword. -/
theorem eq_of_reserved (h : (k, Text.fold word) ∈ reserved) {k' : Kind}
    (hk' : k' ∈ Pattern.operators ++ [.null, .empty]) (hy : Text.fold y = Text.fold k'.spelling)
    (hpre : y <+: word ++ rest) : k' = k := by
  have hall : ∀ k' ∈ Pattern.operators ++ [.null, .empty], ∀ r ∈ reserved,
      Text.fold k'.spelling <+: r.2 ∨ r.2 <+: Text.fold k'.spelling → k' = r.1 := by decide
  refine hall k' hk' _ h ?_
  rw [← hy]
  refine List.prefix_or_prefix_of_prefix (hpre.map Char.toLower) ?_
  exact (List.prefix_append word rest).map Char.toLower

theorem length_le_of_reserved (h : (k, Text.fold word) ∈ reserved) {k' : Kind}
    (hk' : k' ∈ Pattern.operators ++ [.null, .empty]) (hy : Text.fold y = Text.fold k'.spelling)
    (hpre : y <+: word ++ rest) : y.length ≤ word.length := by
  obtain rfl := eq_of_reserved h hk' hy hpre
  exact Nat.le_of_eq (Text.length_eq_of_fold_eq (hy.trans (fold_spelling_of_reserved h).symm))

end Kind

/-- A reserved word starts with a letter, and with one that no full-text query starts with. -/
theorem head_of_reserved (h : (k, Text.fold word) ∈ Kind.reserved) :
    ∃ c tail, word = c :: tail ∧ c.toLower ∈ ['l', 'n', 'e'] := by
  have hall : ∀ r ∈ Kind.reserved, r.2.head?.any ['l', 'n', 'e'].contains = true := by decide
  have hhead := hall _ h
  cases word with
  | nil => exact absurd hhead Bool.false_ne_true
  | cons c tail => exact ⟨c, tail, rfl, List.contains_iff_mem.mp hhead⟩

/-- Where a reserved word stands, there is no full-text query and no literal. -/
theorem not_form_of_reserved (h : (k, Text.fold word) ∈ Kind.reserved)
    (hq : q ∈ [Pattern.subQuery, .singleQuoted, .doubleQuoted]) (hy : y <+: word ++ rest) :
    ¬ q.Form grammar y := by
  obtain ⟨c, tail, rfl, hc⟩ := head_of_reserved h
  intro hform
  obtain ⟨y, rfl⟩ := hform.exists_cons_of_prefix hy
  simp only [List.mem_cons, List.not_mem_nil, or_false] at hq
  rcases hq with rfl | rfl | rfl
  · have hquery : SubQuery.IsQuery (c :: y) := hform
    rw [hquery.head] at hc
    exact absurd hc (by decide)
  all_goals
    obtain ⟨body, -, hy⟩ := Regex.matches_quoted_iff.mp hform
    rw [(List.cons.inj hy).1] at hc
    exact absurd hc (by decide)

/-- A reserved word at the front of a text is the lexeme there, whatever follows it. -/
theorem leads_of_reserved (grammar : NumberGrammar) (h : (k, Text.fold word) ∈ Kind.reserved)
    (rest : Text) : ∃ p, Leads grammar (some p) word rest := by
  have hspelling := Kind.fold_spelling_of_reserved h
  by_cases hoperator : k ∈ Pattern.operators
  · have horder : Pattern.order = [.subQuery, .singleQuoted, .doubleQuoted] ++ .operator ::
      [.keyword, .relation, .field, .number, .parenthesis] := rfl
    refine ⟨.operator, .found horder (fun q hq y hy => not_form_of_reserved h hq hy)
      (Pattern.form_operator_iff.mpr ⟨k, hoperator, hspelling⟩) fun y hy hform => ?_⟩
    obtain ⟨k', hk', hfold⟩ := Pattern.form_operator_iff.mp hform
    exact Kind.length_le_of_reserved h (List.mem_append_left _ hk') hfold hy
  · have hkeyword : k ∈ [Kind.null, .empty] := by
      have hall : ∀ r ∈ Kind.reserved, r.1 ∉ Pattern.operators → r.1 ∈ [Kind.null, .empty] := by
        decide
      exact hall _ h hoperator
    have horder : Pattern.order = [.subQuery, .singleQuoted, .doubleQuoted, .operator]
      ++ .keyword :: [.relation, .field, .number, .parenthesis] := rfl
    refine ⟨.keyword, .found horder (fun q hq y hy => ?_)
      (Pattern.form_keyword_iff.mpr ⟨k, hkeyword, hspelling⟩) fun y hy hform => ?_⟩
    · by_cases hq' : q = .operator
      · subst hq'
        intro hform
        obtain ⟨k', hk', hfold⟩ := Pattern.form_operator_iff.mp hform
        exact hoperator (Kind.eq_of_reserved h (List.mem_append_left _ hk') hfold hy ▸ hk')
      · exact not_form_of_reserved h (by simpa [hq'] using hq) hy
    · obtain ⟨k', hk', hfold⟩ := Pattern.form_keyword_iff.mp hform
      exact Kind.length_le_of_reserved h (List.mem_append_right _ hk') hfold hy

/-- A text that begins with a reserved word has it as its first token, and the rest is read by
itself. -/
theorem tokenize_of_reserved (config : Config) (h : (k, Text.fold word) ∈ Kind.reserved)
    (rest : Text) :
    tokenize config (word ++ rest) =
      { kind := k, value := word, raw := word, span := ⟨0, Text.size word⟩ } ::
        (tokenize config rest).map (Token.shift (Text.size word)) := by
  obtain ⟨p, hleads⟩ := leads_of_reserved config.numeric h rest
  have hhead : ∀ c ∈ word.head?, isBlank c = false := by
    obtain ⟨c, tail, rfl, hc⟩ := head_of_reserved h
    rintro d ⟨⟩
    simp only [List.mem_cons, List.not_mem_nil, or_false] at hc
    rcases hc with hc | hc | hc
    · exact not_isBlank_of_toLower_eq (d := 'l') hc (by decide)
    · exact not_isBlank_of_toLower_eq (d := 'n') hc (by decide)
    · exact not_isBlank_of_toLower_eq (d := 'e') hc (by decide)
  rw [tokenize_of_leads hhead hleads, meaning_of_worded (Kind.worded_of_reserved h)
    (Kind.fold_spelling_of_reserved h)]

/-- No token that is a name begins with a reserved word: the word would be a token by itself. -/
theorem Token.Placed.not_beginsReserved {query before : Text} {t : Token} {p : Option Pattern}
    {later : List Token} (h : t.Placed grammar query p before rest later)
    (hkind : t.kind = .field ∨ t.kind = .relation) : ¬ BeginsReserved t.raw := by
  rw [beginsReserved_iff]
  rintro ⟨k, word, tail, hraw, hk⟩
  obtain ⟨p', hleads⟩ := leads_of_reserved grammar hk (tail ++ rest)
  have hsame : t.raw ++ rest = word ++ (tail ++ rest) := by rw [hraw, List.append_assoc]
  obtain ⟨-, hword, -⟩ := h.leads.unique hleads hsame
  have hmeaning := h.meaning
  rw [hword, meaning_of_worded (Kind.worded_of_reserved hk) (Kind.fold_spelling_of_reserved hk),
    Prod.mk.injEq] at hmeaning
  rw [← hmeaning.1] at hkind
  have hall : ∀ r ∈ Kind.reserved, ¬ (r.1 = .field ∨ r.1 = .relation) := by decide
  exact hall _ hk hkind

theorem not_beginsReserved_of_mem {config : Config} {query : Text} {t : Token}
    (ht : t ∈ tokenize config query) (hkind : t.kind = .field ∨ t.kind = .relation) :
    ¬ BeginsReserved t.raw := by
  obtain ⟨p, before, rest, later, hplaced⟩ := exists_placed_of_mem ht
  exact hplaced.not_beginsReserved hkind

/-- No token that is a field is an `and` or an `or`: it would mean the word. -/
theorem not_spells_of_field {config : Config} {query : Text} {t : Token}
    (ht : t ∈ tokenize config query) (hkind : t.kind = .field) {k : Kind} (hk : k ∈ Kind.worded)
    (hfield : k ≠ .field) : Text.fold t.raw ≠ Text.fold k.spelling := by
  intro hfold
  obtain ⟨p, before, rest, later, hplaced⟩ := exists_placed_of_mem ht
  have hmeaning := hplaced.meaning
  rw [meaning_of_worded hk hfold, Prod.mk.injEq, hkind] at hmeaning
  exact hfield hmeaning.1

/-! ## Names -/

/-- The signs and blanks of the patterns that are tried before names. -/
def Pattern.signs : List Char := ['\'', '"', '=', '<', '>', '!', ' ']

/-- No pattern before names fits the front of a text without signs, unless a reserved word stands
there. -/
theorem not_form_of_not_beginsReserved (hsigns : ∀ c ∈ Pattern.signs, c ∉ x)
    (hreserved : ¬ BeginsReserved x)
    (hq : q ∈ [Pattern.subQuery, .singleQuoted, .doubleQuoted, .operator, .keyword])
    (hy : y <+: x) : ¬ q.Form grammar y := by
  intro hform
  have hword : ∀ r ∈ Kind.reserved, Text.fold y ≠ r.2 := by
    intro r hr hfold
    exact hreserved ⟨r, hr, hfold ▸ hy.map Char.toLower⟩
  simp only [List.mem_cons, List.not_mem_nil, or_false] at hq
  rcases hq with rfl | rfl | rfl | rfl | rfl
  · obtain ⟨word, body, rfl, -⟩ : SubQuery.IsQuery y := hform
    exact hsigns '"' (by decide) (hy.mem (by simp [SubQuery.closing_eq]))
  · obtain ⟨body, -, rfl⟩ := Regex.matches_quoted_iff.mp hform
    exact hsigns '\'' (by decide) (hy.mem List.mem_cons_self)
  · obtain ⟨body, -, rfl⟩ := Regex.matches_quoted_iff.mp hform
    exact hsigns '"' (by decide) (hy.mem List.mem_cons_self)
  · obtain ⟨k, hk, hfold⟩ := Pattern.form_operator_iff.mp hform
    -- Every operator but one has a sign or a blank in it.
    have hall : ∀ k ∈ Pattern.operators, (∃ r ∈ Kind.reserved, Text.fold k.spelling = r.2) ∨
        k.spelling.any Pattern.signs.contains = true := by decide
    rcases hall k hk with ⟨r, hr, hspelling⟩ | hany
    · exact hword r hr (hfold.trans hspelling)
    · obtain ⟨c, hmem, hc⟩ := List.any_eq_true.mp hany
      rw [List.contains_iff_mem] at hc
      have hplain : Pattern.signs.any Char.isAlpha = false := by decide
      have hmem' := Text.mem_of_fold_eq (Bool.eq_false_iff.mpr (List.any_eq_false.mp hplain c hc))
        hfold hmem
      exact hsigns c hc (hy.mem hmem')
  · obtain ⟨k, hk, hfold⟩ := Pattern.form_keyword_iff.mp hform
    have hall : ∀ k ∈ [Kind.null, .empty], ∃ r ∈ Kind.reserved, Text.fold k.spelling = r.2 := by
      decide
    obtain ⟨r, hr, hspelling⟩ := hall k hk
    exact hword r hr (hfold.trans hspelling)

theorem leads_of_relation (h : Regex.relation.Matches x) (hreserved : ¬ BeginsReserved x) :
    Leads grammar (some .relation) x [] := by
  have huses : Pattern.signs.any Regex.relation.uses = false := by decide
  have hsigns : ∀ c ∈ Pattern.signs, c ∉ x := fun c hc =>
    Regex.not_mem_of_matches h (Bool.eq_false_iff.mpr (List.any_eq_false.mp huses c hc))
  have horder : Pattern.order = [.subQuery, .singleQuoted, .doubleQuoted, .operator, .keyword]
    ++ .relation :: [.field, .number, .parenthesis] := rfl
  exact .of_form horder
    (fun q hq y hy => not_form_of_not_beginsReserved hsigns hreserved hq hy) h

theorem leads_of_path (h : Regex.path.Matches x) (hreserved : ¬ BeginsReserved x) :
    Leads grammar (some .field) x [] := by
  have huses : Pattern.signs.any Regex.path.uses = false := by decide
  have hsigns : ∀ c ∈ Pattern.signs, c ∉ x := fun c hc =>
    Regex.not_mem_of_matches h (Bool.eq_false_iff.mpr (List.any_eq_false.mp huses c hc))
  have horder : Pattern.order = [.subQuery, .singleQuoted, .doubleQuoted, .operator, .keyword,
    .relation] ++ .field :: [.number, .parenthesis] := rfl
  refine .of_form horder (fun q hq y hy => ?_) h
  by_cases hrelation : q = .relation
  · subst hrelation
    exact fun hform => Regex.not_mem_of_matches h (by decide) (hy.mem (mem_of_relation hform))
  · exact not_form_of_not_beginsReserved hsigns hreserved (by simpa [hrelation] using hq) hy

theorem not_isBlank_head_of_relation (h : Regex.relation.Matches x) :
    ∀ c ∈ x.head?, isBlank c = false := by
  rw [Regex.relation, Regex.matches_seq_iff] at h
  obtain ⟨source, tail, hsource, -, rfl⟩ := h
  obtain ⟨c, rest, rfl, hc⟩ := exists_isNameStart_of_path hsource
  rintro d ⟨⟩
  exact not_isBlank_of_isNameStart hc

theorem not_isBlank_head_of_path (h : Regex.path.Matches x) :
    ∀ c ∈ x.head?, isBlank c = false := by
  obtain ⟨c, rest, rfl, hc⟩ := exists_isNameStart_of_path h
  rintro d ⟨⟩
  exact not_isBlank_of_isNameStart hc

/-- A path that begins with no reserved word is one token, and a field unless it is an `and` or an
`or`. -/
theorem tokenize_of_path (config : Config) (h : Regex.path.Matches x)
    (hreserved : ¬ BeginsReserved x) (hand : Text.fold x ≠ "and".toList)
    (hor : Text.fold x ≠ "or".toList) :
    tokenize config x = [{ kind := .field, value := x, raw := x, span := ⟨0, Text.size x⟩ }] := by
  have hleads : Leads config.numeric (some .field) x [] := leads_of_path h hreserved
  rw [tokenize_of_leads_nil (not_isBlank_head_of_path h) hleads,
    meaning_of_path config.numeric h (hleads.ofSpelling?_of_field hand hor)]

/-- A path through a relation that begins with no reserved word is one token. -/
theorem tokenize_of_relation (config : Config) (h : Regex.relation.Matches x)
    (hreserved : ¬ BeginsReserved x) :
    tokenize config x
      = [{ kind := .relation, value := x, raw := x, span := ⟨0, Text.size x⟩ }] := by
  rw [tokenize_of_leads_nil (not_isBlank_head_of_relation h) (leads_of_relation h hreserved),
    meaning_of_relation h]

/-- A path through a relation is one token exactly if it begins with no reserved word, and a plain
path is one token that is a field exactly if it moreover is no `and` and no `or`. Any text that
begins with a reserved word has that word as its first token, and the rest is read by itself. So no
name among the tokens of a query begins with one. -/
theorem tokenize_names (config : Config) :
    (∀ f, Regex.path.Matches f →
      (tokenize config f
          = [{ kind := .field, value := f, raw := f, span := ⟨0, Text.size f⟩ }] ↔
        ¬ BeginsReserved f ∧ Text.fold f ≠ "and".toList ∧ Text.fold f ≠ "or".toList)) ∧
    (∀ r, Regex.relation.Matches r →
      (tokenize config r
          = [{ kind := .relation, value := r, raw := r, span := ⟨0, Text.size r⟩ }] ↔
        ¬ BeginsReserved r)) ∧
    (∀ x, BeginsReserved x → ∃ k word rest, x = word ++ rest ∧
      (k, Text.fold word) ∈ Kind.reserved ∧
      tokenize config x = { kind := k, value := word, raw := word, span := ⟨0, Text.size word⟩ } ::
        (tokenize config rest).map (Token.shift (Text.size word))) ∧
    ∀ query, ∀ t ∈ tokenize config query, t.kind = .field ∨ t.kind = .relation →
      ¬ BeginsReserved t.raw := by
  have halone : ∀ {x : Text} {t : Token}, tokenize config x = [t] → t ∈ tokenize config x :=
    fun h => h ▸ List.mem_singleton_self _
  refine ⟨fun f hf => ⟨fun h => ⟨?_, ?_, ?_⟩, ?_⟩, fun r hr => ⟨fun h => ?_, ?_⟩, fun x hx => ?_,
    fun query t => not_beginsReserved_of_mem⟩
  · exact not_beginsReserved_of_mem (halone h) (Or.inl rfl)
  · exact not_spells_of_field (k := .and) (halone h) rfl (by decide) (by decide)
  · exact not_spells_of_field (k := .or) (halone h) rfl (by decide) (by decide)
  · rintro ⟨hreserved, hand, hor⟩
    exact tokenize_of_path config hf hreserved hand hor
  · exact not_beginsReserved_of_mem (halone h) (Or.inr rfl)
  · exact tokenize_of_relation config hr
  · obtain ⟨k, word, rest, rfl, hk⟩ := beginsReserved_iff.mp hx
    exact ⟨k, word, rest, rfl, hk, tokenize_of_reserved config hk rest⟩

/-- A name with a reserved word inside, a path through a relation whose first name is an `and`, and
a name that falls apart. -/
theorem tokenize_names_of_words_within :
    tokenize {} "dislikes.null".toList =
      [{ kind := .field, value := "dislikes.null".toList,
         raw := "dislikes.null".toList, span := ⟨0, 13⟩ }] ∧
    tokenize {} "And:a.b".toList =
      [{ kind := .relation, value := "And:a.b".toList,
         raw := "And:a.b".toList, span := ⟨0, 7⟩ }] ∧
    ¬ tokenize {} "NullAble.x".toList =
      [{ kind := .field, value := "NullAble.x".toList,
         raw := "NullAble.x".toList, span := ⟨0, 10⟩ }] := by
  have hreserved : ∀ x, Kind.reserved.any (fun r => r.2.isPrefixOf (Text.fold x)) = false →
      ¬ BeginsReserved x := by
    rintro x hnone ⟨r, hr, hpre⟩
    exact List.any_eq_false.mp hnone r hr (List.isPrefixOf_iff_prefix.mpr hpre)
  obtain ⟨hpath, hrelation, -, -⟩ := tokenize_names {}
  refine ⟨(hpath _ (isPath_iff.mp (by decide))).mpr ⟨hreserved _ (by decide), by decide, by decide⟩,
    (hrelation _ (isRelation_iff.mp (by decide))).mpr (hreserved _ (by decide)), fun h => ?_⟩
  exact ((hpath _ (isPath_iff.mp (by decide))).mp h).1
    ⟨(.null, "null".toList), by decide, by decide⟩

end FilterQuery
