import FilterQuery.Proofs.Meaning.Lexemes
import FilterQuery.Proofs.Scan.Run

/-!
# Text added behind a query

When text that starts with a quote mark is added behind a query, only two kinds of lexemes could run
on into it: a quoted text that is not closed, or whose closing mark is doubled by the first one
added, and a full-text query that is begun but not ended. This file says what excludes both
(`Leads.not_form_append`), and concludes that the lexemes of the query stay (`Scans.append`).
-/

namespace FilterQuery

variable {grammar : NumberGrammar} {p : Option Pattern} {raw rest e : Text}

namespace Leads

/-! ## Quoted texts -/

/-- A lexeme that starts with a mark, but is not just the mark, is the longest text quoted with
it. -/
theorem quoted_of_mark {mark : Char} (hmark : IsMark mark) (h : Leads grammar p raw rest)
    (hhead : mark ∈ raw.head?) (hraw : raw ≠ [mark]) :
    (Regex.quoted mark).Matches raw ∧
      ∀ x, x <+: raw ++ rest → (Regex.quoted mark).Matches x → x.length ≤ raw.length := by
  obtain ⟨tail, rfl⟩ := List.head?_eq_some_iff.mp hhead
  cases h with
  | found _ _ hform hlongest =>
    obtain rfl := Pattern.eq_ofMark_of_form hmark hform
    simp only [Pattern.form_ofMark hmark] at hform hlongest
    exact ⟨hform, hlongest⟩
  | alone _ => exact absurd rfl hraw

/-- Two quoted texts in a row would be one. So a lexeme that starts with the mark right behind a
text quoted with it is the mark alone. -/
theorem raw_eq_of_mark_behind {mark : Char} (hmark : IsMark mark) {p' : Option Pattern}
    {raw' rest' : Text} (h : Leads grammar p raw rest) (hhead : mark ∈ raw.head?)
    (hraw : raw ≠ [mark]) (h' : Leads grammar p' raw' rest') (hrest : rest = raw' ++ rest')
    (hhead' : mark ∈ raw'.head?) : raw' = [mark] := by
  by_contra hraw'
  obtain ⟨hquoted, hlongest⟩ := h.quoted_of_mark hmark hhead hraw
  obtain ⟨hquoted', -⟩ := h'.quoted_of_mark hmark hhead' hraw'
  have hle := hlongest (raw ++ raw')
    (by rw [hrest, ← List.append_assoc]; exact List.prefix_append _ _)
    (Regex.matches_quoted_append hquoted hquoted')
  have hpos := List.length_pos_iff.mpr h'.ne_nil
  rw [List.length_append] at hle
  omega

/-- No quoted text that starts with the lexeme goes on behind the text that is left. If it did, it
would go on right behind the lexeme: with the next lexeme, which would then be a part of this one,
or with a mark that is added to a closing mark. -/
theorem not_matches_quoted_append {mark : Char} (hmark : IsMark mark) {offset : Nat}
    {ls : List Lexeme} (h : Leads grammar p raw rest) (hscans : Scans grammar offset rest ls)
    (hraw : raw ≠ [mark]) (hls : ∀ l ∈ ls, l.raw ≠ [mark])
    (hend : mark ∈ e.head? → ¬ [mark] <:+ raw ++ rest) (he : e ≠ []) :
    ¬ (Regex.quoted mark).Matches (raw ++ rest ++ e) := by
  intro hlong
  have hhead : mark ∈ raw.head? := by
    obtain ⟨body, -, heq⟩ := Regex.matches_quoted_iff.mp hlong
    rw [List.append_assoc] at heq
    exact h.mem_head? heq
  obtain ⟨hquoted, -⟩ := h.quoted_of_mark hmark hhead hraw
  rw [List.append_assoc] at hlong
  have hnext := Regex.head_of_matches_quoted_append hquoted hlong
  cases rest with
  | nil =>
    -- The mark is the first character added, and the lexeme ends in it too.
    obtain ⟨c, e, rfl⟩ := List.exists_cons_of_ne_nil he
    have hc : c = mark := hnext c rfl
    subst hc
    obtain ⟨body, -, rfl⟩ := Regex.matches_quoted_iff.mp hquoted
    refine hend rfl ?_
    rw [List.append_nil]
    exact List.suffix_append (c :: body) [c]
  | cons c rest =>
    -- The next lexeme starts with the same mark, so it would be that mark alone.
    have hc : c = mark := hnext c rfl
    subst hc
    obtain ⟨p', raw', rest', ls', hrest, hleads, rfl⟩ :=
      hscans.exists_leads_of_cons hmark.not_isBlank
    have hmem : c ∈ raw'.head? := hleads.mem_head? hrest.symm
    exact hls _ List.mem_cons_self (h.raw_eq_of_mark_behind hmark hhead hraw hleads hrest hmem)

end Leads

/-! ## Full-text queries -/

/-- The word that a full-text query starts with. -/
def SubQuery.openingWord : Text := "query".toList

section Word

open SubQuery

variable {name : Text}

theorem isAlpha_of_fold_eq_openingWord (h : Text.fold name = openingWord) :
    ∀ c ∈ name, c.isAlpha = true := by
  intro c hc
  have hmem : c.toLower ∈ openingWord := h ▸ List.mem_map_of_mem hc
  have hletters : openingWord.all Char.isAlpha = true := by decide
  rw [← Text.isAlpha_toLower]
  exact List.all_eq_true.mp hletters _ hmem

theorem path_of_fold_eq_openingWord (h : Text.fold name = openingWord) :
    Regex.path.Matches name := by
  refine path_of_isAlpha ?_ (isAlpha_of_fold_eq_openingWord h)
  rintro rfl
  exact absurd h (by decide)

/-- The word is a field when it is read by itself. -/
theorem meaning_of_fold_eq_openingWord (grammar : NumberGrammar)
    (h : Text.fold name = openingWord) : meaning grammar name = (.field, name) := by
  refine meaning_of_path grammar (path_of_fold_eq_openingWord h) ?_
  rw [Kind.ofSpelling?, h]
  decide

/-- No literal, operator or keyword starts as the word does. -/
theorem not_starts_of_toLower_eq {q : Pattern} {r : Regex} {c : Char} (hc : c.toLower = 'q')
    (hq : q ∈ [Pattern.singleQuoted, .doubleQuoted, .operator, .keyword])
    (hr : q.expression? grammar = some r) : r.starts c = false := by
  have hspelling : c = 'q' ∨ c = 'Q' := by
    rcases Text.eq_or_toNat_of_toLower_eq hc with hc | hc
    · exact Or.inl hc
    · exact Or.inr (Char.toNat_inj.mp (Nat.add_right_cancel hc))
  simp only [List.mem_cons, List.not_mem_nil, or_false] at hq
  rcases hq with rfl | rfl | rfl | rfl <;> cases hr <;> rcases hspelling with rfl | rfl <;> decide

theorem not_form_of_toLower_eq {q : Pattern} {c : Char} {x tail : Text} (hc : c.toLower = 'q')
    (hq : q ∈ [Pattern.singleQuoted, .doubleQuoted, .operator, .keyword]) (hx : x <+: c :: tail) :
    ¬ q.Form grammar x := by
  intro hform
  obtain ⟨x, rfl⟩ := hform.exists_cons_of_prefix hx
  cases hr : q.expression? grammar with
  | none =>
    rw [Pattern.eq_subQuery_of_expression? hr] at hq
    exact absurd hq (by decide)
  | some r =>
    have hstarts := Regex.starts_of_matches ((Pattern.form_of_expression? hr _).mp hform) rfl
    rw [not_starts_of_toLower_eq hc hq hr] at hstarts
    simp at hstarts

/-- A relation has no parenthesis, so one that starts with the word would lie within it. -/
theorem not_relation_of_fold_eq_openingWord {x tail : Text} (h : Text.fold name = openingWord)
    (hx : x <+: name ++ '(' :: tail) : ¬ Regex.relation.Matches x := by
  intro hmatches
  have hparen : '(' ∉ x := Regex.not_mem_of_matches hmatches (by decide)
  have hcolon := (Text.isPrefix_of_not_mem hx hparen).mem (mem_of_relation hmatches)
  exact absurd (isAlpha_of_fold_eq_openingWord h _ hcolon) (by decide)

/-- Where the word is followed by a parenthesis, but starts no full-text query, it is a lexeme. -/
theorem leads_of_fold_eq_openingWord {tail : Text} (h : Text.fold name = openingWord)
    (hno : ∀ x, x <+: name ++ '(' :: tail → ¬ IsQuery x) :
    Leads grammar (some .field) name ('(' :: tail) := by
  have hpath := path_of_fold_eq_openingWord h
  have horder : Pattern.order = [.subQuery, .singleQuoted, .doubleQuoted, .operator, .keyword,
    .relation] ++ .field :: [.number, .parenthesis] := rfl
  refine .found horder ?_ hpath ?_
  · intro q hq x hx
    by_cases hsub : q = .subQuery
    · subst hsub
      exact hno x hx
    by_cases hrelation : q = .relation
    · subst hrelation
      exact not_relation_of_fold_eq_openingWord h hx
    cases name with
    | nil => exact absurd h (by decide)
    | cons c name =>
      exact not_form_of_toLower_eq (List.cons.inj h).1 (by simpa [hsub, hrelation] using hq) hx
  · intro x hx hmatches
    exact (Text.isPrefix_of_not_mem hx (Regex.not_mem_of_matches hmatches (by decide))).length_le

/-- The opening is the word, a parenthesis and a mark. -/
theorem exists_of_fold_eq_opening {word : Text} (h : Text.fold word = Text.fold opening) :
    ∃ name, word = name ++ ['(', '"'] ∧ Text.fold name = openingWord := by
  have hopening : Text.fold opening = openingWord ++ ['(', '"'] := by decide
  rw [hopening, Text.fold, List.map_eq_append_iff] at h
  obtain ⟨name, signs, rfl, hname, hsigns⟩ := h
  have hplain : signs = ['(', '"'] := Text.eq_of_fold_eq (by decide) hsigns
  exact ⟨name, by rw [hplain], hname⟩

/-- A part of the opening that goes up to a mark goes up to its last character. -/
theorem fold_eq_of_append_mark {mark : Char} (hmark : IsMark mark) {x u : Text}
    (h : Text.fold (x ++ mark :: u) = Text.fold opening) :
    mark = '"' ∧ Text.fold x = openingWord ++ ['('] := by
  have hopening : Text.fold opening = (openingWord ++ ['(']) ++ ['"'] := by decide
  have hlower : mark.toLower = mark := by
    rcases hmark with rfl | rfl
    · rfl
    · rfl
  have hno : mark ∉ openingWord ++ ['('] := by
    rcases hmark with rfl | rfl
    · decide
    · decide
  rw [hopening, Text.fold_append, Text.fold, Text.fold, List.map_cons, hlower,
    List.append_eq_append_iff] at h
  rcases h with ⟨between, hx, hbetween⟩ | ⟨between, hx, hbetween⟩
  · cases between with
    | nil =>
      rw [List.nil_append, List.cons.injEq] at hbetween
      rw [List.append_nil] at hx
      exact ⟨hbetween.1, hx.symm⟩
    | cons c between =>
      rw [List.cons_append, List.cons.injEq] at hbetween
      rw [hx, hbetween.1] at hno
      simp at hno
  · cases between with
    | nil =>
      rw [List.nil_append, List.cons.injEq] at hbetween
      rw [List.append_nil] at hx
      exact ⟨hbetween.1.symm, hx⟩
    | cons c between => simp at hbetween

end Word

namespace Leads

/-- No full-text query that starts with the lexeme ends behind the text that is left, if that text
neither has the opening of one right here nor ends in the opening up to the mark. -/
theorem not_isQuery_append {mark : Char} (hmark : IsMark mark) (h : Leads grammar p raw rest)
    (hfield : Text.fold raw = SubQuery.openingWord → ¬ ['(', '"'] <+: rest)
    (hopen : mark = '"' → Text.fold (raw ++ rest) ≠ SubQuery.openingWord ++ ['(']) :
    ¬ SubQuery.IsQuery (raw ++ rest ++ mark :: e) := by
  intro hlong
  by_cases hshort : ∃ x, x <+: raw ++ rest ∧ SubQuery.IsQuery x
  · -- It would be the same query as the longer one.
    obtain ⟨x, hx, hquery⟩ := hshort
    have heq := hquery.eq_of_prefix hlong (hx.trans (List.prefix_append _ _)) List.prefix_rfl
    have hle := hx.length_le
    rw [heq, List.length_append, List.length_cons] at hle
    omega
  · have hno : ∀ x, x <+: raw ++ rest → ¬ SubQuery.IsQuery x := fun x hx hquery =>
      hshort ⟨x, hx, hquery⟩
    obtain ⟨word, body, heq, hword, -⟩ := hlong
    have hbegins : word <+: raw ++ rest ++ mark :: e := by
      rw [heq, List.append_assoc]
      exact List.prefix_append word _
    by_cases hwithin : word <+: raw ++ rest
    · -- The opening stands here, and the lexeme is its word, followed by a parenthesis and a mark.
      obtain ⟨tail, ht⟩ := hwithin
      obtain ⟨name, rfl, hname⟩ := exists_of_fold_eq_opening hword
      rw [List.append_assoc, List.cons_append] at ht
      obtain ⟨-, rfl, rfl⟩ := h.unique (leads_of_fold_eq_openingWord hname (ht ▸ hno)) ht.symm
      exact hfield hname ⟨tail, rfl⟩
    · rcases Text.prefix_append_cases hbegins with hle | ⟨d, u, hpre, rfl⟩
      · exact hwithin hle
      · -- The text that is left is the opening up to the mark that is added.
        rw [(List.cons_prefix_cons.mp hpre).1] at hword
        obtain ⟨hdouble, hfold⟩ := fold_eq_of_append_mark hmark hword
        exact hopen hdouble hfold

/-- No lexeme of any form goes on from the front of the text that is left into text that starts with
a mark. -/
theorem not_form_append {mark : Char} (hmark : IsMark mark) {offset : Nat} {ls : List Lexeme}
    (h : Leads grammar p raw rest) (hscans : Scans grammar offset rest ls)
    (hraw : ∀ m, IsMark m → raw ≠ [m]) (hls : ∀ l ∈ ls, ∀ m, IsMark m → l.raw ≠ [m])
    (hend : ¬ [mark] <:+ raw ++ rest)
    (hfield : Text.fold raw = SubQuery.openingWord → ¬ ['(', '"'] <+: rest)
    (hopen : mark = '"' → Text.fold (raw ++ rest) ≠ SubQuery.openingWord ++ ['('])
    (q : Pattern) : ¬ q.Form grammar (raw ++ rest ++ mark :: e) := by
  have hquoted : ∀ m, IsMark m → ¬ (Pattern.ofMark m).Form grammar (raw ++ rest ++ mark :: e) := by
    intro m hm hform
    rw [Pattern.form_ofMark hm] at hform
    refine h.not_matches_quoted_append hm hscans (hraw m hm) (fun l hl => hls l hl m hm) ?_
      (List.cons_ne_nil mark e) hform
    intro hmem
    rw [List.head?_cons, Option.mem_some_iff] at hmem
    rw [← hmem]
    exact hend
  intro hform
  by_cases hsingle : q = .singleQuoted
  · subst hsingle
    exact hquoted '\'' (Or.inl rfl) hform
  by_cases hdouble : q = .doubleQuoted
  · subst hdouble
    exact hquoted '"' (Or.inr rfl) hform
  cases hr : q.expression? grammar with
  | none =>
    obtain rfl := Pattern.eq_subQuery_of_expression? hr
    exact h.not_isQuery_append hmark hfield hopen hform
  | some r =>
    have hmatches := (Pattern.form_of_expression? hr _).mp hform
    have huses := Regex.uses_of_matches hmatches mark (by simp)
    rw [Pattern.not_uses_mark hr hmark hsingle hdouble] at huses
    simp at huses

end Leads

/-! ## Scans -/

/-- The lexemes of a text stay when text that starts with a mark is added behind it, if no mark is
left open, the text does not end in that mark, and it neither holds nor ends in the opening of a
full-text query that is not ended. -/
theorem Scans.append {mark : Char} (hmark : IsMark mark) {pre ext : Text} {ls' : List Lexeme}
    (hend : ¬ [mark] <:+ pre)
    (hopen : mark = '"' → ∀ x, x <:+ pre → Text.fold x ≠ SubQuery.openingWord ++ ['('])
    (hext : Scans grammar (Text.size pre) (mark :: ext) ls') {offset : Nat} {t : Text}
    {ls : List Lexeme} (h : Scans grammar offset t ls) : ∀ {before : Text}, pre = before ++ t →
      Text.size before = offset → (∀ l ∈ ls, ∀ m, IsMark m → l.raw ≠ [m]) →
      (∀ l ∈ ls, Text.fold l.raw = SubQuery.openingWord →
        pre.slice? l.span.stop (l.span.stop + 2) ≠ some ['(', '"']) →
      Scans grammar offset (t ++ mark :: ext) (ls ++ ls') := by
  induction h with
  | @done offset t hblank =>
    intro before hpre hsize _ _
    rw [hpre, Text.size_append, hsize] at hext
    exact hext.blanks_append hblank
  | @lexeme offset gap raw rest p ls hgap hhead hleads hrest ih =>
    intro before hpre hsize hmarks hfields
    obtain ⟨hbehind, hplace⟩ := Text.place_behind hpre hsize
    have hsuffix : raw ++ rest <:+ pre := ⟨before ++ gap, by rw [hbehind]; simp⟩
    rw [List.forall_mem_cons] at hmarks hfields
    have hfield : Text.fold raw = SubQuery.openingWord → ¬ ['(', '"'] <+: rest := by
      rintro hfold ⟨tail, htail⟩
      refine hfields.1 hfold
        (Text.slice?_eq_some_iff.mpr ⟨before ++ gap ++ raw, tail, ?_, hplace, ?_⟩)
      · rw [hbehind, ← htail]
        simp only [List.append_assoc]
      · rw [hplace]
        rfl
    rw [List.append_assoc, List.cons_append]
    -- Nothing from this lexeme on reaches into what is added, since that starts with the mark.
    refine lexeme hgap hhead (hleads.append ?_)
      (ih hbehind hplace hmarks.2 hfields.2)
    rintro q e he ⟨u, hu⟩
    obtain ⟨c, e, rfl⟩ := List.exists_cons_of_ne_nil he
    rw [List.cons_append, List.cons.injEq] at hu
    rw [hu.1]
    exact hleads.not_form_append hmark hrest hmarks.1 hmarks.2
      (fun hlast => hend (hlast.trans hsuffix)) hfield
      (fun hdouble => hopen hdouble (raw ++ rest) hsuffix) q

end FilterQuery
