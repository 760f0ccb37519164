import FilterQuery.Proofs.Scan.Extend

/-!
# Line breaks keep texts apart

Blanks with a newline among them separate any two texts, as far as both can be read alone
(`tokenize_line_break`). Nothing but a quoted text can reach across them: the other lexemes hold no
newline, and they do not end in a blank either, so they stop before the first blank of the break
(`Pattern.not_form_across`). A quoted text reaches across only from a mark that is left open.
-/

namespace FilterQuery

variable {grammar : NumberGrammar} {p : Option Pattern} {raw rest w e after : Text}

/-- Blanks with a newline among them. -/
structure IsLineBreak (w : Text) : Prop where
  blank : ∀ c ∈ w, isBlank c = true
  newline : '\n' ∈ w

/-- What starts with a line break starts with a blank. -/
theorem IsLineBreak.isBlank_head (hw : IsLineBreak w) (he : e <+: w ++ after) :
    ∀ c ∈ e.head?, isBlank c = true := by
  intro c hc
  obtain ⟨e, rfl⟩ := List.head?_eq_some_iff.mp hc
  cases w with
  | nil => exact absurd hw.newline List.not_mem_nil
  | cons d w =>
    rw [(List.cons_prefix_cons.mp he).1]
    exact hw.blank d List.mem_cons_self

/-! ## Lexemes and blanks -/

theorem SubQuery.IsQuery.newline_not_mem {x : Text} (h : IsQuery x) : '\n' ∉ x := by
  obtain ⟨word, body, rfl, hword, hbody, -⟩ := h
  rw [List.mem_append, List.mem_append, not_or, not_or]
  refine ⟨⟨?_, hbody⟩, by decide⟩
  intro hmem
  have hfold : '\n'.toLower ∈ Text.fold word := List.mem_map_of_mem hmem
  rw [hword] at hfold
  exact absurd hfold (by decide)

namespace Pattern

/-- Only quoted texts hold newlines. -/
theorem newline_not_mem {q : Pattern} {x : Text} (h : q.Form grammar x) (hsingle : q ≠ singleQuoted)
    (hdouble : q ≠ doubleQuoted) : '\n' ∉ x := by
  cases hr : q.expression? grammar with
  | none =>
    obtain rfl := eq_subQuery_of_expression? hr
    exact SubQuery.IsQuery.newline_not_mem h
  | some r =>
    refine Regex.not_mem_of_matches ((form_of_expression? hr x).mp h) ?_
    cases q with
    | subQuery => simp [expression?] at hr
    | singleQuoted => exact absurd rfl hsingle
    | doubleQuoted => exact absurd rfl hdouble
    | number => cases hr; cases grammar <;> decide
    | _ => cases hr; decide

/-- No lexeme ends in blanks. -/
theorem not_form_append_blank {q : Pattern} {x : Text} (he : e ≠ [])
    (hblank : ∀ c ∈ e, isBlank c = true) : ¬ q.Form grammar (x ++ e) := by
  intro hform
  have hlast := hform.not_isBlank_last (e.getLast he)
    (by rw [List.getLast?_append_of_ne_nil x he, List.getLast?_eq_some_getLast he]; rfl)
  rw [hblank _ (List.getLast_mem he)] at hlast
  simp at hlast

/-- No lexeme goes on into a line break and what follows it, but for quoted texts. -/
theorem not_form_across (hw : IsLineBreak w) {q : Pattern} (hsingle : q ≠ singleQuoted)
    (hdouble : q ≠ doubleQuoted) {x : Text} (he : e ≠ []) (hpre : e <+: w ++ after) :
    ¬ q.Form grammar (x ++ e) := by
  rcases List.prefix_or_prefix_of_prefix hpre (List.prefix_append w after) with hle | hge
  · exact not_form_append_blank he fun c hc => hw.blank c (hle.mem hc)
  · intro hform
    exact newline_not_mem hform hsingle hdouble
      (List.mem_append_right x (hge.mem hw.newline))

end Pattern

/-! ## Scans -/

/-- A lexeme stays when a line break and further text are added behind the text that is left, if no
quoted text goes on into what is added. -/
theorem Leads.append_break (hw : IsLineBreak w) (h : Leads grammar p raw rest)
    (hquoted : ∀ m, IsMark m → ∀ e, e ≠ [] → e <+: w ++ after →
      ¬ (Regex.quoted m).Matches (raw ++ rest ++ e)) :
    Leads grammar p raw (rest ++ (w ++ after)) := by
  refine h.append fun q e he hpre => ?_
  have hno : ∀ m, IsMark m → ¬ (Pattern.ofMark m).Form grammar (raw ++ rest ++ e) := by
    intro m hm
    rw [Pattern.form_ofMark hm]
    exact hquoted m hm e he hpre
  by_cases hsingle : q = .singleQuoted
  · rw [hsingle]
    exact hno '\'' (Or.inl rfl)
  by_cases hdouble : q = .doubleQuoted
  · rw [hdouble]
    exact hno '"' (Or.inr rfl)
  exact Pattern.not_form_across hw hsingle hdouble he hpre

/-- No quoted text goes on into a line break, if no mark is left open before it. -/
theorem Leads.not_matches_quoted_break (hw : IsLineBreak w) {offset : Nat} {ls : List Lexeme}
    (h : Leads grammar p raw rest) (hscans : Scans grammar offset rest ls) {m : Char}
    (hm : IsMark m) (hraw : raw ≠ [m]) (hls : ∀ l ∈ ls, l.raw ≠ [m]) (he : e ≠ [])
    (hpre : e <+: w ++ after) : ¬ (Regex.quoted m).Matches (raw ++ rest ++ e) := by
  refine h.not_matches_quoted_append hm hscans hraw hls ?_ he
  -- What is added starts with a blank, so no mark is added to a closing mark.
  intro hmem
  have hblank := hw.isBlank_head hpre m hmem
  rw [hm.not_isBlank] at hblank
  simp at hblank

/-- The lexemes of a text in which no mark is left open stay when a line break and further text are
added behind it. -/
theorem Scans.append_line_break (hw : IsLineBreak w) {offset : Nat} {t : Text}
    {ls ls' : List Lexeme} (h : Scans grammar offset t ls)
    (hmarks : ∀ l ∈ ls, ∀ m, IsMark m → l.raw ≠ [m])
    (hafter : Scans grammar (offset + Text.size (t ++ w)) after ls') :
    Scans grammar offset (t ++ (w ++ after)) (ls ++ ls') := by
  induction h with
  | @done offset t hblank =>
    rw [← List.append_assoc]
    exact hafter.blanks_append (List.forall_mem_append.mpr ⟨hblank, hw.blank⟩)
  | @lexeme offset gap raw rest p ls hgap hhead hleads hrest ih =>
    rw [List.forall_mem_cons] at hmarks
    have hplace : offset + Text.size (gap ++ raw ++ rest ++ w)
        = offset + Text.size gap + Text.size raw + Text.size (rest ++ w) := by
      simp only [Text.size_append]
      omega
    rw [hplace] at hafter
    rw [List.append_assoc (gap ++ raw)]
    refine lexeme hgap hhead (hleads.append_break hw fun m hm e he hpre => ?_)
      (ih hmarks.2 hafter)
    exact hleads.not_matches_quoted_break hw hrest hm (hmarks.1 m hm)
      (fun l hl => hmarks.2 l hl m hm) he hpre

/-- If no token is an unrecognised mark, no lexeme is a mark. -/
theorem raw_ne_mark_of_tokenize {config : Config} {query : Text}
    (h : ∀ t ∈ tokenize config query, t.kind = .unrecognized → t.raw ≠ ['\''] ∧ t.raw ≠ ['"']) :
    ∀ l ∈ lexemes config query, ∀ m, IsMark m → l.raw ≠ [m] := by
  intro l hl m hm hraw
  have hkind : (l.token config.numeric).kind = .unrecognized := by
    rw [Lexeme.token, hraw, meaning_mark config.numeric hm]
  have hne := h _ (List.mem_map_of_mem hl) hkind
  rcases hm with rfl | rfl
  · exact hne.1 hraw
  · exact hne.2 hraw

/-- Two texts with a line break between them have the tokens of the first and then those of the
second, if the first leaves no mark open. -/
theorem tokenize_line_break (config : Config) (a w b : Text)
    (hblank : ∀ c ∈ w, isBlank c = true) (hnewline : '\n' ∈ w)
    (hopen : ∀ t ∈ tokenize config a, t.kind = .unrecognized → t.raw ≠ ['\''] ∧ t.raw ≠ ['"']) :
    tokenize config (a ++ w ++ b)
      = tokenize config a ++ (tokenize config b).map (Token.shift (Text.size (a ++ w))) := by
  have hbehind := (Scans.lexemes config b).shift (Text.size (a ++ w))
  have hscans := (Scans.lexemes config a).append_line_break ⟨hblank, hnewline⟩
    (raw_ne_mark_of_tokenize hopen) hbehind
  rw [tokenize, List.append_assoc,
    ← hscans.unique (Scans.lexemes config (a ++ (w ++ b))), List.map_append,
    Lexeme.map_token_map_shift]
  rfl

/-- The opening of a full-text query and a word of an operator, with what would end them behind the
break, and a literal on two lines before it. -/
theorem tokenize_line_break_of_openings :
    tokenize {} ("query(\"x\" 'a\nb' not".toList ++ " \n".toList ++ "like \") z".toList)
      = tokenize {} "query(\"x\" 'a\nb' not".toList ++
        (tokenize {} "like \") z".toList).map (Token.shift 21) :=
  tokenize_line_break {} "query(\"x\" 'a\nb' not".toList " \n".toList "like \") z".toList
    (List.all_eq_true.mp (by decide)) (by decide) (by decide)

end FilterQuery
