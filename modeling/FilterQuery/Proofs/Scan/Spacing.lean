import FilterQuery.Proofs.Scan.LineBreak

/-!
# Tokens may be moved apart

The characters of the tokens of a query, put in a row with a line break between any two of them,
have the same tokens again (`tokenize_spaced`). A token stays when what follows it is replaced by a
line break and the next tokens (`Leads.spaced`). The one that needs care is a mark that is left
open: it stays open because it does not occur behind itself (`Leads.mark_not_mem`), so none of the
later tokens can close it.
-/

namespace FilterQuery

variable {grammar : NumberGrammar} {p : Option Pattern} {raw rest w tail : Text} {mark : Char}

/-! ## Marks that are left open -/

theorem Paired.of_not_mem : ∀ {t : Text}, mark ∉ t → Paired mark t
  | [], _ => .nil
  | c :: t, h => by
    rw [List.mem_cons, not_or] at h
    exact .other (Ne.symm h.1) (of_not_mem h.2)

/-- Any two occurrences of a mark enclose a quoted text if none is between them. -/
theorem Regex.matches_quoted_of_not_mem {body : Text} (h : mark ∉ body) :
    Matches (quoted mark) (mark :: body ++ [mark]) :=
  matches_quoted_iff.mpr ⟨body, .of_not_mem h, rfl⟩

/-- A mark that is a lexeme by itself does not occur in what follows it. -/
theorem Leads.mark_not_mem (hmark : IsMark mark) (h : Leads grammar p [mark] rest) :
    mark ∉ rest := by
  intro hmem
  obtain ⟨body, behind, rfl, hbody⟩ := List.eq_append_cons_of_mem hmem
  have hquoted : (Pattern.ofMark mark).Form grammar (mark :: body ++ [mark]) :=
    (Pattern.form_ofMark hmark).mpr (Regex.matches_quoted_of_not_mem hbody)
  have hpre : mark :: body ++ [mark] <+: [mark] ++ (body ++ mark :: behind) :=
    ⟨behind, by simp⟩
  cases h with
  | found _ _ hform hlongest =>
    obtain rfl := Pattern.eq_ofMark_of_form hmark hform
    have hle := hlongest _ hpre hquoted
    simp at hle
  | alone hnone => exact hnone _ _ hpre hquoted

/-- A quoted text that goes on behind its first mark ends in the mark. -/
theorem Regex.mem_of_matches_quoted_cons {c : Char} {t : Text}
    (h : Matches (quoted mark) (c :: t)) : c = mark ∧ mark ∈ t := by
  obtain ⟨body, -, heq⟩ := matches_quoted_iff.mp h
  rw [List.cons_append, List.cons.injEq] at heq
  exact ⟨heq.1, by rw [heq.2]; simp⟩

/-! ## Lexemes with other text behind them -/

/-- A lexeme stays when what follows it is replaced by a line break and other text, if it is not a
mark that occurs there. -/
theorem Leads.spaced (hw : IsLineBreak w) (h : Leads grammar p raw rest)
    (hopen : ∀ m, IsMark m → raw = [m] → m ∉ tail) : Leads grammar p raw (w ++ tail) := by
  have hend := h.nothing_behind
  refine hend.append_break hw fun m hm e he hpre hquoted => ?_
  by_cases hraw : ∃ m', IsMark m' ∧ raw = [m']
  · -- The mark would be closed in what is added.
    obtain ⟨m', hm', rfl⟩ := hraw
    obtain ⟨rfl, hmem⟩ := Regex.mem_of_matches_quoted_cons hquoted
    rcases List.mem_append.mp (hpre.mem hmem) with hmem | hmem
    · have hblank := hw.blank m' hmem
      rw [hm.not_isBlank] at hblank
      simp at hblank
    · exact hopen m' hm rfl hmem
  · have hdone : Scans grammar 0 [] [] := .done (List.forall_mem_nil _)
    exact hend.not_matches_quoted_break hw hdone hm (fun heq => hraw ⟨m, hm, heq⟩)
      (List.forall_mem_nil _) he hpre hquoted

/-- A lexeme stays when what follows it is replaced by blanks. -/
theorem Leads.trailed (hw : ∀ c ∈ w, isBlank c = true) (h : Leads grammar p raw rest) :
    Leads grammar p raw w := by
  have hend := h.nothing_behind
  refine hend.append fun q e he hpre => ?_
  exact Pattern.not_form_append_blank he fun c hc => hw c (hpre.mem hc)

/-! ## Texts in a row -/

/-- Texts in a row, each of them with a gap behind it. -/
def Text.spaced (raws gaps : List Text) : Text := (List.zipWith (· ++ ·) raws gaps).flatten

theorem Text.spaced_cons (raw gap : Text) (raws gaps : List Text) :
    spaced (raw :: raws) (gap :: gaps) = raw ++ (gap ++ spaced raws gaps) := by
  rw [spaced, List.zipWith_cons_cons, List.flatten_cons, List.append_assoc]
  rfl

theorem Text.mem_spaced {c : Char} : ∀ {raws gaps : List Text}, c ∈ spaced raws gaps →
    (∃ raw ∈ raws, c ∈ raw) ∨ ∃ gap ∈ gaps, c ∈ gap
  | [], gaps, h => by simp [spaced] at h
  | raw :: raws, [], h => by simp [spaced] at h
  | raw :: raws, gap :: gaps, h => by
    rw [spaced_cons, List.mem_append, List.mem_append] at h
    rcases h with h | h | h
    · exact Or.inl ⟨raw, List.mem_cons_self, h⟩
    · exact Or.inr ⟨gap, List.mem_cons_self, h⟩
    · rcases mem_spaced h with ⟨raw', hraw, hc⟩ | ⟨gap', hgap, hc⟩
      · exact Or.inl ⟨raw', List.mem_cons_of_mem raw hraw, hc⟩
      · exact Or.inr ⟨gap', List.mem_cons_of_mem gap hgap, hc⟩

namespace Scans

variable {offset : Nat} {t : Text} {ls : List Lexeme}

/-- The characters of a lexeme stand in the text. -/
theorem mem_of_mem_raw {c : Char} (h : Scans grammar offset t ls) :
    ∀ l ∈ ls, c ∈ l.raw → c ∈ t := by
  induction h with
  | done _ => exact List.forall_mem_nil _
  | lexeme _ _ _ _ ih =>
    rw [List.forall_mem_cons]
    refine ⟨fun hc => ?_, fun l hl hc => ?_⟩
    · exact List.mem_append_left _ (List.mem_append_right _ hc)
    · exact List.mem_append_right _ (ih l hl hc)

/-- The lexemes of a text, put in a row with line breaks between them, are found again, wherever
the row starts. -/
theorem spaced (h : Scans grammar offset t ls) : ∀ {gaps : List Text}, gaps.length = ls.length →
    (∀ gap ∈ gaps, ∀ c ∈ gap, isBlank c = true) → (∀ gap ∈ gaps.dropLast, '\n' ∈ gap) →
      ∀ place, ∃ ls', Scans grammar place (Text.spaced (ls.map Lexeme.raw) gaps) ls' ∧
        ls'.map Lexeme.raw = ls.map Lexeme.raw := by
  induction h with
  | done _ => exact fun _ _ _ place => ⟨[], done (List.forall_mem_nil _), rfl⟩
  | @lexeme offset gap raw rest p ls _ hhead hleads hrest ih =>
    intro gaps hlength hblank hline place
    cases gaps with
    | nil => simp at hlength
    | cons space gaps =>
      rw [List.length_cons, List.length_cons, Nat.succ_inj] at hlength
      rw [List.forall_mem_cons] at hblank
      have hline' : ∀ gap ∈ gaps.dropLast, '\n' ∈ gap := by
        cases gaps with
        | nil => exact List.forall_mem_nil _
        | cons next gaps => exact fun gap hgap => hline gap (List.mem_cons_of_mem space hgap)
      obtain ⟨ls', hls', hraws⟩ := ih hlength hblank.2 hline'
        (place + Text.size raw + Text.size space)
      have hleads' : Leads grammar p raw
          (space ++ Text.spaced (ls.map Lexeme.raw) gaps) := by
        cases gaps with
        | nil =>
          rw [List.eq_nil_of_length_eq_zero hlength.symm]
          exact (List.append_nil space).symm ▸ hleads.trailed hblank.1
        | cons next gaps =>
          refine hleads.spaced ⟨hblank.1, hline space List.mem_cons_self⟩ ?_
          -- A mark that is left open does not occur in any later lexeme.
          rintro m hm rfl hmem
          rcases Text.mem_spaced hmem with ⟨raw', hraw', hc⟩ | ⟨gap', hgap', hc⟩
          · obtain ⟨l, hl, rfl⟩ := List.mem_map.mp hraw'
            exact hleads.mark_not_mem hm (hrest.mem_of_mem_raw l hl hc)
          · have hblank' := hblank.2 gap' hgap' m hc
            rw [hm.not_isBlank] at hblank'
            simp at hblank'
      rw [List.map_cons, Text.spaced_cons]
      exact ⟨_, front hhead hleads' (hls'.blanks_append hblank.1), by rw [List.map_cons, hraws]⟩

end Scans

/-- The characters of the tokens of a query, put in a row with a line break between any two of them
and any blanks at the ends, have tokens of the same kinds, values and characters. -/
theorem tokenize_spaced (config : Config) (query front : Text) (gaps : List Text)
    (hlength : gaps.length = (tokenize config query).length)
    (hfront : ∀ c ∈ front, isBlank c = true)
    (hblank : ∀ gap ∈ gaps, ∀ c ∈ gap, isBlank c = true)
    (hline : ∀ gap ∈ gaps.dropLast, '\n' ∈ gap) :
    (tokenize config
        (front ++ Text.spaced ((tokenize config query).map Token.raw) gaps)).map
          (fun t => (t.kind, t.value, t.raw))
      = (tokenize config query).map fun t => (t.kind, t.value, t.raw) := by
  -- All but the place of a token is read off its characters.
  have hmeaning : ∀ ls : List Lexeme,
      (ls.map (Lexeme.token config.numeric)).map (fun t => (t.kind, t.value, t.raw))
        = (ls.map Lexeme.raw).map fun raw =>
          ((meaning config.numeric raw).1, (meaning config.numeric raw).2, raw) := by
    intro ls
    rw [List.map_map, List.map_map]
    rfl
  have hraws : (tokenize config query).map Token.raw = (lexemes config query).map Lexeme.raw := by
    rw [tokenize, List.map_map]
    rfl
  rw [tokenize, List.length_map] at hlength
  obtain ⟨ls, hls, heq⟩ := (Scans.lexemes config query).spaced hlength hblank hline
    (0 + Text.size front)
  rw [hraws, tokenize, ← (hls.blanks_append hfront).unique (Scans.lexemes config _), tokenize,
    hmeaning, hmeaning, heq]

/-- A part of a word, a number with two fractions, and a mark that is left open. -/
theorem tokenize_spaced_of_fragments :
    (tokenize { numeric := .compat }
        ("\n".toList ++ Text.spaced
          ((tokenize { numeric := .compat } "likes 1.2.3\"'a'".toList).map Token.raw)
          ["\n".toList, " \n".toList, "\n\n".toList, "\n ".toList, " ".toList])).map
          (fun t => (t.kind, t.value, t.raw))
      = (tokenize { numeric := .compat } "likes 1.2.3\"'a'".toList).map fun t =>
          (t.kind, t.value, t.raw) := by
  refine tokenize_spaced { numeric := .compat } "likes 1.2.3\"'a'".toList "\n".toList
    ["\n".toList, " \n".toList, "\n\n".toList, "\n ".toList, " ".toList] (by decide)
    (List.all_eq_true.mp (by decide)) ?_ (by decide)
  simp only [← List.all_eq_true]
  decide

end FilterQuery
