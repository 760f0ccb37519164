import FilterQuery.Proofs.Pattern.Characters
import FilterQuery.Proofs.Scan.Run

/-!
# The tokens of a query tile it

Tokens stand in the query in order and do not overlap, and what lies between them are runs of blanks
that cannot be made longer. So every character that is not blank belongs to exactly one token.

The tiling is built from the end of the query: `Tiling.nil` for the blanks at the end and
`Tiling.cons` for one more token in front.
-/

namespace FilterQuery

/-! ## Tilings -/

/-- A span of a text that holds only blanks, with none right before it and none right behind it. -/
def IsBlankRun (query : Text) (s : Span) : Prop :=
  ∃ before run after, query = before ++ run ++ after ∧
    Text.size before = s.start ∧ Text.size before + Text.size run = s.stop ∧
    (∀ c ∈ run, isBlank c = true) ∧
    (∀ c ∈ before.getLast?, isBlank c = false) ∧ (∀ c ∈ after.head?, isBlank c = false)

/-- The spans before, between and behind some spans, from one offset up to another. -/
def gaps (start stop : Nat) : List Span → List Span
  | [] => [⟨start, stop⟩]
  | s :: rest => ⟨start, s.start⟩ :: gaps s.stop stop rest

/-- Tokens that tile a query from an offset on. -/
structure Tiling (query : Text) (start : Nat) (tokens : List Token) : Prop where
  /-- The ends of a token are character boundaries, and its characters are those between them. -/
  slice : ∀ t ∈ tokens, t.span.slice? query = some t.raw
  nonempty : ∀ t ∈ tokens, t.span.start < t.span.stop
  bounded : ∀ t ∈ tokens, start ≤ t.span.start
  ordered : tokens.Pairwise fun t u => t.span.stop ≤ u.span.start
  head : ∀ t ∈ tokens, ∃ c rest, t.raw = c :: rest ∧ isBlank c = false
  gaps : ∀ gap ∈ gaps start (Text.size query) (tokens.map Token.span), IsBlankRun query gap
  cover : ∀ before c after, query = before ++ c :: after → start ≤ Text.size before →
    isBlank c = false →
      ∃! t, t ∈ tokens ∧ t.span.start ≤ Text.size before ∧ Text.size before < t.span.stop

namespace IsBlankRun

theorem isBlank_of_size {query before after : Text} {c : Char} {s : Span} (h : IsBlankRun query s)
    (hquery : query = before ++ c :: after) (hlow : s.start ≤ Text.size before)
    (hhigh : Text.size before < s.stop) : isBlank c = true := by
  obtain ⟨b, run, a, rfl, hstart, hstop, hrun, -⟩ := h
  refine hrun c (Text.mem_of_size_lt hquery.symm ?_ ?_)
  · rw [hstart]
    exact hlow
  · rw [hstop]
    exact hhigh

end IsBlankRun

namespace Tiling

variable {query : Text} {start : Nat}

/-- Nothing but blanks is tiled by no tokens. -/
theorem nil (h : IsBlankRun query ⟨start, Text.size query⟩) : Tiling query start [] where
  slice := by simp
  nonempty := by simp
  bounded := by simp
  ordered := List.Pairwise.nil
  head := by simp
  gaps := by
    intro gap hgap
    rw [List.map_nil, FilterQuery.gaps, List.mem_singleton] at hgap
    rw [hgap]
    exact h
  cover := by
    intro before c after hquery hstart hc
    have hlt : Text.size before < Text.size query := by
      have := c.utf8Size_pos
      rw [hquery, Text.size_append, Text.size_cons]
      omega
    rw [h.isBlank_of_size hquery hstart hlt] at hc
    simp at hc

/-- One more token in front, with blanks before it. -/
theorem cons {t : Token} {ts : List Token} (hslice : t.span.slice? query = some t.raw)
    (hhead : ∃ c rest, t.raw = c :: rest ∧ isBlank c = false)
    (hgap : IsBlankRun query ⟨start, t.span.start⟩) (h : Tiling query t.span.stop ts) :
    Tiling query start (t :: ts) := by
  have hnonempty : t.span.start < t.span.stop := by
    obtain ⟨before, after, -, hstart, hstop⟩ := Text.slice?_eq_some_iff.mp hslice
    obtain ⟨c, rest, hraw, -⟩ := hhead
    have := c.utf8Size_pos
    rw [hraw, Text.size_cons] at hstop
    omega
  have hfirst : start ≤ t.span.start := by
    obtain ⟨before, run, after, -, hstart, hstop, -⟩ := hgap
    simp only at hstart hstop
    omega
  refine ⟨?_, ?_, ?_, ?_, ?_, ?_, ?_⟩
  · exact List.forall_mem_cons.mpr ⟨hslice, h.slice⟩
  · exact List.forall_mem_cons.mpr ⟨hnonempty, h.nonempty⟩
  · refine List.forall_mem_cons.mpr ⟨hfirst, fun u hu => ?_⟩
    have := h.bounded u hu
    omega
  · exact List.pairwise_cons.mpr ⟨h.bounded, h.ordered⟩
  · exact List.forall_mem_cons.mpr ⟨hhead, h.head⟩
  · exact List.forall_mem_cons.mpr ⟨hgap, h.gaps⟩
  · intro before c after hquery hstart hc
    -- The character lies in the blanks, in the new token, or behind it.
    by_cases hlow : Text.size before < t.span.start
    · rw [hgap.isBlank_of_size hquery hstart hlow] at hc
      simp at hc
    by_cases hhigh : Text.size before < t.span.stop
    · refine ⟨t, ⟨List.mem_cons_self, Nat.le_of_not_lt hlow, hhigh⟩, ?_⟩
      rintro u ⟨hu, hule, -⟩
      rcases List.mem_cons.mp hu with rfl | hu
      · rfl
      · have := h.bounded u hu
        omega
    · obtain ⟨u, ⟨hu, hcovers⟩, hunique⟩ :=
        h.cover before c after hquery (Nat.le_of_not_lt hhigh) hc
      refine ⟨u, ⟨List.mem_cons_of_mem t hu, hcovers⟩, ?_⟩
      rintro v ⟨hv, hvcovers⟩
      rcases List.mem_cons.mp hv with rfl | hv
      · exact absurd hvcovers.2 hhigh
      · exact hunique v ⟨hv, hvcovers⟩

end Tiling

/-! ## The tokens of a scan -/

theorem Leads.not_isBlank_last {grammar : NumberGrammar} {p : Option Pattern} {raw rest : Text}
    (h : Leads grammar p raw rest) (hhead : ∀ c ∈ raw.head?, isBlank c = false) :
    ∀ c ∈ raw.getLast?, isBlank c = false := by
  cases h with
  | found _ _ hform _ => exact hform.not_isBlank_last
  | alone _ => exact hhead

namespace Scans

variable {grammar : NumberGrammar} {offset : Nat} {t : Text} {ls : List Lexeme}

theorem tiling {query : Text} (h : Scans grammar offset t ls) : ∀ {before : Text},
    query = before ++ t → Text.size before = offset →
    (∀ c ∈ before.getLast?, isBlank c = false) →
      Tiling query offset (ls.map (Lexeme.token grammar)) := by
  induction h with
  | @done offset t hblank =>
    intro before hquery hsize hlast
    refine Tiling.nil ⟨before, t, [], by simp [hquery], hsize, ?_, hblank, hlast, by simp⟩
    rw [hquery, Text.size_append]
  | @lexeme offset gap raw rest p ls hgap hhead hleads _ ih =>
    intro before hquery hsize hlast
    -- What is passed on is that the text so far ends where the lexeme does, not in a blank.
    obtain ⟨hbehind, hplace⟩ := Text.place_behind hquery hsize
    have hraw : ∃ c tail, raw = c :: tail ∧ isBlank c = false := by
      obtain ⟨c, tail, rfl⟩ := List.exists_cons_of_ne_nil hleads.ne_nil
      exact ⟨c, tail, rfl, hhead c rfl⟩
    rw [List.map_cons]
    refine Tiling.cons ?_ hraw ?_ (ih hbehind hplace ?_)
    · refine Text.slice?_eq_some_iff.mpr ⟨before ++ gap, rest, hbehind, ?_, ?_⟩
      · rw [Text.size_append, hsize]
        rfl
      · rw [Text.size_append, hsize]
        rfl
    · refine ⟨before, gap, raw ++ rest, ?_, hsize, ?_, hgap, hlast, ?_⟩
      · rw [hquery]
        simp only [List.append_assoc]
      · rw [hsize]
        rfl
      · obtain ⟨c, tail, rfl, -⟩ := hraw
        exact hhead
    · intro c hc
      rw [List.getLast?_append_of_ne_nil _ hleads.ne_nil] at hc
      exact hleads.not_isBlank_last hhead c hc

/-- A text has at most as many lexemes as it has characters that are not blank. -/
theorem length_le_countP (h : Scans grammar offset t ls) :
    ls.length ≤ t.countP fun c => !isBlank c := by
  induction h with
  | done _ => exact Nat.zero_le _
  | @lexeme offset gap raw rest p ls hgap hhead hleads _ ih =>
    obtain ⟨c, tail, rfl⟩ := List.exists_cons_of_ne_nil hleads.ne_nil
    have hc : isBlank c = false := hhead c rfl
    rw [List.length_cons, List.countP_append, List.countP_append, List.countP_cons]
    simp only [hc, Bool.not_false, ↓reduceIte]
    omega

end Scans

namespace Scanner

/-- After as many lexemes as there are to come, nothing is left. -/
theorem next?_take : ∀ {n : Nat} {s : Scanner}, s.drain.1.length ≤ n → (s.take n).2.next? = none
  | 0, s, h => by
    cases hnext : s.next? with
    | none => exact hnext
    | some found =>
      rw [drain_of_next?_eq_some hnext] at h
      simp at h
  | n + 1, s, h => by
    rw [take]
    cases hnext : s.next? with
    | none => exact hnext
    | some found =>
      rw [drain_of_next?_eq_some hnext, List.length_cons] at h
      exact next?_take (Nat.le_of_succ_le_succ h)

/-- All that a scanner takes out of a query at its next step lies within the query, between
character boundaries. -/
structure InRange (query : Text) (s : Scanner) : Prop where
  rest : query.slice? s.offset (Text.size query) = some s.rest
  /-- What follows the blanks. -/
  front : query.slice? (s.offset + Text.size (Text.blanks s.rest)) (Text.size query)
    = some (Text.skipBlanks s.rest)
  /-- The lexeme of a size that the finder gives. -/
  subQuery : ∀ n,
    (s.finder.length? (s.offset + Text.size (Text.blanks s.rest)) (Text.skipBlanks s.rest)).1
      = some n →
    ∃ raw, query.slice? (s.offset + Text.size (Text.blanks s.rest))
      (s.offset + Text.size (Text.blanks s.rest) + n) = some raw

theorem Within.inRange {query : Text} {s : Scanner} (hs : s.Within query) : s.InRange query := by
  obtain ⟨before, hquery, hsize⟩ := hs.place
  have hfront : query = (before ++ Text.blanks s.rest) ++ Text.skipBlanks s.rest := by
    rw [List.append_assoc, Text.blanks_append_skipBlanks, hquery]
  refine ⟨?_, ?_, ?_⟩
  · refine Text.slice?_eq_some_iff.mpr ⟨before, [], by simp [hquery], hsize, ?_⟩
    rw [hquery, Text.size_append]
  · rw [← hsize, ← Text.size_append]
    refine Text.slice?_eq_some_iff.mpr ⟨_, [], by rw [List.append_nil]; exact hfront, rfl, ?_⟩
    rw [← Text.size_append, ← hfront]
  · intro n hn
    rw [← hsize, ← Text.size_append] at hn ⊢
    rw [SubQuery.Finder.length?_eq hs.finder hfront] at hn
    obtain ⟨⟨raw, after⟩, hcut, rfl⟩ := Option.map_eq_some_iff.mp hn
    refine ⟨raw, Text.slice?_eq_some_iff.mpr ⟨_, after, ?_, rfl, rfl⟩⟩
    rw [List.append_assoc, (SubQuery.append_of_cut? hcut).1]
    exact hfront

end Scanner

/-- The tokens of a query tile it. No step towards them reaches outside the query, and after as many
tokens as there are characters that are not blank there is no further one. -/
theorem tokenize_tiling (config : Config) (query : Text) :
    Tiling query 0 (tokenize config query) ∧
    (∀ n, ((Scanner.start config query).takeTokens n).2.InRange query) ∧
    ((Scanner.start config query).takeTokens
      (query.countP fun c => !isBlank c)).2.nextToken? = none := by
  have hscans := Scans.lexemes config query
  refine ⟨hscans.tiling (List.nil_append query).symm rfl (by simp), ?_, ?_⟩
  · intro n
    exact (Scanner.within_start config query).take.inRange
  · rw [Scanner.nextToken?, Option.map_eq_none_iff]
    exact Scanner.next?_take hscans.length_le_countP

end FilterQuery
