import FilterQuery.Proofs.Scan.Front
import FilterQuery.Proofs.Scan.Memory
import FilterQuery.Scanner
import Mathlib.Data.List.TakeWhile

/-!
# The lexemes of a query as a relation

`Scans` says which lexemes a text has, from the front to the end, with no scanner and no memory:
blanks, the lexeme that the rest starts with, and so on, until only blanks are left. Every text has
exactly one such list (`Scans.exists_list`, `Scans.unique`), and it is what a scanner finds,
wherever in a query it stands (`Scanner.drain_eq_of_scans`).

That a scanner stands in a query is its invariant, `Scanner.Within`. Its first half ties the offset
to the text that is left, and its second half the finder to the query, so that the finder's memory
can be left out of all that follows.
-/

namespace FilterQuery

/-- A lexeme moved on by some bytes. -/
def Lexeme.shift (n : Nat) (l : Lexeme) : Lexeme := { l with start := l.start + n }

/-- A token moved on by some bytes. -/
def Token.shift (n : Nat) (t : Token) : Token :=
  { t with span := ⟨t.span.start + n, t.span.stop + n⟩ }

theorem Lexeme.token_shift (grammar : NumberGrammar) (n : Nat) (l : Lexeme) :
    (l.shift n).token grammar = (l.token grammar).shift n := by
  have hstop : l.start + n + Text.size l.raw = l.start + Text.size l.raw + n := by omega
  simp only [Lexeme.token, Lexeme.shift, Lexeme.span, Token.shift, hstop]

theorem Lexeme.map_token_map_shift (grammar : NumberGrammar) (n : Nat) (ls : List Lexeme) :
    (ls.map (Lexeme.shift n)).map (Lexeme.token grammar)
      = (ls.map (Lexeme.token grammar)).map (Token.shift n) := by
  rw [List.map_map, List.map_map]
  exact List.map_congr_left fun l _ => l.token_shift grammar n

/-- The lexemes of a text that starts at a given offset. -/
inductive Scans (grammar : NumberGrammar) : Nat → Text → List Lexeme → Prop
  | done {offset : Nat} {t : Text} : (∀ c ∈ t, isBlank c = true) → Scans grammar offset t []
  | lexeme {offset : Nat} {gap raw rest : Text} {p : Option Pattern} {ls : List Lexeme} :
    (∀ c ∈ gap, isBlank c = true) →
      (∀ c ∈ raw.head?, isBlank c = false) →
      Leads grammar p raw rest →
      Scans grammar (offset + Text.size gap + Text.size raw) rest ls →
      Scans grammar offset (gap ++ raw ++ rest)
        ({ pattern := p, raw, start := offset + Text.size gap } :: ls)

namespace Scans

variable {grammar : NumberGrammar} {offset : Nat} {t : Text} {ls : List Lexeme}

/-- Every text has lexemes, if only none. -/
theorem exists_list (grammar : NumberGrammar) (offset : Nat) (t : Text) :
    ∃ ls, Scans grammar offset t ls := by
  have hblanks : ∀ c ∈ Text.blanks t, isBlank c = true := fun c hc =>
    List.mem_takeWhile_imp hc
  have ht := Text.blanks_append_skipBlanks t
  cases hskip : Text.skipBlanks t with
  | nil =>
    rw [hskip, List.append_nil] at ht
    exact ⟨[], done (ht ▸ hblanks)⟩
  | cons c tail =>
    obtain ⟨p, raw, rest, hraw, hleads⟩ :=
      Leads.exists_of_ne_nil grammar (List.cons_ne_nil c tail)
    rw [hskip, hraw, ← List.append_assoc] at ht
    -- The lexeme takes a character at least, so what follows it is shorter than the text.
    have hlen : rest.length < t.length := by
      have hpos := List.length_pos_iff.mpr hleads.ne_nil
      rw [← ht, List.length_append, List.length_append]
      omega
    obtain ⟨ls, hls⟩ := exists_list grammar
      (offset + Text.size (Text.blanks t) + Text.size raw) rest
    have hhead : ∀ d ∈ raw.head?, isBlank d = false := by
      intro d hd
      obtain ⟨raw', rfl⟩ := List.head?_eq_some_iff.mp hd
      rw [hraw, List.cons_append] at hskip
      exact Text.isBlank_of_skipBlanks_eq_cons hskip
    exact ⟨_, ht ▸ lexeme hblanks hhead hleads hls⟩
termination_by t.length

/-- A text that starts with a lexeme, with no blanks before it. -/
theorem front {raw rest : Text} {p : Option Pattern} (hhead : ∀ c ∈ raw.head?, isBlank c = false)
    (hleads : Leads grammar p raw rest) (h : Scans grammar (offset + Text.size raw) rest ls) :
    Scans grammar offset (raw ++ rest) ({ pattern := p, raw, start := offset } :: ls) :=
  lexeme (List.forall_mem_nil _) hhead hleads h

/-- A text that does not start with a blank starts with a lexeme. -/
theorem exists_leads_of_cons {c : Char} {tail : Text} (h : Scans grammar offset (c :: tail) ls)
    (hc : isBlank c = false) :
    ∃ p raw rest ls', c :: tail = raw ++ rest ∧ Leads grammar p raw rest ∧
      ls = { pattern := p, raw, start := offset } :: ls' := by
  generalize ht : c :: tail = t at h
  cases h with
  | done hblank =>
    have := hblank c (ht ▸ List.mem_cons_self)
    rw [hc] at this
    simp at this
  | @lexeme _ gap raw rest p ls hgap _ hleads _ =>
    cases gap with
    | nil => exact ⟨p, raw, rest, ls, rfl, hleads, rfl⟩
    | cons d gap =>
      rw [List.cons_append, List.cons_append, List.cons.injEq] at ht
      have := hgap d List.mem_cons_self
      rw [← ht.1, hc] at this
      simp at this

/-- Blanks in front only move the lexemes on. -/
theorem blanks_append {gap : Text} (hgap : ∀ c ∈ gap, isBlank c = true)
    (h : Scans grammar (offset + Text.size gap) t ls) : Scans grammar offset (gap ++ t) ls := by
  generalize hoffset : offset + Text.size gap = place at h
  cases h with
  | done hblank => exact done (List.forall_mem_append.mpr ⟨hgap, hblank⟩)
  | @lexeme _ gap' raw rest p ls hgap' hhead hleads hrest =>
    have hstart : place + Text.size gap' = offset + Text.size (gap ++ gap') := by
      rw [Text.size_append]
      omega
    rw [hstart] at hrest ⊢
    rw [← List.append_assoc, ← List.append_assoc]
    exact lexeme (List.forall_mem_append.mpr ⟨hgap, hgap'⟩) hhead hleads hrest

/-- Where a text starts in a query does not matter for its lexemes, only for their offsets. -/
theorem shift (h : Scans grammar offset t ls) (n : Nat) :
    Scans grammar (offset + n) t (ls.map (Lexeme.shift n)) := by
  induction h with
  | done hblank => exact done hblank
  | @lexeme offset gap raw rest p ls hgap hhead hleads _ ih =>
    have hoffset : offset + Text.size gap + Text.size raw + n
        = offset + n + Text.size gap + Text.size raw := by omega
    have hstart : offset + Text.size gap + n = offset + n + Text.size gap := by omega
    rw [List.map_cons, Lexeme.shift, hstart]
    exact lexeme hgap hhead hleads (hoffset ▸ ih)

end Scans

namespace Scanner

/-! ## Scanners in a query -/

/-- A scanner that stands somewhere in a query: what follows is the query from there on, and all
that was seen so far was seen in this query. -/
structure Within (query : Text) (s : Scanner) : Prop where
  place : ∃ before, query = before ++ s.rest ∧ Text.size before = s.offset
  finder : s.finder.Of query

theorem within_start (config : Config) (query : Text) : (start config query).Within query where
  place := ⟨[], rfl, rfl⟩
  finder := SubQuery.Finder.of_empty query

variable {query : Text} {s : Scanner}

theorem blanks_append {gap t : Text} (hgap : ∀ c ∈ gap, isBlank c = true)
    (hhead : ∀ c ∈ t.head?, isBlank c = false) :
    Text.blanks (gap ++ t) = gap ∧ Text.skipBlanks (gap ++ t) = t := by
  have htake : t.takeWhile isBlank = [] := by
    cases t with
    | nil => rfl
    | cons c t => rw [List.takeWhile_cons_of_neg]; simp [hhead c rfl]
  have hdrop : t.dropWhile isBlank = t := by
    cases t with
    | nil => rfl
    | cons c t => rw [List.dropWhile_cons_of_neg]; simp [hhead c rfl]
  rw [Text.blanks, Text.skipBlanks, List.takeWhile_append_of_pos hgap,
    List.dropWhile_append_of_pos hgap, htake, hdrop, List.append_nil]
  exact ⟨rfl, rfl⟩

/-- The lexeme at the front of what follows the blanks is the next one, and the scanner stays within
the query. -/
theorem next?_of_leads (hs : s.Within query) {gap raw rest : Text} {p : Option Pattern}
    (hrest : s.rest = gap ++ raw ++ rest) (hgap : ∀ c ∈ gap, isBlank c = true)
    (hhead : ∀ c ∈ raw.head?, isBlank c = false) (hleads : Leads s.config.numeric p raw rest) :
    ∃ after : Scanner,
      s.next? = some ({ pattern := p, raw, start := s.offset + Text.size gap }, after) ∧
        after.Within query ∧ after.rest = rest ∧ after.config = s.config ∧
        after.offset = s.offset + Text.size gap + Text.size raw := by
  obtain ⟨before, hquery, hsize⟩ := hs.place
  obtain ⟨c, tail, rfl⟩ := List.exists_cons_of_ne_nil hleads.ne_nil
  obtain ⟨hafter, hoffset⟩ := Text.place_behind (hrest ▸ hquery) hsize
  rw [List.append_assoc] at hrest
  obtain ⟨hblanks, hskip⟩ := blanks_append (t := c :: tail ++ rest) hgap hhead
  rw [← hrest] at hblanks hskip
  -- The finder is asked about the place behind the blanks.
  have hplace : query = (before ++ gap) ++ (c :: (tail ++ rest)) := by
    rw [hquery, hrest, List.append_assoc]
    rfl
  have hcut := SubQuery.Finder.cut?_eq hs.finder hplace
  have hof := hs.finder.cut? hplace
  rw [Text.size_append, hsize] at hcut hof
  unfold next?
  rw [hblanks, hskip, List.cons_append]
  simp only [hcut]
  -- A step tries in this order what may have found the lexeme.
  rcases hleads.cut?_or_first?_or_alone with
    ⟨hsub, hp⟩ | ⟨hsub, ⟨q, hfirst, hp⟩ | ⟨hfirst, hp, d, hd⟩⟩
  · rw [List.cons_append] at hsub
    simp only [hsub, hp]
    exact ⟨_, rfl, ⟨⟨_, hafter, hoffset⟩, hof⟩, rfl, rfl, rfl⟩
  · rw [List.cons_append] at hsub hfirst
    simp only [hsub, hfirst, hp]
    exact ⟨_, rfl, ⟨⟨_, hafter, hoffset⟩, hof⟩, rfl, rfl, rfl⟩
  · simp only [List.cons.injEq] at hd
    obtain ⟨rfl, rfl⟩ := hd
    rw [List.cons_append] at hsub hfirst
    simp only [hsub, hfirst, hp]
    exact ⟨_, rfl, ⟨⟨_, hafter, hoffset⟩, hof⟩, rfl, rfl, rfl⟩

/-- Only blanks left means no next lexeme. -/
theorem next?_of_blank (h : ∀ c ∈ s.rest, isBlank c = true) : s.next? = none := by
  have hskip := (blanks_append (t := []) h (by simp)).2
  rw [List.append_nil] at hskip
  exact next?_eq_none_iff.mpr hskip

/-- A step leads to a scanner in the same query. -/
theorem Within.next? (hs : s.Within query) {l : Lexeme} {after : Scanner}
    (hnext : s.next? = some (l, after)) : after.Within query := by
  obtain ⟨ls, hls⟩ := Scans.exists_list s.config.numeric s.offset s.rest
  generalize hrest : s.rest = t at hls
  cases hls with
  | done hblank =>
    rw [next?_of_blank (hrest ▸ hblank)] at hnext
    simp at hnext
  | lexeme hgap hhead hleads _ =>
    obtain ⟨after', hnext', hwithin, -⟩ := next?_of_leads hs hrest hgap hhead hleads
    rw [hnext, Option.some.injEq, Prod.mk.injEq] at hnext'
    exact hnext'.2 ▸ hwithin

/-- However many lexemes are taken, the scanner stays within the query. -/
theorem Within.take : ∀ {n : Nat} {s : Scanner}, s.Within query → (s.take n).2.Within query
  | 0, _, hs => hs
  | n + 1, s, hs => by
    rw [Scanner.take]
    cases hnext : s.next? with
    | none => exact hs
    | some found => exact (hs.next? hnext).take

/-- What a scanner has still to find are the lexemes of the text that it has still to read. -/
theorem drain_eq_of_scans {grammar : NumberGrammar} {offset : Nat} {t : Text} {ls : List Lexeme}
    (h : Scans grammar offset t ls) : ∀ {s : Scanner}, s.Within query → s.config.numeric = grammar →
      s.offset = offset → s.rest = t → s.drain.1 = ls := by
  induction h with
  | done hblank =>
    rintro s _ _ _ rfl
    rw [drain_of_next?_eq_none (next?_of_blank hblank)]
  | lexeme hgap hhead hleads _ ih =>
    rintro s hs rfl rfl hrest
    obtain ⟨after, hnext, hwithin, hafter, hconfig, hoffset⟩ :=
      next?_of_leads hs hrest hgap hhead hleads
    rw [drain_of_next?_eq_some hnext, ih hwithin (by rw [hconfig]) hoffset hafter]

theorem Within.scans (hs : s.Within query) :
    Scans s.config.numeric s.offset s.rest s.drain.1 := by
  obtain ⟨ls, hls⟩ := Scans.exists_list s.config.numeric s.offset s.rest
  rw [drain_eq_of_scans hls hs rfl rfl rfl]
  exact hls

end Scanner

namespace Scans

variable {config : Config} {offset : Nat} {t : Text} {ls ls' : List Lexeme}

theorem lexemes (config : Config) (query : Text) :
    Scans config.numeric 0 query (lexemes config query) :=
  (Scanner.within_start config query).scans

/-- The lexemes of a text are those that it has at the start of a query, moved on. -/
theorem eq_map_shift (h : Scans config.numeric offset t ls) :
    ls = (FilterQuery.lexemes config t).map (Lexeme.shift offset) := by
  -- A scan that starts at an offset is moved back to the start, one lexeme after the other.
  have hback : ∃ ls', Scans config.numeric 0 t ls' ∧ ls = ls'.map (Lexeme.shift offset) := by
    induction h with
    | done hblank => exact ⟨[], done hblank, rfl⟩
    | @lexeme offset gap raw rest p ls hgap hhead hleads _ ih =>
      obtain ⟨ls', hls', rfl⟩ := ih
      have hrest := hls'.shift (0 + Text.size gap + Text.size raw)
      rw [Nat.zero_add (0 + Text.size gap + Text.size raw)] at hrest
      refine ⟨_, lexeme hgap hhead hleads hrest, ?_⟩
      rw [List.map_cons, List.map_map]
      refine congrArg₂ List.cons ?_ (List.map_congr_left fun l _ => ?_)
      · simp only [Lexeme.shift, Lexeme.mk.injEq, true_and]
        omega
      · simp only [Lexeme.shift, Function.comp, Lexeme.mk.injEq, true_and]
        omega
  obtain ⟨ls', hls', rfl⟩ := hback
  rw [← Scanner.drain_eq_of_scans hls' (Scanner.within_start config t) rfl rfl rfl]
  rfl

theorem unique (h : Scans config.numeric offset t ls) (h' : Scans config.numeric offset t ls') :
    ls = ls' := by
  rw [h.eq_map_shift, h'.eq_map_shift]

end Scans

/-- The lexeme at the front of a query is its first token, and the others are the tokens of what
follows it. -/
theorem tokenize_of_leads {config : Config} {p : Option Pattern} {raw rest : Text}
    (hhead : ∀ c ∈ raw.head?, isBlank c = false) (hleads : Leads config.numeric p raw rest) :
    tokenize config (raw ++ rest) =
      { kind := (meaning config.numeric raw).1, value := (meaning config.numeric raw).2, raw,
        span := ⟨0, Text.size raw⟩ } ::
        (tokenize config rest).map (Token.shift (Text.size raw)) := by
  have hrest := (Scans.lexemes config rest).shift (Text.size raw)
  have hscans := Scans.front hhead hleads hrest
  rw [tokenize, ← hscans.unique (Scans.lexemes config (raw ++ rest)), List.map_cons,
    Lexeme.map_token_map_shift, Lexeme.token, Lexeme.span, Nat.zero_add]
  rfl

/-- A lexeme that is all of a query is its only token. -/
theorem tokenize_of_leads_nil {config : Config} {p : Option Pattern} {raw : Text}
    (hhead : ∀ c ∈ raw.head?, isBlank c = false) (hleads : Leads config.numeric p raw []) :
    tokenize config raw =
      [{ kind := (meaning config.numeric raw).1, value := (meaning config.numeric raw).2, raw,
         span := ⟨0, Text.size raw⟩ }] := by
  have htokens := tokenize_of_leads hhead hleads
  rw [List.append_nil] at htokens
  rw [htokens]
  rfl

end FilterQuery
