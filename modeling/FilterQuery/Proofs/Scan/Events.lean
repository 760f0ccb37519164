import FilterQuery.Proofs.Meaning.Numbers
import FilterQuery.Proofs.Scan.Placed
import FilterQuery.Trace
import Mathlib.Data.List.Forall2

/-!
# Events and tokens

The events of a scan say what each step found, by pattern, place and size. The tokens say what the
lexemes mean. `trace_mirrors_tokenize` compares the two views over a whole scan: there is one event
for each token, and the numbers in the summary follow from the events but for one kind of lexeme.
Under the compatible grammar a number with many fractions is matched, and without an exponent it is
not recognised all the same.

What a step emits goes by sizes alone, before any lexeme is cut out (`Scanner.event?`).
-/

namespace FilterQuery

/-! ## The event of a step -/

namespace Scanner

/-- What fits the front of a text that starts at a given offset, and how many bytes it takes: the
full-text query, or else what the table finds. -/
def found? (s : Scanner) (start : Nat) (t : Text) : Option (Pattern × Nat) :=
  match (s.finder.length? start t).1 with
  | some length => some (.subQuery, length)
  | none => Pattern.search? s.config.numeric t

/-- The event that the next step emits. -/
def event? (s : Scanner) : Option Event :=
  let start := s.offset + Text.size (Text.blanks s.rest)
  match Text.skipBlanks s.rest with
  | [] => none
  | c :: rest =>
    match s.found? start (c :: rest) with
    | some (pattern, length) => some (.matched pattern start length)
    | none => some (.unmatched start (escapeChar ['"', '\''] c))

/-- A step emits the event of the lexeme that it comes to. -/
theorem Within.event?_eq {query : Text} {s : Scanner} (hs : s.Within query) :
    s.event? = s.next?.map fun (lexeme, _) => Event.ofLexeme lexeme := by
  obtain ⟨before, hquery, hsize⟩ := hs.place
  have hfront : query = (before ++ Text.blanks s.rest) ++ Text.skipBlanks s.rest := by
    rw [List.append_assoc, Text.blanks_append_skipBlanks, hquery]
  have hlength := SubQuery.Finder.length?_eq hs.finder hfront
  have hcut := SubQuery.Finder.cut?_eq hs.finder hfront
  rw [Text.size_append, hsize] at hlength hcut
  unfold event? Scanner.next? found?
  cases hskip : Text.skipBlanks s.rest with
  | nil => rfl
  | cons c rest =>
    rw [hskip] at hlength hcut
    simp only [hlength, hcut]
    cases SubQuery.cut? (c :: rest) with
    | some found => rfl
    | none =>
      simp only [Option.map_none, Pattern.search?_eq]
      cases Pattern.first? s.config.numeric (c :: rest) with
      | some found => rfl
      | none => simp [Event.ofLexeme, Text.escaped]

/-- The lexemes that are still to come are those of the steps to come. -/
theorem getElem?_drain : ∀ (i : Nat) (s : Scanner),
    s.drain.1[i]? = (s.take i).2.next?.map Prod.fst
  | 0, s => by
    cases hnext : s.next? with
    | none => simp [drain_of_next?_eq_none hnext, take, hnext]
    | some found => simp [drain_of_next?_eq_some hnext, take, hnext]
  | i + 1, s => by
    cases hnext : s.next? with
    | none => simp [drain_of_next?_eq_none hnext, take, hnext]
    | some found =>
      simp only [drain_of_next?_eq_some hnext, take, hnext, List.getElem?_cons_succ]
      exact getElem?_drain i found.2

end Scanner

/-! ## An event and its token -/

namespace Event

/-- Whether an event is about the place and the characters of a token: all the bytes of the token
were matched, or the token is the one character that was not. -/
def Mirrors : Event → Token → Prop
  | matched _ start length, t =>
    start = t.span.start ∧ start + length = t.span.stop ∧ length = Text.size t.raw
  | unmatched start character, t =>
    start = t.span.start ∧ ∃ c, t.raw = [c] ∧ character = escapeChar ['"', '\''] c
  | finished _, _ => False

/-- Whether an event says that no pattern fitted. -/
def isUnmatched : Event → Bool
  | unmatched _ _ => true
  | _ => false

/-- Whether an event is about a number of two fractions or more without an exponent. -/
def isManyFractions (query : Text) : Event → Bool
  | matched .number start length =>
    (query.slice? start (start + length)).any fun raw => Regex.manyFractions.Matches raw
  | _ => false

/-- Whether the token that goes with an event is not recognised. -/
def isUnrecognized (grammar : NumberGrammar) (query : Text) (e : Event) : Bool :=
  e.isUnmatched || (grammar = .compat && e.isManyFractions query)

end Event

/-! ## Numbers that are not recognised -/

/-- A number of the compatible grammar is not recognised exactly if it has two fractions or more and
no exponent. -/
theorem meaning_compat_eq_unrecognized_iff {x : Text} (h : (Regex.number .compat).Matches x) :
    (meaning .compat x).1 = .unrecognized ↔ Regex.manyFractions.Matches x := by
  constructor
  · intro hkind
    rcases Regex.matches_number_compat_iff.mp h with hshort | hlong
    · rw [meaning_of_number hshort] at hkind
      split at hkind <;> simp at hkind
    · obtain ⟨m, e, hm, he, rfl⟩ := Regex.matches_seq_iff.mp hlong
      rcases Regex.matches_opt_iff.mp he with he | rfl
      · rw [meaning_of_manyFractions_exponent (.seq hm he)] at hkind
        simp at hkind
      · rwa [List.append_nil]
  · intro hmany
    rw [meaning_of_manyFractions hmany]

namespace Lexeme

variable {grammar : NumberGrammar} {query before rest : Text} {l : Lexeme}

/-- The event of a lexeme mirrors its token. -/
theorem mirrors_ofLexeme (h : Leads grammar l.pattern l.raw rest) :
    (Event.ofLexeme l).Mirrors (l.token grammar) := by
  rw [Event.ofLexeme]
  cases hp : l.pattern with
  | some p => exact ⟨rfl, rfl, rfl⟩
  | none =>
    rw [hp] at h
    obtain ⟨c, hraw, -⟩ := h.meaning_of_none
    refine ⟨rfl, c, hraw, ?_⟩
    rw [hraw, Text.escaped, List.flatMap_cons, List.flatMap_nil, List.append_nil]

/-- Whether a token is recognised can be told from its event and the query. -/
theorem isUnrecognized_ofLexeme (hquery : query = before ++ (l.raw ++ rest))
    (hstart : Text.size before = l.start) (h : Leads grammar l.pattern l.raw rest) :
    (Event.ofLexeme l).isUnrecognized grammar query = (l.token grammar).isUnrecognized := by
  have hslice : query.slice? l.start (l.start + Text.size l.raw) = some l.raw :=
    Text.slice?_eq_some_iff.mpr
      ⟨before, rest, by rw [hquery, List.append_assoc], hstart, by rw [hstart]⟩
  rw [Bool.eq_iff_iff, Event.ofLexeme]
  show _ ↔ decide ((meaning grammar l.raw).1 = .unrecognized) = true
  rw [decide_eq_true_iff]
  cases hp : l.pattern with
  | none =>
    rw [hp] at h
    obtain ⟨c, -, hmeaning⟩ := h.meaning_of_none
    simp [hmeaning, Event.isUnrecognized, Event.isUnmatched]
  | some p =>
    rw [hp] at h
    cases grammar with
    | strict => simp [Event.isUnrecognized, Event.isUnmatched, h.suits.ne_unrecognized]
    | compat =>
      cases p with
      | number =>
        have hnumber : (Regex.number .compat).Matches l.raw := h.form
        simp [Event.isUnrecognized, Event.isUnmatched, Event.isManyFractions, hslice,
          meaning_compat_eq_unrecognized_iff hnumber]
      | _ =>
        -- No other pattern may give a lexeme that is not recognised.
        have hkinds := h.suits.mem_kinds
        have hne : (meaning .compat l.raw).1 ≠ .unrecognized := by
          intro hkind
          rw [hkind] at hkinds
          exact absurd hkinds (by decide)
        simp [Event.isUnrecognized, Event.isUnmatched, Event.isManyFractions, hne]

end Lexeme

/-! ## All events of a scan -/

/-- What is not recognised is what is not matched and, under the compatible grammar, the numbers
with many fractions and no exponent. -/
theorem Event.countP_isUnrecognized (grammar : NumberGrammar) (query : Text) :
    ∀ events : List Event, events.countP (isUnrecognized grammar query)
      = events.countP isUnmatched
        + match grammar with
          | .strict => 0
          | .compat => events.countP (isManyFractions query)
  | [] => by cases grammar <;> rfl
  | e :: events => by
    have ih := countP_isUnrecognized grammar query events
    cases grammar with
    | strict => simp_all [List.countP_cons, isUnrecognized]
    | compat =>
      simp only [List.countP_cons, ih]
      cases e with
      | matched => simp [isUnrecognized, isUnmatched]; omega
      | unmatched => simp [isUnrecognized, isUnmatched, isManyFractions]; omega
      | finished => simp [isUnrecognized, isUnmatched, isManyFractions]

/-- The events of a query are those that the steps of its scan emit, one for each token and about
that token, and then one summary. The summary counts the events before it and the tokens that are
not recognised. Under the strict grammar these are the characters that no pattern fits; under the
compatible grammar the numbers with two fractions or more and no exponent come to them. -/
theorem trace_mirrors_tokenize (config : Config) (query : Text) :
    ∃ events summary, trace config query = events ++ [.finished summary] ∧
      (∀ i, events[i]? = ((Scanner.start config query).take i).2.event?) ∧
      List.Forall₂ Event.Mirrors events (tokenize config query) ∧
      summary.tokens = events.length ∧
      summary.unrecognized = (tokenize config query).countP Token.isUnrecognized ∧
      summary.unrecognized = events.countP Event.isUnmatched
        + match config.numeric with
          | .strict => 0
          | .compat => events.countP (Event.isManyFractions query) := by
  have hleads := (Scans.lexemes config query).exists_leads
  refine ⟨(lexemes config query).map Event.ofLexeme, .ofTokens (tokenize config query), rfl, ?_, ?_,
    ?_, rfl, ?_⟩
  · intro i
    have hwithin := (Scanner.within_start config query).take (n := i)
    rw [hwithin.event?_eq, List.getElem?_map, lexemes, Scanner.getElem?_drain, Option.map_map]
    rfl
  · rw [tokenize, List.forall₂_map_left_iff, List.forall₂_map_right_iff, List.forall₂_same]
    intro l hl
    obtain ⟨before, rest, -, -, hlead⟩ := hleads l hl
    exact Lexeme.mirrors_ofLexeme hlead
  · rw [Summary.ofTokens, tokenize, List.length_map, List.length_map]
  · rw [← Event.countP_isUnrecognized, Summary.ofTokens, tokenize, List.countP_map,
      List.countP_map]
    refine List.countP_congr fun l hl => ?_
    obtain ⟨before, rest, hquery, hstart, hlead⟩ := hleads l hl
    rw [Nat.zero_add] at hstart
    rw [Function.comp, Function.comp, Lexeme.isUnrecognized_ofLexeme hquery hstart hlead]

/-- A number with many fractions is matched, and it counts with the character that is not. -/
example : trace { numeric := .compat } "1.2.3#".toList =
    [.matched .number 0 5, .unmatched 5 "#".toList, .finished ⟨2, 2⟩] := by decide +kernel

end FilterQuery
