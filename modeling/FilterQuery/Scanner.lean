import FilterQuery.Lexeme.Basic
import FilterQuery.Lexeme.SubQuery.Finder
import FilterQuery.Text.Blank
import FilterQuery.Token.Fault

/-!
# Scanning

A scanner stands somewhere in a query and hands out the lexemes from there on. Blanks separate
lexemes and belong to none. Every other character belongs to exactly one, so scanning never fails:
where no pattern fits, the next character is a lexeme by itself.

## Termination

A lexeme takes at least one character, so a query has no more lexemes than characters. `drain` takes
as many lexemes as there are characters left, which is therefore all of them.
-/

namespace FilterQuery

/-- A place in a query, with the text from there on. -/
structure Scanner where
  config : Config
  /-- Bytes of the query before the place. -/
  offset : Nat := 0
  /-- The query from the place on. -/
  rest : Text
  finder : SubQuery.Finder := {}

namespace Scanner

/-- A scanner at the start of a query. -/
def start (config : Config) (query : Text) : Scanner := { config, rest := query }

/-- The same scanner at the start of another query. -/
def restart (s : Scanner) (query : Text) : Scanner := start s.config query

/-- The next lexeme, and the scanner behind it. -/
def next? (s : Scanner) : Option (Lexeme × Scanner) :=
  let start := s.offset + Text.size (Text.blanks s.rest)
  match Text.skipBlanks s.rest with
  | [] => none
  | c :: rest =>
    let (subQuery, finder) := s.finder.cut? start (c :: rest)
    let (pattern, raw, after) :=
      match subQuery with
      | some (raw, after) => (some .subQuery, raw, after)
      | none =>
        match Pattern.first? s.config.numeric (c :: rest) with
        | some (pattern, raw, after) => (some pattern, raw, after)
        | none => (none, [c], rest)
    some ({ pattern, raw, start },
      { s with offset := start + Text.size raw, rest := after, finder })

/-- The next lexeme comes after the blanks, and the scanner behind it stands where it ends. -/
theorem split_of_next? {s after : Scanner} {lexeme : Lexeme} (h : s.next? = some (lexeme, after)) :
    s.rest = Text.blanks s.rest ++ lexeme.raw ++ after.rest ∧ lexeme.raw ≠ [] ∧
      lexeme.start = s.offset + Text.size (Text.blanks s.rest) ∧
      after.offset = lexeme.start + Text.size lexeme.raw ∧ after.config = s.config := by
  unfold next? at h
  have hblanks := Text.blanks_append_skipBlanks s.rest
  cases hskip : Text.skipBlanks s.rest with
  | nil => simp [hskip] at h
  | cons c rest =>
    simp only [hskip, Option.some.injEq, Prod.mk.injEq] at h
    obtain ⟨rfl, rfl⟩ := h
    rw [hskip] at hblanks
    refine ⟨?_, ?_, rfl, rfl, rfl⟩
    · rw [List.append_assoc]
      refine hblanks.symm.trans (congrArg _ ?_)
      split
      · next heq => exact (SubQuery.Finder.append_of_cut? heq).1.symm
      · split
        · next heq => exact (Pattern.append_of_cut? (Pattern.cut?_of_first? heq).2).1.symm
        · rfl
    · split
      · next heq => exact (SubQuery.Finder.append_of_cut? heq).2
      · split
        · next heq => exact (Pattern.append_of_cut? (Pattern.cut?_of_first? heq).2).2
        · exact List.cons_ne_nil c []

theorem length_rest_lt_of_next? {s after : Scanner} {lexeme : Lexeme}
    (h : s.next? = some (lexeme, after)) : after.rest.length < s.rest.length := by
  obtain ⟨hrest, hraw, -⟩ := split_of_next? h
  have hlen := congrArg List.length hrest
  have hpos := List.length_pos_iff.mpr hraw
  simp only [List.length_append] at hlen
  omega

/-- There is no next lexeme exactly when nothing but blanks is left. -/
theorem next?_eq_none_iff {s : Scanner} : s.next? = none ↔ Text.skipBlanks s.rest = [] := by
  unfold next?
  cases Text.skipBlanks s.rest <;> simp

/-! ## Several lexemes -/

/-- Up to a given number of lexemes, and the scanner behind them. -/
def take : Nat → Scanner → List Lexeme × Scanner
  | 0, s => ([], s)
  | n + 1, s =>
    match s.next? with
    | none => ([], s)
    | some (lexeme, s) =>
      let (lexemes, s) := take n s
      (lexeme :: lexemes, s)

/-- All lexemes from the place on, and the scanner behind them. -/
def drain (s : Scanner) : List Lexeme × Scanner := take s.rest.length s

/-- Asking for more lexemes than there are characters makes no difference. -/
theorem take_eq_drain : ∀ {n : Nat} {s : Scanner}, s.rest.length ≤ n → take n s = s.drain
  | 0, s, h => by rw [drain, Nat.le_zero.mp h]
  | n + 1, s, h => by
    cases hnext : s.next? with
    | none => cases hlen : s.rest.length <;> simp [drain, take, hnext, hlen]
    | some found =>
      obtain ⟨lexeme, after⟩ := found
      have hlt := length_rest_lt_of_next? hnext
      obtain ⟨m, hm⟩ : ∃ m, s.rest.length = m + 1 := ⟨s.rest.length - 1, by omega⟩
      have h1 : take n after = after.drain := take_eq_drain (by omega)
      have h2 : take m after = after.drain := take_eq_drain (by omega)
      simp [drain, hm, take, hnext, h1, h2]

theorem drain_of_next?_eq_none {s : Scanner} (h : s.next? = none) : s.drain = ([], s) := by
  rw [← take_eq_drain (Nat.le_succ s.rest.length), take, h]

theorem drain_of_next?_eq_some {s after : Scanner} {lexeme : Lexeme}
    (h : s.next? = some (lexeme, after)) :
    s.drain = (lexeme :: after.drain.1, after.drain.2) := by
  have hlt := length_rest_lt_of_next? h
  rw [← take_eq_drain (Nat.le_succ s.rest.length), take, h]
  simp only
  rw [take_eq_drain (Nat.le_of_lt hlt)]

/-- Nothing is left after all lexemes have been taken. -/
theorem next?_drain (s : Scanner) : s.drain.2.next? = none := by
  cases h : s.next? with
  | none => rw [drain_of_next?_eq_none h, h]
  | some found =>
    rw [drain_of_next?_eq_some h]
    exact next?_drain found.2
termination_by s.rest.length
decreasing_by exact length_rest_lt_of_next? h

/-! ## Tokens -/

/-- The next token, and the scanner behind it. -/
def nextToken? (s : Scanner) : Option (Token × Scanner) :=
  s.next?.map fun (lexeme, after) => (lexeme.token s.config.numeric, after)

/-- Up to a given number of tokens, and the scanner behind them. -/
def takeTokens (n : Nat) (s : Scanner) : List Token × Scanner :=
  let (lexemes, after) := s.take n
  (lexemes.map (Lexeme.token s.config.numeric), after)

/-- All tokens from the place on, and the scanner behind them. -/
def drainTokens (s : Scanner) : List Token × Scanner :=
  let (lexemes, after) := s.drain
  (lexemes.map (Lexeme.token s.config.numeric), after)

/-- All tokens from the place on, if they are recognised, and the scanner behind them in any
case. -/
def drainRecognized (s : Scanner) : Except Fault (List Token) × Scanner :=
  let (tokens, after) := s.drainTokens
  (recognized tokens, after)

end Scanner

/-- The lexemes of a query. -/
def lexemes (config : Config) (query : Text) : List Lexeme := (Scanner.start config query).drain.1

/-- The tokens of a query. -/
def tokenize (config : Config) (query : Text) : List Token :=
  (lexemes config query).map (Lexeme.token config.numeric)

/-- The tokens of a query, if all of them are recognised. -/
def tokenizeStrictly (config : Config) (query : Text) : Except Fault (List Token) :=
  recognized (tokenize config query)

end FilterQuery
