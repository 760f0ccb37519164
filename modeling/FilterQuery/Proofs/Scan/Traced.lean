import FilterQuery.Proofs.Text.Escape
import FilterQuery.Trace

/-!
# A traced scan

Tracing a scan does not change it. Whether the tokens are taken one by one or all are collected,
what comes of it is what the scanner gives without a log, and what is logged are the events of the
lexemes, in order (`Traced.collect_eq`). If all tokens of a query are collected, the log is its
trace (`Traced.tokenize_start`).

Of such a log, a reader who does not ask for everything sees the summary at most
(`shownLines_trace`), and each record takes one line, whatever characters the query is made of
(`newline_not_mem_line_trace`).
-/

namespace FilterQuery

namespace Traced

theorem next_of_eq_none {s : Scanner} (h : s.next? = none) : next s = { result := .ok none } := by
  rw [next, h]
  rfl

theorem next_of_eq_some {s after : Scanner} {l : Lexeme} (h : s.next? = some (l, after)) :
    next s =
      { effects := [.log (Event.ofLexeme l).record]
        result := .ok (some (l.token s.config.numeric, after)) } := by
  rw [next, h]
  rfl

/-- The tokens are those that the scanner takes, and there is an event for each, also for those that
are not kept. -/
theorem take_eq (keep : Token → Bool) : ∀ (n : Nat) (s : Scanner), take keep n s =
    { effects := (s.take n).1.map fun l => .log (Event.ofLexeme l).record
      result := .ok ((s.takeTokens n).1.filter keep) }
  | 0, s => rfl
  | n + 1, s => by
    cases hnext : s.next? with
    | none =>
      rw [take, next_of_eq_none hnext, Program.bind_of_ok rfl, Scanner.takeTokens, Scanner.take,
        hnext]
      rfl
    | some found =>
      obtain ⟨l, after⟩ := found
      have hconfig : after.config = s.config := (Scanner.split_of_next? hnext).2.2.2.2
      rw [take, next_of_eq_some hnext, Program.bind_of_ok rfl, Scanner.takeTokens, Scanner.take,
        hnext]
      simp only [take_eq keep n after, Scanner.takeTokens, hconfig, List.map_cons]
      cases hkeep : keep (l.token s.config.numeric) with
      | true =>
        rw [List.filter_cons_of_pos hkeep]
        rfl
      | false =>
        rw [List.filter_cons_of_neg (by simp [hkeep])]
        rfl

theorem collect_eq (keep : Token → Bool) (s : Scanner) : collect keep s =
    { effects := s.drain.1.map fun l => .log (Event.ofLexeme l).record
      result := .ok (s.drainTokens.1.filter keep) } :=
  take_eq keep s.rest.length s

variable (config : Config) (query : Text)

/-- What is logged while the tokens of a query are collected is its trace. -/
theorem tokenize_start : tokenize (Scanner.start config query) =
    { effects := (trace config query).map fun e => .log e.record
      result := .ok (FilterQuery.tokenize config query) } := by
  have htokens : (Scanner.start config query).drainTokens.1.filter (fun _ => true)
      = FilterQuery.tokenize config query :=
    List.filter_eq_self.mpr fun _ _ => rfl
  rw [tokenize, collect_eq, Program.bind_of_ok rfl, htokens]
  simp only [trace, List.map_append, List.map_map]
  rfl

theorem tokenizeStrictly_start : tokenizeStrictly (Scanner.start config query) =
    { effects := (trace config query).map fun e => .log e.record
      result := .ok (FilterQuery.tokenizeStrictly config query) } := by
  rw [tokenizeStrictly, tokenize_start]
  rfl

end Traced

/-! ## What is shown of the log -/

/-- The lines of a log that is shown up to a limit. -/
def shownLines (limit : Level) (records : List Record) : List Text :=
  (records.filter fun r => limit.shows r.level).map Record.line

theorem shownLines_append (limit : Level) (records later : List Record) :
    shownLines limit (records ++ later) = shownLines limit records ++ shownLines limit later := by
  rw [shownLines, List.filter_append, List.map_append, shownLines, shownLines]

/-- What a single step of a scan logs is left out unless all is shown. -/
theorem shownLines_ofLexeme {limit : Level} (h : limit ≠ .trace) (found : List Lexeme) :
    shownLines limit (found.map fun l => (Event.ofLexeme l).record) = [] := by
  rw [shownLines, List.map_eq_nil_iff, List.filter_eq_nil_iff, List.forall_mem_map]
  intro l hl
  have hlevel : (Event.ofLexeme l).record.level = .trace := by
    rw [Event.ofLexeme]
    split <;> rfl
  rw [hlevel]
  cases limit with
  | trace => exact absurd rfl h
  | info => decide
  | debug => decide

/-- Of the trace of a query, a reader who does not want to see all is shown the summary at most. -/
theorem shownLines_trace {limit : Level} (h : limit ≠ .trace) (config : Config) (query : Text) :
    shownLines limit ((trace config query).map Event.record)
      = shownLines limit [(Event.finished (.ofTokens (tokenize config query))).record] := by
  have hsteps := shownLines_ofLexeme h (lexemes config query)
  rw [trace, List.map_append, List.map_map, shownLines_append]
  exact congrArg (· ++ _) hsteps

/-- A record takes one line if neither its message nor a field breaks it. -/
theorem Record.newline_not_mem_line {r : Record} (hmessage : '\n' ∉ r.message)
    (hfields : ∀ f ∈ r.fields, '\n' ∉ f.1 ∧ '\n' ∉ f.2.shown) : '\n' ∉ r.line := by
  have hlevel : '\n' ∉ r.level.name.leftpad 5 ' ' := by cases r.level <;> decide
  have hall : '\n' ∉ r.fields.flatMap fun f => [' '] ++ f.1 ++ ['='] ++ f.2.shown := by
    rw [List.mem_flatMap]
    rintro ⟨f, hf, hmem⟩
    obtain ⟨hname, hvalue⟩ := hfields f hf
    simp [hname, hvalue] at hmem
  exact List.not_mem_append
    (List.not_mem_append (List.not_mem_append hlevel (by decide)) hmessage) hall

theorem newline_not_mem_decimal (n : Nat) : '\n' ∉ Text.decimal n := Text.not_mem_decimal rfl n

/-- What a step logs takes one line, whatever character it comes upon. -/
theorem newline_not_mem_line_ofLexeme (l : Lexeme) :
    '\n' ∉ (Event.ofLexeme l).record.line := by
  rw [Event.ofLexeme]
  split
  · refine Record.newline_not_mem_line (show '\n' ∉ "matched".toList by decide) ?_
    simp [Event.record, FieldValue.shown, Text.newline_not_mem_quoted, newline_not_mem_decimal]
  · refine Record.newline_not_mem_line (show '\n' ∉ "unrecognized character".toList by decide) ?_
    simp [Event.record, FieldValue.shown, Text.newline_not_mem_escaped, newline_not_mem_decimal]

theorem newline_not_mem_line_trace {config : Config} {query : Text} {e : Event}
    (h : e ∈ trace config query) : '\n' ∉ e.record.line := by
  rw [trace, List.mem_append, List.mem_singleton] at h
  rcases h with h | rfl
  · obtain ⟨l, -, rfl⟩ := List.mem_map.mp h
    exact newline_not_mem_line_ofLexeme l
  · refine Record.newline_not_mem_line (show '\n' ∉ "tokenized query".toList by decide) ?_
    simp [Event.record, FieldValue.shown, newline_not_mem_decimal]

end FilterQuery
