import FilterQuery.CommandLine.Run
import FilterQuery.Proofs.Scan.Traced

/-!
# Outcomes of requests

A request is carried out in two parts. First its query is read and the tokens are taken, each action
in its own way, and nothing comes of that but records in the log (`Request.records`). Then the
outcome is shown (`Request.conclude`), which no longer depends on how much of the log is shown
(`Request.ofProgram_conclude`). So what verbosity adds are lines in front of all others
(`Request.run_eq`), and they can be told from the request and its query (`noteLines`).
-/

namespace FilterQuery.CommandLine

/-! ## Outcomes -/

namespace Outcome

/-- The outcome with lines in front of what is written to the error channel. -/
def withLines (lines : List Text) (o : Outcome) : Outcome :=
  { o with stderr := lines.flatMap (· ++ ['\n']) ++ o.stderr }

theorem after_append (limit : Level) (effects later : List Effect) (o : Outcome) :
    o.after limit (effects ++ later) = (o.after limit later).after limit effects := by
  simp only [after, List.flatMap_append, List.append_assoc]

/-- Records in the log add the lines of those that are shown. -/
theorem after_log (limit : Level) (o : Outcome) : ∀ records : List Record,
    o.after limit (records.map .log) = o.withLines (shownLines limit records)
  | [] => rfl
  | r :: records => by
    have ih := after_log limit o records
    rw [List.map_cons, ← List.singleton_append, after_append, ih, shownLines]
    cases hshows : limit.shows r.level <;>
      simp [after, withLines, shownLines, Effect.stdout, Effect.stderr, hshows]

end Outcome

/-! ## Printing and reporting -/

theorem ofProgram_print (limit : Level) (t : Text) :
    Outcome.ofProgram limit (Program.print t) = { exitCode := 0, stdout := t } := by
  simp [Outcome.ofProgram, Program.print, Outcome.after, Outcome.ofResult, Effect.stdout,
    Effect.stderr]

theorem forM_complain {α : Type} (text : α → Text) : ∀ l : List α,
    (l.forM fun a => Program.complain (text a)) =
      { effects := l.map fun a => .complain (text a), result := .ok () }
  | [] => rfl
  | a :: l => by
    rw [List.forM_eq_forM, List.forM_cons, Program.bind_of_ok rfl, ← List.forM_eq_forM,
      forM_complain text l]
    rfl

/-- A check that finds nothing says so, whatever is shown of the log. -/
theorem ofProgram_report_nil (limit : Level) (query : Text) :
    Outcome.ofProgram limit (report query []) =
      { exitCode := 0, stdout := "ok\n".toList
        stderr := " INFO Query is free of unrecognized tokens.\n".toList } := by
  cases limit <;> rfl

/-- A check that finds tokens shows their diagnostics and fails. -/
theorem ofProgram_report_cons (limit : Level) (query : Text) (t : Token) (rest : List Token) :
    Outcome.ofProgram limit (report query (t :: rest)) =
      { exitCode := 1
        stderr := ((Report.diagnostics query (t :: rest)).flatMap fun d => d.render ++ ['\n'])
          ++ "Error: ".toList ++ Text.decimal (t :: rest).length
          ++ " unrecognized token(s)\n".toList } := by
  have hreport : report query (t :: rest) =
      { effects := (Report.diagnostics query (t :: rest)).map fun d =>
          .complain (d.render ++ ['\n'])
        result := .error (Text.decimal (t :: rest).length ++ " unrecognized token(s)".toList) } := by
    rw [report, if_neg (by simp), forM_complain, Program.bind_of_ok rfl]
    simp only [Program.fail, List.append_nil]
  rw [Outcome.ofProgram, hreport]
  simp [Outcome.after, Outcome.ofResult, List.flatMap_map, Effect.stdout, Effect.stderr]

/-! ## Actions -/

namespace Action

/-- The records that are logged while the tokens of a query are taken. -/
def records (config : Config) (query : Text) : Action → List Record
  | tokenize _ _ => (trace config query).map Event.record
  | check => (lexemes config query).map fun l => (Event.ofLexeme l).record

/-- What is done when the tokens of a query have been taken. -/
def conclude (config : Config) (query : Text) : Action → Program Unit
  | tokenize format strict => do
    let tokens ←
      if strict then orFail (tokenizeStrictly config query)
      else pure (FilterQuery.tokenize config query)
    Program.print (format.print tokens)
  | check => report query ((FilterQuery.tokenize config query).filter Token.isUnrecognized)

/-- Each action goes its own way through the tokens, and all come to the tokens of the query. -/
theorem program_eq (config : Config) (query : Text) (action : Action) :
    action.program config query =
      { effects := (action.records config query).map .log ++ (action.conclude config query).effects
        result := (action.conclude config query).result } := by
  cases action with
  | check =>
    rw [program, Traced.collect_eq, Program.bind_of_ok rfl, records, List.map_map]
    rfl
  | tokenize format strict =>
    rw [records, List.map_map]
    cases strict with
    | false =>
      simp only [program, Bool.false_eq_true, ↓reduceIte]
      rw [Traced.tokenize_start, Program.bind_of_ok rfl]
      rfl
    | true =>
      simp only [program, ↓reduceIte, Program.bind_assoc]
      rw [Traced.tokenizeStrictly_start, Program.bind_of_ok rfl]
      rfl

/-- What an action shows in the end does not depend on how much of the log is shown. -/
theorem ofProgram_conclude (limit : Level) (config : Config) (query : Text) (action : Action) :
    Outcome.ofProgram limit (action.conclude config query)
      = Outcome.ofProgram .info (action.conclude config query) := by
  cases action with
  | tokenize format strict =>
    cases strict with
    | false => rfl
    | true =>
      simp only [conclude, ↓reduceIte]
      cases tokenizeStrictly config query with
      | ok tokens => rfl
      | error fault => rfl
  | check =>
    rw [conclude]
    cases (FilterQuery.tokenize config query).filter Token.isUnrecognized with
    | nil => rw [ofProgram_report_nil, ofProgram_report_nil]
    | cons t rest => rw [ofProgram_report_cons, ofProgram_report_cons]

end Action

/-! ## Requests -/

/-- The lines that only a verbose run shows of the log: one on the number grammar and, if the tokens
of a query that could be read are to be printed, one on how many there are. -/
def noteLines (config : Config) (query? : Option Text) (action : Action) : List Text :=
  (configured config).line ::
    match action, query? with
    | .tokenize _ _, some query =>
      [(Event.finished (.ofTokens (tokenize config query))).record.line]
    | _, _ => []

namespace Request

/-- The records that are logged before the outcome is shown. -/
def records (r : Request) (stdin : ByteArray) : List Record :=
  configured r.config :: (r.query? stdin).elim [] fun query => r.action.records r.config query

/-- What is done at last. -/
def conclude (r : Request) (stdin : ByteArray) : Program Unit :=
  (r.query? stdin).elim (Program.fail unreadable) fun query => r.action.conclude r.config query

theorem program_eq (r : Request) (stdin : ByteArray) : r.program stdin =
    { effects := (r.records stdin).map .log ++ (r.conclude stdin).effects
      result := (r.conclude stdin).result } := by
  rw [program, Program.bind_of_ok rfl, readQuery, records, conclude]
  cases r.query? stdin with
  | none => rfl
  | some query =>
    simp only [Option.elim_some]
    rw [Program.bind_of_ok rfl, Action.program_eq]
    rfl

/-- Each record in the log takes one line. -/
theorem newline_not_mem_line_records {r : Request} {stdin : ByteArray} {record : Record}
    (h : record ∈ r.records stdin) : '\n' ∉ record.line := by
  rw [records, List.mem_cons] at h
  rcases h with rfl | h
  · refine Record.newline_not_mem_line (show '\n' ∉ "lexer configured".toList by decide) ?_
    simp [configured, FieldValue.shown, Text.newline_not_mem_quoted]
  · cases hquery : r.query? stdin with
    | none => simp [hquery] at h
    | some query =>
      rw [hquery, Option.elim_some] at h
      cases haction : r.action with
      | tokenize format strict =>
        rw [haction] at h
        obtain ⟨e, he, rfl⟩ := List.mem_map.mp h
        exact newline_not_mem_line_trace he
      | check =>
        rw [haction] at h
        obtain ⟨l, -, rfl⟩ := List.mem_map.mp h
        exact newline_not_mem_line_ofLexeme l

/-- Of the log, a verbose run shows the notes, and a quiet run nothing. -/
theorem shownLines_records (r : Request) (stdin : ByteArray) (verbose : Bool) :
    shownLines (if verbose then .debug else .info) (r.records stdin)
      = if verbose then noteLines r.config (r.query? stdin) r.action else [] := by
  have hlimit : (if verbose then Level.debug else .info) ≠ .trace := by cases verbose <;> decide
  rw [records, ← List.singleton_append, shownLines_append]
  cases r.query? stdin with
  | none => cases verbose <;> cases r.action <;> rfl
  | some query =>
    simp only [Option.elim_some]
    cases r.action with
    | tokenize format strict =>
      rw [Action.records, shownLines_trace hlimit]
      cases verbose <;> rfl
    | check =>
      rw [Action.records, shownLines_ofLexeme hlimit]
      cases verbose <;> rfl

theorem ofProgram_conclude (limit : Level) (r : Request) (stdin : ByteArray) :
    Outcome.ofProgram limit (r.conclude stdin) = Outcome.ofProgram .info (r.conclude stdin) := by
  rw [conclude]
  cases r.query? stdin with
  | none => rfl
  | some query => exact Action.ofProgram_conclude limit r.config query r.action

/-- What a request leaves behind is the same whether it is verbose or not, but for the notes in front
of all else. -/
theorem run_eq (r : Request) (stdin : ByteArray) :
    r.run stdin = (Outcome.ofProgram .info (r.conclude stdin)).withLines
      (if r.verbose then noteLines r.config (r.query? stdin) r.action else []) := by
  rw [run, Outcome.ofProgram, program_eq, Outcome.after_append, Outcome.after_log,
    shownLines_records]
  exact congrArg (Outcome.withLines _) (ofProgram_conclude _ r stdin)

end Request

end FilterQuery.CommandLine
