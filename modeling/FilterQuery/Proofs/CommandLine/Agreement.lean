import FilterQuery.Proofs.CommandLine.Outcome
import FilterQuery.Proofs.Report.Diagnostic
import FilterQuery.Proofs.Scan.Session

/-!
# The views of one query agree

A query may be checked, or its tokens printed, strictly or not. Each of these is a run of its own,
with the query given as an argument or on standard input, and each goes its own way through the
tokens: a check takes them one by one and keeps those that are not recognised, printing collects all
of them, and strict printing looks through what was collected for the first that is not recognised.
They come to the same verdict (`run_agreement`): the query is accepted by a check and by strict
printing exactly if all of its tokens are recognised, and otherwise both name the same first token
that is not.

What a run leaves behind depends on the command line only through what it asks for
(`Invocation.Asks`, `Invocation.outcome_eq`), and all three ways lead to the tokens of the query
(`Action.program_eq`). So the outcomes are compared for the tokens alone, by the list of those that
are not recognised.
-/

namespace FilterQuery

/-! ## Diagnostics -/

namespace Report

variable {query : Text} {tokens : List Token}

/-- Whether a diagnostic is the one for a token of a query. -/
def Diagnostic.IsFor (query : Text) (t : Token) (d : Diagnostic) : Prop := ofToken? query t = some d

/-- If there is a diagnostic for each of some tokens, these diagnostics are shown, in the order of
the tokens. -/
theorem forall₂_diagnostics (h : ∀ t ∈ tokens, ∃ d, Diagnostic.IsFor query t d) :
    List.Forall₂ (Diagnostic.IsFor query) tokens (diagnostics query tokens) := by
  induction tokens with
  | nil => exact .nil
  | cons t tokens ih =>
    rw [List.forall_mem_cons] at h
    obtain ⟨⟨d, hd⟩, htokens⟩ := h
    rw [diagnostics, List.filterMap_cons_some hd]
    exact .cons hd (ih htokens)

theorem forall₂_diagnostics_tokenize {config : Config}
    (h : tokens ⊆ tokenize config query) :
    List.Forall₂ (Diagnostic.IsFor query) tokens (diagnostics query tokens) := by
  refine forall₂_diagnostics fun t ht => ?_
  obtain ⟨p, before, rest, later, hplaced⟩ := exists_placed_of_mem (h ht)
  exact ⟨_, hplaced.diagnostic⟩

end Report

/-! ## Outcomes for some tokens -/

variable {tokens rest : List Token} {t : Token}

theorem filter_isUnrecognized_eq_nil_iff :
    tokens.filter Token.isUnrecognized = [] ↔ ∀ t ∈ tokens, t.kind ≠ .unrecognized := by
  rw [List.filter_eq_nil_iff]
  exact forall₂_congr fun t _ => decide_eq_true_iff.not

/-- The fault is that of the first token that is not recognised. -/
theorem recognized_of_filter_eq_cons (h : tokens.filter Token.isUnrecognized = t :: rest) :
    recognized tokens = .error (.ofUnrecognized t) := by
  rw [recognized, ← List.head?_filter, h]
  rfl

namespace CommandLine

variable {config : Config} {query : Text}

theorem conclude_tokenize_of_filter_eq_nil (format : Format) (strict : Bool)
    (h : (tokenize config query).filter Token.isUnrecognized = []) :
    Outcome.ofProgram .info (Action.conclude config query (.tokenize format strict)) =
      { exitCode := 0, stdout := format.print (tokenize config query) } := by
  have hstrict : tokenizeStrictly config query = .ok (tokenize config query) :=
    recognized_of_all (filter_isUnrecognized_eq_nil_iff.mp h)
  have hprint : Action.conclude config query (.tokenize format strict)
      = Program.print (format.print (tokenize config query)) := by
    cases strict with
    | false => rfl
    | true =>
      simp only [Action.conclude, hstrict]
      rfl
  rw [hprint, ofProgram_print]

theorem conclude_tokenize_of_filter_eq_cons (format : Format)
    (h : (tokenize config query).filter Token.isUnrecognized = t :: rest) :
    Outcome.ofProgram .info (Action.conclude config query (.tokenize format true)) =
      { exitCode := 1
        stderr := "Error: Unrecognized token '".toList ++ t.raw ++ "' at position ".toList
          ++ t.span.display ++ ['\n'] } := by
  have hstrict : tokenizeStrictly config query = .error (.ofUnrecognized t) :=
    recognized_of_filter_eq_cons h
  simp only [Action.conclude, hstrict]
  rfl

/-! ## Invocations -/

/-- What the program is given when it is run. -/
structure Invocation where
  arguments : List Text
  environment : Option Text := none
  stdin : ByteArray := .empty

namespace Invocation

/-- The outcome of a run. -/
def outcome (i : Invocation) : Outcome := run i.arguments i.environment i.stdin

/-- Whether something is to be done with a query, verbosely or not, wherever the query comes
from. -/
def Asks (i : Invocation) (config : Config) (verbose : Bool) (action : Action) (query : Text) :
    Prop :=
  ∃ r, request i.arguments i.environment = .ok r ∧ r.config = config ∧ r.verbose = verbose ∧
    r.action = action ∧ r.query? i.stdin = some query

/-- A command line for an action under a number grammar, up to the query. -/
def commandLine (config : Config) : Action → List Text
  | .tokenize format strict =>
    ["tokenize".toList, "--numeric".toList, config.numeric.name, "--format".toList, format.name]
      ++ if strict then ["--strict".toList] else []
  | .check => ["check".toList, "--numeric".toList, config.numeric.name]

/-- The query is given as an argument. It comes behind the end of the options, since it may look
like one. -/
def ofArgument (config : Config) (action : Action) (query : Text) : Invocation where
  arguments := commandLine config action ++ ["--".toList, query]

/-- The query is given on standard input, in UTF-8. -/
def ofInput (config : Config) (action : Action) (query : Text) : Invocation where
  arguments := commandLine config action
  stdin := (String.ofList query).toUTF8

theorem request_commandLine (config : Config) (action : Action) (given : Option Text) :
    request (commandLine config action ++ given.elim [] fun query => ["--".toList, query]) none =
      .ok { config, verbose := false, action, query := given } := by
  obtain ⟨numeric⟩ := config
  cases action with
  | check => cases numeric <;> cases given <;> rfl
  | tokenize format strict =>
    cases numeric <;> cases format <;> cases strict <;> cases given <;> rfl

theorem asks_ofArgument (config : Config) (action : Action) (query : Text) :
    (ofArgument config action query).Asks config false action query :=
  ⟨_, request_commandLine config action (some query), rfl, rfl, rfl, rfl⟩

/-- The text is read back from its bytes. -/
theorem map_toList_fromUTF8? (query : Text) :
    (String.fromUTF8? (String.ofList query).toUTF8).map String.toList = some query := by
  have hvalid : (String.ofList query).toUTF8.IsValidUTF8 := (String.ofList query).isValidUTF8
  rw [String.fromUTF8?, dif_pos hvalid, Option.map_some]
  exact congrArg some String.toList_ofList

theorem asks_ofInput (config : Config) (action : Action) (query : Text) :
    (ofInput config action query).Asks config false action query := by
  have hrequest := request_commandLine config action none
  rw [Option.elim_none, List.append_nil] at hrequest
  exact ⟨_, hrequest, rfl, rfl, rfl, map_toList_fromUTF8? query⟩

end Invocation

/-- The notes in front of what an action writes. -/
def notes (config : Config) (verbose : Bool) (query : Text) (action : Action) : Text :=
  (if verbose then noteLines config (some query) action else []).flatMap (· ++ ['\n'])

/-- The outcome of a run depends on what is asked for only. -/
theorem Invocation.outcome_eq {i : Invocation} {config : Config} {verbose : Bool} {action : Action}
    {query : Text} (h : i.Asks config verbose action query) :
    i.outcome = (Outcome.ofProgram .info (action.conclude config query)).withLines
      (if verbose then noteLines config (some query) action else []) := by
  obtain ⟨r, hrequest, rfl, rfl, rfl, hquery⟩ := h
  rw [outcome, run, hrequest]
  simp only [Request.run_eq, Request.conclude, hquery, Option.elim_some]

/-! ## Agreement -/

/-- What is common to the outcomes of checking a query, of printing its tokens strictly, and of
printing them as they are. -/
structure Agreement (query : Text) (tokens : List Token) (checkNotes strictNotes : Text)
    (check strict plain : Outcome) : Prop where
  check_accepts : check.exitCode = 0 ↔ strict.exitCode = 0
  strict_accepts : strict.exitCode = 0 ↔ ∀ t ∈ tokens, t.kind ≠ .unrecognized
  plain_accepts : plain.exitCode = 0
  accepted : strict.exitCode = 0 → strict.stdout = plain.stdout ∧ check.stdout = "ok\n".toList
  refused : strict.exitCode ≠ 0 →
    check.exitCode = 1 ∧ strict.exitCode = 1 ∧ check.stdout = [] ∧ strict.stdout = []
  /-- If it refuses a query, a check shows a diagnostic for each token that is not recognised, in
  the order of the query, and then how many there are. Strict printing names the token of the first
  of them. -/
  named : strict.exitCode ≠ 0 → ∃ t rest shown,
    tokens.filter Token.isUnrecognized = t :: rest ∧
    List.Forall₂ (Report.Diagnostic.IsFor query) (t :: rest) shown ∧
    check.stderr = checkNotes ++ (shown.flatMap fun d => d.render ++ ['\n']) ++ "Error: ".toList
      ++ Text.decimal (t :: rest).length ++ " unrecognized token(s)\n".toList ∧
    strict.stderr = strictNotes ++ "Error: Unrecognized token '".toList ++ t.raw
      ++ "' at position ".toList ++ t.span.display ++ ['\n']

theorem agreement_conclude (config : Config) (query : Text) (format : Format)
    (checkLines strictLines plainLines : List Text) :
    Agreement query (tokenize config query) (checkLines.flatMap (· ++ ['\n']))
      (strictLines.flatMap (· ++ ['\n']))
      ((Outcome.ofProgram .info (Action.conclude config query .check)).withLines checkLines)
      ((Outcome.ofProgram .info (Action.conclude config query (.tokenize format true))).withLines
        strictLines)
      ((Outcome.ofProgram .info (Action.conclude config query (.tokenize format false))).withLines
        plainLines) := by
  have hcheck : Action.conclude config query .check
      = report query ((tokenize config query).filter Token.isUnrecognized) := rfl
  rw [hcheck]
  cases hfound : (tokenize config query).filter Token.isUnrecognized with
  | nil =>
    rw [ofProgram_report_nil, conclude_tokenize_of_filter_eq_nil format true hfound,
      conclude_tokenize_of_filter_eq_nil format false hfound]
    exact {
      check_accepts := Iff.rfl
      strict_accepts := iff_of_true rfl (filter_isUnrecognized_eq_nil_iff.mp hfound)
      plain_accepts := rfl
      accepted := fun _ => ⟨rfl, rfl⟩
      refused := fun h => absurd rfl h
      named := fun h => absurd rfl h }
  | cons t rest =>
    have hmem : t :: rest ⊆ tokenize config query := by
      rw [← hfound]
      exact List.filter_subset_self _
    have hsome : ¬ ∀ t ∈ tokenize config query, t.kind ≠ .unrecognized := by
      rw [← filter_isUnrecognized_eq_nil_iff, hfound]
      exact List.cons_ne_nil t rest
    rw [ofProgram_report_cons, conclude_tokenize_of_filter_eq_cons format hfound]
    exact {
      check_accepts := Iff.rfl
      strict_accepts := iff_of_false Nat.one_ne_zero hsome
      plain_accepts := rfl
      accepted := fun h => absurd h Nat.one_ne_zero
      refused := fun _ => ⟨rfl, rfl, rfl, rfl⟩
      named := fun _ => ⟨t, rest, _, hfound, Report.forall₂_diagnostics_tokenize hmem,
        by simp [Outcome.withLines], by simp [Outcome.withLines]⟩ }

/-- Every query can be given as an argument and on standard input, under either number grammar. And
however it is given, the outcomes of checking it, of printing its tokens strictly and of printing
them as they are agree. -/
theorem run_agreement (config : Config) (query : Text) :
    (∀ action, (Invocation.ofArgument config action query).Asks config false action query ∧
      (Invocation.ofInput config action query).Asks config false action query) ∧
    ∀ (format : Format) (check strict plain : Invocation) (u v w : Bool),
      check.Asks config u .check query → strict.Asks config v (.tokenize format true) query →
      plain.Asks config w (.tokenize format false) query →
        Agreement query (tokenize config query) (notes config u query .check)
          (notes config v query (.tokenize format true)) check.outcome strict.outcome
          plain.outcome := by
  refine ⟨fun action => ⟨Invocation.asks_ofArgument config action query,
    Invocation.asks_ofInput config action query⟩, ?_⟩
  intro format check strict plain u v w hcheck hstrict hplain
  rw [Invocation.outcome_eq hcheck, Invocation.outcome_eq hstrict, Invocation.outcome_eq hplain]
  exact agreement_conclude config query format _ _ _

/-- A query with two tokens that are not recognised, one of them of several characters. It is
checked as an argument, verbosely and under the number grammar of the environment, and printed
strictly from standard input. -/
theorem run_agreement_of_fragments :
    (run ["-v".toList, "check".toList, "a # 1.2.3".toList] (some "compat".toList) .empty).exitCode
        = 1 ∧
      (Invocation.ofInput { numeric := .compat } (.tokenize .text true)
        "a # 1.2.3".toList).outcome.exitCode = 1 := by
  obtain ⟨hasks, hagree⟩ := run_agreement { numeric := .compat } "a # 1.2.3".toList
  have hviews := hagree .text
    { arguments := ["-v".toList, "check".toList, "a # 1.2.3".toList]
      environment := some "compat".toList }
    (Invocation.ofInput { numeric := .compat } (.tokenize .text true) "a # 1.2.3".toList)
    (Invocation.ofArgument { numeric := .compat } (.tokenize .text false) "a # 1.2.3".toList)
    true false false ⟨_, rfl, rfl, rfl, rfl, rfl⟩ (hasks _).2 (hasks _).1
  have hrefused := hviews.refused (hviews.strict_accepts.not.mpr (by decide))
  exact ⟨hrefused.1, hrefused.2.1⟩

end CommandLine
end FilterQuery
