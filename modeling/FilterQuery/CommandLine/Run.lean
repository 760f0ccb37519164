import FilterQuery.CommandLine.Arguments
import FilterQuery.Report.Diagnostic
import FilterQuery.Report.Listing
import FilterQuery.Token.Json
import FilterQuery.Trace

/-!
# Running a command

A run turns a command line, the environment's number grammar and standard input into an exit code
and the texts for the two output channels. Nothing else goes in or out, so the whole run is a
function.

What a request asks for is done by a program (`Request.program`), verbosely or not. The log goes to
the error channel, and verbosity is the level up to which it is shown there.

| exit code | meaning |
|---|---|
| 0 | the request was carried out, or the version or help is shown |
| 1 | the query could not be read, or has tokens that are not recognised |
| 2 | the command line was refused |
-/

namespace FilterQuery.CommandLine

/-! ## What a request asks for -/

/-- The value of a result, or a failure with the message of its fault. -/
def orFail {α : Type} : Except Fault α → Program α
  | .ok a => return a
  | .error fault => Program.fail fault.message

/-- The query of a request, if it is text: the given one, or else all of standard input. -/
def Request.query? (r : Request) (stdin : ByteArray) : Option Text :=
  match r.query with
  | some query => some query
  | none => (String.fromUTF8? stdin).map String.toList

/-- The message when standard input is no text. -/
def unreadable : Text :=
  "Failed to read query from stdin\n\nCaused by:\n    ".toList
    ++ "stream did not contain valid UTF-8".toList

/-- Reads the query of a request. -/
def Request.readQuery (r : Request) (stdin : ByteArray) : Program Text :=
  match r.query? stdin with
  | some query => return query
  | none => Program.fail unreadable

/-- The tokens as they are printed. -/
def Format.print (tokens : List Token) : Format → Text
  | text => Report.listing tokens
  | json => jsonOfTokens tokens ++ ['\n']

/-- The record on the number grammar in use. -/
def configured (config : Config) : Record where
  level := .debug
  message := "lexer configured".toList
  fields := [("numeric".toList, .quoted config.numeric.name)]

/-- The record on a query that a check finds nothing wrong with. -/
def allRecognized : Record where
  level := .info
  message := "Query is free of unrecognized tokens.".toList

/-- Reports the tokens of a query that are not recognised. -/
def report (query : Text) (found : List Token) : Program Unit :=
  if found.isEmpty then do
    Program.log allRecognized
    Program.print "ok\n".toList
  else do
    (Report.diagnostics query found).forM fun d => Program.complain (d.render ++ ['\n'])
    Program.fail (Text.decimal found.length ++ " unrecognized token(s)".toList)

/-- Does something with a query. To print the tokens they are all collected first, and then looked
through if it is strict. A check takes them one by one and keeps those that are not recognised. -/
def Action.program (config : Config) (query : Text) : Action → Program Unit
  | tokenize format strict => do
    let scanner := Scanner.start config query
    let tokens ←
      if strict then Traced.tokenizeStrictly scanner >>= orFail else Traced.tokenize scanner
    Program.print (format.print tokens)
  | check => do
    let found ← Traced.collect Token.isUnrecognized (Scanner.start config query)
    report query found

/-- Does what a request asks for. -/
def Request.program (r : Request) (stdin : ByteArray) : Program Unit := do
  Program.log (configured r.config)
  let query ← r.readQuery stdin
  r.action.program r.config query

/-! ## What a run leaves behind -/

/-- What a run leaves behind. -/
structure Outcome where
  exitCode : Nat
  stdout : Text := []
  stderr : Text := []
  deriving DecidableEq

namespace Outcome

/-- The outcome of some effects and then of what follows them. -/
def after (limit : Level) (effects : List Effect) (o : Outcome) : Outcome :=
  { o with
    stdout := effects.flatMap Effect.stdout ++ o.stdout
    stderr := effects.flatMap (Effect.stderr limit) ++ o.stderr }

/-- The outcome of a result. -/
def ofResult : Except Text Unit → Outcome
  | .ok () => { exitCode := 0 }
  | .error message => { exitCode := 1, stderr := "Error: ".toList ++ message ++ ['\n'] }

/-- The outcome of a program, where the log is shown up to a limit. -/
def ofProgram (limit : Level) (p : Program Unit) : Outcome :=
  (ofResult p.result).after limit p.effects

end Outcome

/-- Carries out a request. -/
def Request.run (r : Request) (stdin : ByteArray) : Outcome :=
  .ofProgram (if r.verbose then .debug else .info) (r.program stdin)

/-! ## The command line -/

/-- The outcome when no request was made. -/
def Stop.outcome : Stop → Outcome
  | version => { exitCode := 0, stdout := "pql 0.1.0\n".toList }
  | help topic => { exitCode := 0, stdout := topic.text }
  | misuse m => { exitCode := 2, stderr := "error: ".toList ++ m.message ++ ['\n'] }

/-- Runs a command line. -/
def run (arguments : List Text) (environment : Option Text) (stdin : ByteArray) : Outcome :=
  match request arguments environment with
  | .ok r => r.run stdin
  | .error stop => stop.outcome

end FilterQuery.CommandLine
