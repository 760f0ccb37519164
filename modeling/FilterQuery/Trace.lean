import FilterQuery.Program
import FilterQuery.Scanner

/-!
# Events of a scan

A scan can be followed step by step: one event for each lexeme, in order, and a summary at the end.
The events are a view of the lexemes. Nothing else is needed to tell what the scan did.

A scan that is traced writes the events to the log. Each is written where it happens: what a step
finds in that step, and the summary when all tokens have been collected. Who takes the tokens
without collecting all of them gets no summary.
-/

namespace FilterQuery

/-- How many tokens there are, and how many of them are not recognised. -/
structure Summary where
  tokens : Nat
  unrecognized : Nat
  deriving DecidableEq

/-- The summary of some tokens. -/
def Summary.ofTokens (tokens : List Token) : Summary :=
  ⟨tokens.length, tokens.countP Token.isUnrecognized⟩

/-- What happens in a scan. -/
inductive Event where
  /-- A pattern fitted: where, and how many bytes its lexeme has. -/
  | matched (pattern : Pattern) (start length : Nat)
  /-- No pattern fitted: where, and the character there in its escaped form. -/
  | unmatched (start : Nat) (character : Text)
  /-- The scan is over. -/
  | finished (summary : Summary)
  deriving DecidableEq

namespace Event

/-- The event of finding a lexeme. -/
def ofLexeme (l : Lexeme) : Event :=
  match l.pattern with
  | some pattern => matched pattern l.start (Text.size l.raw)
  | none => unmatched l.start (Text.escaped ['"', '\''] l.raw)

/-- The record of an event in the log. -/
def record : Event → Record
  | matched pattern start length =>
    { level := .trace
      message := "matched".toList
      fields :=
        [("pattern".toList, .quoted pattern.name), ("start".toList, .number start),
          ("len".toList, .number length)] }
  | unmatched start character =>
    { level := .trace
      message := "unrecognized character".toList
      fields := [("start".toList, .number start), ("character".toList, .plain character)] }
  | finished summary =>
    { level := .debug
      message := "tokenized query".toList
      fields :=
        [("tokens".toList, .number summary.tokens),
          ("unrecognized".toList, .number summary.unrecognized)] }

end Event

/-- The events of scanning a query. -/
def trace (config : Config) (query : Text) : List Event :=
  let found := lexemes config query
  found.map Event.ofLexeme
    ++ [.finished (.ofTokens (found.map (Lexeme.token config.numeric)))]

/-! ## Traced scans -/

namespace Traced

/-- Takes the next token, if there is one, and logs what was found there. -/
def next (s : Scanner) : Program (Option (Token × Scanner)) :=
  match s.next? with
  | none => return none
  | some (lexeme, after) => do
    Program.log (Event.ofLexeme lexeme).record
    return some (lexeme.token s.config.numeric, after)

/-- Takes up to a number of tokens one after the other, and keeps those that fit a condition. -/
def take (keep : Token → Bool) : Nat → Scanner → Program (List Token)
  | 0, _ => return []
  | n + 1, s => do
    match ← next s with
    | none => return []
    | some (t, after) =>
      let tokens := take keep n after
      if keep t then (t :: ·) <$> tokens else tokens

/-- Takes all tokens one after the other, and keeps those that fit a condition. -/
def collect (keep : Token → Bool) (s : Scanner) : Program (List Token) :=
  take keep s.rest.length s

/-- Takes all tokens, and logs how many there are. -/
def tokenize (s : Scanner) : Program (List Token) := do
  let tokens ← collect (fun _ => true) s
  Program.log (Event.finished (.ofTokens tokens)).record
  return tokens

/-- Takes all tokens, and then sees whether they are recognised. -/
def tokenizeStrictly (s : Scanner) : Program (Except Fault (List Token)) :=
  recognized <$> tokenize s

end Traced
end FilterQuery
