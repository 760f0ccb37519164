import FilterQuery.Scanner

/-!
# Reading tokens with lookahead

A cursor moves over the tokens of a query for a reader who decides by the token ahead. It starts in
front of the first token. Each move turns the token ahead into the current one and takes the next
token from the reading position.

Looking further ahead (`peek`, `glimpse`) counts from the reading position and moves nothing. The
reading position may be set to any number: it concerns the moves that follow, not the two tokens
already taken.

## Termination

A move with a token ahead brings the cursor nearer to its end: either the reading position goes up,
or there is no token ahead any more (`left_advance_lt`).
-/

namespace FilterQuery

/-- A place among the tokens of a query. -/
structure Cursor where
  tokens : Array Token := #[]
  config : Config := {}
  /-- The reading position: the index of the token that the next move takes. -/
  position : Nat := 0
  /-- How far beyond the reading position the next peek looks. -/
  peekOffset : Nat := 0
  /-- The index of the token ahead. -/
  aheadIndex : Option Nat := none
  /-- The index of the current token. -/
  currentIndex : Option Nat := none

namespace Cursor

/-- The same cursor in front of its first token. -/
def reset (c : Cursor) : Cursor :=
  { c with position := 0, peekOffset := 0, aheadIndex := none, currentIndex := none }

/-- A cursor in front of the first token of another query, read in the same way. -/
def load (c : Cursor) (query : Text) : Cursor :=
  { c with tokens := (tokenize c.config query).toArray }.reset

/-- A cursor in front of the first token of a query. -/
def ofQuery (config : Config) (query : Text) : Cursor := ({ config } : Cursor).load query

/-! ## The tokens in view -/

/-- The current token. -/
def current? (c : Cursor) : Option Token := c.currentIndex.bind fun i => c.tokens[i]?

/-- The token ahead. -/
def ahead? (c : Cursor) : Option Token := c.aheadIndex.bind fun i => c.tokens[i]?

/-- Whether the token ahead is of a given kind. -/
def isAhead (c : Cursor) (kind : Kind) : Bool := c.ahead?.any (Token.is · kind)

/-- Whether the token ahead is of one of some kinds. -/
def isAheadAny (c : Cursor) (kinds : List Kind) : Bool :=
  c.ahead?.any fun t => kinds.contains t.kind

/-! ## Moving -/

/-- One move: the token ahead becomes the current one, and the token at the reading position comes
into view. -/
def advance (c : Cursor) : Cursor :=
  let moved := { c with peekOffset := 0, currentIndex := c.aheadIndex }
  if c.position < c.tokens.size then
    { moved with aheadIndex := some c.position, position := c.position + 1 }
  else { moved with aheadIndex := none }

/-- Whether a move brings a token into view. -/
def advances (c : Cursor) : Bool := c.advance.aheadIndex.isSome

/-- Sets the reading position and changes nothing else. -/
def setPosition (c : Cursor) (position : Nat) : Cursor := { c with position }

/-- The moves that are left while there is a token ahead. -/
def left (c : Cursor) : Nat := (c.tokens.size - c.position) + if c.aheadIndex.isSome then 1 else 0

theorem left_advance_lt {c : Cursor} (h : c.aheadIndex.isSome = true) :
    c.advance.left < c.left := by
  by_cases hlt : c.position < c.tokens.size
  · simp [left, advance, hlt, h]
    omega
  · simp [left, advance, hlt, h]

/-- Moves until the token ahead is of a given kind or there is none. -/
def skipUntil (c : Cursor) (kind : Kind) : Cursor :=
  if c.aheadIndex.isSome && !c.isAhead kind then skipUntil c.advance kind else c
termination_by c.left
decreasing_by exact left_advance_lt (by simp_all)

/-- Moves while there is a token ahead, and gives those tokens. -/
def drain (c : Cursor) : List Token × Cursor :=
  match _h : c.ahead? with
  | some t =>
    let (tokens, last) := drain c.advance
    (t :: tokens, last)
  | none => ([], c)
termination_by c.left
decreasing_by
  refine left_advance_lt ?_
  obtain ⟨i, hi, _⟩ := Option.bind_eq_some_iff.mp _h
  simp [hi]

/-- The tokens from the reading position on, and the cursor behind them. -/
def remaining (c : Cursor) : List Token × Cursor := c.advance.drain

/-- Takes the token ahead if it is of the given kind. Else the cursor stays as it is. -/
def expect (c : Cursor) (kind : Kind) : Except Fault Token × Cursor :=
  match c.ahead? with
  | some t => if t.is kind then (.ok t, c.advance) else (.error (.ofUnexpected kind t), c)
  | none => (.error (.unexpectedEnd kind), c)

/-! ## Peeking -/

/-- Starts peeking at the reading position again. -/
def resetPeek (c : Cursor) : Cursor := { c with peekOffset := 0 }

/-- The token where the next peek looks. -/
def peekTarget? (c : Cursor) : Option Token := c.tokens[c.position + c.peekOffset]?

/-- Looks one token further than the last peek did. -/
def peek (c : Cursor) : Option Token × Cursor :=
  match c.peekTarget? with
  | some t => (some t, { c with peekOffset := c.peekOffset + 1 })
  | none => (none, c)

/-- Looks one token further than the last peek did, and starts peeking again. -/
def glimpse (c : Cursor) : Option Token × Cursor := (c.peekTarget?, c.resetPeek)

end Cursor
end FilterQuery
