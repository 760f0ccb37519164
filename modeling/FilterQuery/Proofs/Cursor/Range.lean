import FilterQuery.Proofs.Cursor.Requests

/-!
# A cursor stays within its tokens

A cursor keeps the places of two tokens, the one ahead and the current one. The reading position may
be set to any number and the tokens may be exchanged for fewer ones, but the two places always hold
a token (`InRange`): a move takes the place ahead from a reading position that it has compared with
the number of tokens, and other tokens come with an empty view.

The tokens themselves are those of the query that was loaded last, read as the cursor was configured
in the beginning (`Sound`).
-/

namespace FilterQuery
namespace Cursor

/-! ## Places that hold a token -/

/-- The places that a cursor keeps are places of its tokens. -/
structure InRange (c : Cursor) : Prop where
  ahead : ∀ i, c.aheadIndex = some i → i < c.tokens.size
  current : ∀ i, c.currentIndex = some i → i < c.tokens.size

variable {c : Cursor}

@[simp] theorem tokens_advance (c : Cursor) : c.advance.tokens = c.tokens := by
  unfold advance
  split <;> rfl

@[simp] theorem config_advance (c : Cursor) : c.advance.config = c.config := by
  unfold advance
  split <;> rfl

@[simp] theorem currentIndex_advance (c : Cursor) : c.advance.currentIndex = c.aheadIndex := by
  unfold advance
  split <;> rfl

theorem aheadIndex_advance (c : Cursor) :
    c.advance.aheadIndex = if c.position < c.tokens.size then some c.position else none := by
  unfold advance
  split <;> rfl

theorem position_advance (c : Cursor) :
    c.advance.position = if c.position < c.tokens.size then c.position + 1 else c.position := by
  unfold advance
  split <;> rfl

theorem InRange.reset (c : Cursor) : c.reset.InRange where
  ahead := nofun
  current := nofun

theorem InRange.advance (h : c.InRange) : c.advance.InRange where
  ahead := by
    intro i hi
    rw [aheadIndex_advance] at hi
    split at hi
    · next hlt =>
      obtain rfl := Option.some.inj hi
      rwa [tokens_advance]
    · exact absurd hi nofun
  current := by
    intro i hi
    rw [currentIndex_advance] at hi
    rw [tokens_advance]
    exact h.ahead i hi

/-! ## Where the tokens come from -/

/-- How a cursor comes about. -/
inductive Origin where
  /-- Without a query. -/
  | blank
  /-- In front of the first token of a query. -/
  | ofQuery (config : Config) (query : Text)
  deriving DecidableEq

namespace Origin

def cursor : Origin → Cursor
  | .blank => {}
  | .ofQuery config query => Cursor.ofQuery config query

def config : Origin → Config
  | .blank => {}
  | .ofQuery config _ => config

def query? : Origin → Option Text
  | .blank => none
  | .ofQuery _ query => some query

end Origin

def Request.query? : Request → Option Text
  | .load query => some query
  | _ => none

/-- The query that has been loaded last, if there is one. -/
def Origin.lastQuery? (origin : Origin) (requests : List Request) : Option Text :=
  requests.foldl (fun last r => r.query?.or last) origin.query?

/-- The tokens of a cursor that may have a query. -/
def tokensOf (config : Config) : Option Text → List Token
  | none => []
  | some query => tokenize config query

/-- A cursor is as it was configured, has the tokens of a query and keeps places of these only. -/
structure Sound (config : Config) (query? : Option Text) (c : Cursor) : Prop where
  configured : c.config = config
  tokens : c.tokens.toList = tokensOf config query?
  inRange : c.InRange

namespace Sound

variable {config : Config} {query? : Option Text}

theorem of_origin (origin : Origin) : origin.cursor.Sound origin.config origin.query? := by
  cases origin with
  | blank => exact ⟨rfl, rfl, .reset {}⟩
  | ofQuery config query => exact ⟨rfl, rfl, .reset _⟩

theorem advance (h : c.Sound config query?) : c.advance.Sound config query? where
  configured := (config_advance c).trans h.configured
  tokens := by rw [tokens_advance, h.tokens]
  inRange := h.inRange.advance

theorem iterate (h : c.Sound config query?) (n : Nat) :
    (Cursor.advance^[n] c).Sound config query? := by
  induction n generalizing c with
  | zero => exact h
  | succ n ih => exact ih h.advance

/-- Where the next peek looks is of no concern. -/
theorem of_resetPeek {d : Cursor} (h : c.Sound config query?) (hd : d.resetPeek = c.resetPeek) :
    d.Sound config query? := by
  rw [eq_of_resetPeek hd]
  exact ⟨h.configured, h.tokens, ⟨h.inRange.ahead, h.inRange.current⟩⟩

theorem serve (h : c.Sound config query?) (r : Request) :
    (c.serve r).Sound config (r.query?.or query?) := by
  cases r with
  | reset => exact ⟨h.configured, h.tokens, .reset c⟩
  | setPosition position => exact ⟨h.configured, h.tokens, ⟨h.inRange.ahead, h.inRange.current⟩⟩
  | load query =>
    refine ⟨h.configured, ?_, .reset _⟩
    show (tokenize c.config query).toArray.toList = tokenize config query
    rw [h.configured]
  | _ => exact (h.iterate _).of_resetPeek (serve_resetPeek c rfl)

theorem serveAll (h : c.Sound config query?) (requests : List Request) :
    (c.serveAll requests).Sound config
      (requests.foldl (fun last r => r.query?.or last) query?) := by
  induction requests generalizing c query? with
  | nil => exact h
  | cons r requests ih => exact ih (h.serve r)

theorem of_serveAll (origin : Origin) (requests : List Request) :
    (origin.cursor.serveAll requests).Sound origin.config (origin.lastQuery? requests) :=
  (of_origin origin).serveAll requests

end Sound

/-! ## What is in view -/

theorem InRange.current?_eq (h : c.InRange) {i : Nat} (hi : c.currentIndex = some i) :
    ∃ hlt : i < c.tokens.size, c.current? = some c.tokens[i] := by
  have hlt : i < c.tokens.size := h.current i hi
  refine ⟨hlt, ?_⟩
  rw [current?, hi, Option.bind_some, Array.getElem?_eq_getElem hlt]

theorem InRange.ahead?_eq (h : c.InRange) {i : Nat} (hi : c.aheadIndex = some i) :
    ∃ hlt : i < c.tokens.size, c.ahead? = some c.tokens[i] := by
  have hlt : i < c.tokens.size := h.ahead i hi
  refine ⟨hlt, ?_⟩
  rw [ahead?, hi, Option.bind_some, Array.getElem?_eq_getElem hlt]

end Cursor

/-- Whatever has been asked of a cursor, in any order and with any reading position set: it is as it
was configured and has the tokens of the query that was loaded last, and the places that it keeps
are places of these tokens. So the current token and the token ahead can be read, and so they are
when it is asked whether the token ahead is of some kind. -/
theorem cursor_stays_in_range (origin : Cursor.Origin) (requests : List Cursor.Request) :
    let c := origin.cursor.serveAll requests
    c.config = origin.config ∧
    c.tokens.toList = Cursor.tokensOf origin.config (origin.lastQuery? requests) ∧
    (∀ i, c.currentIndex = some i →
      ∃ h : i < c.tokens.size, c.current? = some c.tokens[i]) ∧
    ∀ i, c.aheadIndex = some i →
      ∃ h : i < c.tokens.size, c.ahead? = some c.tokens[i] ∧
        (∀ kind, c.isAhead kind = c.tokens[i].is kind) ∧
        ∀ kinds, c.isAheadAny kinds = kinds.contains c.tokens[i].kind := by
  intro c
  have hsound : c.Sound origin.config (origin.lastQuery? requests) :=
    .of_serveAll origin requests
  refine ⟨hsound.configured, hsound.tokens, fun i hi => hsound.inRange.current?_eq hi, ?_⟩
  intro i hi
  obtain ⟨hlt, hahead⟩ := hsound.inRange.ahead?_eq hi
  refine ⟨hlt, hahead, fun kind => ?_, fun kinds => ?_⟩
  · rw [Cursor.isAhead, hahead, Option.any_some]
  · rw [Cursor.isAheadAny, hahead, Option.any_some]

/-- A query gives way to a shorter one while the reading position is beyond both. -/
example :
    let c := (Cursor.Origin.ofQuery {} "a = 1".toList).cursor.serveAll
      [.advance, .advance, .setPosition 9, .load "b".toList, .setPosition 1, .advance, .peek]
    (c.aheadIndex, c.currentIndex, c.position, c.tokens.size) = (none, none, 1, 1) := by decide

end FilterQuery
