import FilterQuery.Cursor
import Mathlib.Logic.Function.Iterate

/-!
# A cursor in use

What a reader may ask of a cursor, and how many moves the cursor makes for it.

A request either sets the cursor to another place (`Request.jumps`) or comes down to its moves
(`serve_resetPeek`), so what holds of a cursor in use has to be shown for one move and for the three
requests that set it elsewhere.

Where the next peek looks plays no part in this: two cursors that differ in nothing else still do so
after the same requests (`serveAll_congr`). Statements about moves are therefore made of the cursor
that starts peeking again, `resetPeek`.
-/

namespace FilterQuery
namespace Cursor

/-- What a reader may ask of a cursor. -/
inductive Request where
  | advance
  | peek
  | glimpse
  | reset
  | resetPeek
  | setPosition (position : Nat)
  | load (query : Text)
  | skipUntil (kind : Kind)
  | expect (kind : Kind)
  | remaining
  | isAhead (kind : Kind)
  | isAheadAny (kinds : List Kind)
  deriving DecidableEq

namespace Request

/-- Whether a request brings a cursor back in front of its first token. -/
def restarts : Request → Bool
  | .reset | .load _ => true
  | _ => false

/-- Whether a request sets a cursor elsewhere than its moves would bring it. -/
def jumps : Request → Bool
  | .setPosition _ => true
  | r => r.restarts

end Request

/-- A cursor after one more request. -/
def serve (c : Cursor) : Request → Cursor
  | .advance => c.advance
  | .peek => c.peek.2
  | .glimpse => c.glimpse.2
  | .reset => c.reset
  | .resetPeek => c.resetPeek
  | .setPosition position => c.setPosition position
  | .load query => c.load query
  | .skipUntil kind => c.skipUntil kind
  | .expect kind => (c.expect kind).2
  | .remaining => c.remaining.2
  | .isAhead _ | .isAheadAny _ => c

/-- A cursor after some requests. -/
def serveAll (c : Cursor) (requests : List Request) : Cursor := requests.foldl serve c

theorem serveAll_append (c : Cursor) (earlier later : List Request) :
    c.serveAll (earlier ++ later) = (c.serveAll earlier).serveAll later := List.foldl_append

/-! ## Counting moves -/

/-- The moves until the token ahead is of a given kind or there is none. -/
def skipMoves (c : Cursor) (kind : Kind) : Nat :=
  if c.aheadIndex.isSome && !c.isAhead kind then skipMoves c.advance kind + 1 else 0
termination_by c.left
decreasing_by exact left_advance_lt (by simp_all)

/-- The moves that a cursor makes for a request. For the remaining tokens it moves once to the first
of them and then once past each. -/
def moves (c : Cursor) : Request → Nat
  | .advance => 1
  | .skipUntil kind => c.skipMoves kind
  | .expect kind => if (c.expect kind).1.isOk then 1 else 0
  | .remaining => 1 + c.remaining.1.length
  | _ => 0

/-- The moves that a cursor makes for some requests. -/
def movesOver (c : Cursor) : List Request → Nat
  | [] => 0
  | r :: requests => c.moves r + (c.serve r).movesOver requests

/-- What is ahead after each of the moves that a cursor makes for a request. -/
def views (c : Cursor) (r : Request) : List (Option Token) :=
  (List.range (c.moves r)).map fun i => (advance^[i + 1] c).ahead?

/-- What is ahead after each of the moves that a cursor makes for some requests. -/
def viewsOver (c : Cursor) : List Request → List (Option Token)
  | [] => []
  | r :: requests => c.views r ++ (c.serve r).viewsOver requests

/-! ## Requests as moves -/

@[simp] theorem advance_resetPeek (c : Cursor) : c.resetPeek.advance = c.advance := rfl

@[simp] theorem ahead?_resetPeek (c : Cursor) : c.resetPeek.ahead? = c.ahead? := rfl

theorem skipUntil_eq_iterate (c : Cursor) (kind : Kind) :
    c.skipUntil kind = advance^[c.skipMoves kind] c := by
  fun_induction skipUntil c kind with
  | case1 c h ih => rw [skipMoves, if_pos h, Function.iterate_succ_apply, ih]
  | case2 c h => rw [skipMoves, if_neg h, Function.iterate_zero_apply]

theorem drain_eq_iterate (c : Cursor) : c.drain.2 = advance^[c.drain.1.length] c := by
  fun_induction drain c with
  | case1 c t h tokens last heq ih =>
    rw [heq] at ih
    show last = advance^[tokens.length + 1] c
    rw [Function.iterate_succ_apply]
    exact ih
  | case2 c h => rfl

theorem remaining_eq_iterate (c : Cursor) :
    c.remaining.2 = advance^[1 + c.remaining.1.length] c := by
  rw [Nat.add_comm, Function.iterate_succ_apply]
  exact drain_eq_iterate c.advance

/-- An expected token is passed by one move. If the token ahead is another one or there is none, the
cursor stays as it is. -/
theorem expect_eq (c : Cursor) (kind : Kind) :
    (c.expect kind).2 = if (c.expect kind).1.isOk then c.advance else c := by
  unfold expect
  cases c.ahead? with
  | none => rfl
  | some t => cases h : t.is kind <;> simp [h, Except.isOk, Except.toBool]

theorem peek_resetPeek (c : Cursor) : c.peek.2.resetPeek = c.resetPeek := by
  unfold peek
  cases c.peekTarget? <;> rfl

/-- A request that does not set a cursor elsewhere comes down to its moves. -/
theorem serve_resetPeek (c : Cursor) {r : Request} (hr : r.jumps = false) :
    (c.serve r).resetPeek = (advance^[c.moves r] c).resetPeek := by
  cases r with
  | advance => rfl
  | peek => exact peek_resetPeek c
  | glimpse => rfl
  | reset => exact absurd hr Bool.noConfusion
  | resetPeek => rfl
  | setPosition position => exact absurd hr Bool.noConfusion
  | load query => exact absurd hr Bool.noConfusion
  | skipUntil kind => exact congrArg resetPeek (skipUntil_eq_iterate c kind)
  | expect kind =>
    show (c.expect kind).2.resetPeek = _
    rw [expect_eq, moves]
    split <;> rfl
  | remaining => exact congrArg resetPeek (remaining_eq_iterate c)
  -- a test leaves the cursor as it is, and counts no move
  | isAhead kind => rfl
  | isAheadAny kinds => rfl

/-! ## Peeking plays no part -/

/-- Two cursors that agree but for where they peek. -/
theorem eq_of_resetPeek {c d : Cursor} (h : d.resetPeek = c.resetPeek) :
    d = { c with peekOffset := d.peekOffset } := by
  show { d.resetPeek with peekOffset := d.peekOffset } = _
  rw [h]
  rfl

/-- The first move forgets where the next peek looks. -/
theorem iterate_resetPeek (n : Nat) (c : Cursor) :
    (advance^[n] c.resetPeek).resetPeek = (advance^[n] c).resetPeek := by
  cases n <;> rfl

theorem skipMoves_resetPeek (c : Cursor) (kind : Kind) :
    c.resetPeek.skipMoves kind = c.skipMoves kind := by
  rw [skipMoves.eq_def c.resetPeek, skipMoves.eq_def c]
  rfl

theorem expect_resetPeek (c : Cursor) (kind : Kind) :
    (c.resetPeek.expect kind).1 = (c.expect kind).1 := by
  unfold expect
  rw [ahead?_resetPeek]
  cases c.ahead? with
  | none => rfl
  | some t => cases h : t.is kind <;> simp [h]

theorem moves_resetPeek (c : Cursor) (r : Request) : c.resetPeek.moves r = c.moves r := by
  cases r with
  | skipUntil kind => exact skipMoves_resetPeek c kind
  | expect kind => rw [moves, moves, expect_resetPeek]
  | _ => rfl

theorem views_resetPeek (c : Cursor) (r : Request) : c.resetPeek.views r = c.views r := by
  unfold views
  rw [moves_resetPeek]
  rfl

theorem resetPeek_serve_resetPeek (c : Cursor) (r : Request) :
    (c.resetPeek.serve r).resetPeek = (c.serve r).resetPeek := by
  cases hr : r.jumps with
  | false => rw [serve_resetPeek _ hr, serve_resetPeek _ hr, moves_resetPeek, iterate_resetPeek]
  | true =>
    cases r with
    | reset | setPosition position | load query => rfl
    | _ => exact absurd hr Bool.noConfusion

section Congr

variable {c d : Cursor}

theorem serve_congr (h : c.resetPeek = d.resetPeek) (r : Request) :
    (c.serve r).resetPeek = (d.serve r).resetPeek := by
  rw [← resetPeek_serve_resetPeek c, h, resetPeek_serve_resetPeek]

theorem serveAll_congr (h : c.resetPeek = d.resetPeek) (requests : List Request) :
    (c.serveAll requests).resetPeek = (d.serveAll requests).resetPeek := by
  induction requests generalizing c d with
  | nil => exact h
  | cons r requests ih => exact ih (serve_congr h r)

theorem viewsOver_congr (h : c.resetPeek = d.resetPeek) (requests : List Request) :
    c.viewsOver requests = d.viewsOver requests := by
  induction requests generalizing c d with
  | nil => rfl
  | cons r requests ih =>
    rw [viewsOver, viewsOver, ih (serve_congr h r), ← views_resetPeek c, h, views_resetPeek]

end Congr

end Cursor
end FilterQuery
