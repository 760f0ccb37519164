import FilterQuery.Proofs.Cursor.Moves

/-!
# What is still to come

The reading position may be set anywhere, so what a cursor comes upon by its moves is told from the
cursor itself and not from the moves that it has made: the places from the reading position on, one
after the other, and then none (`upcoming`, `aheadIndex_iterate_succ`). If the position lies behind
the last token, nothing is to come.

Two requests are read off this. Peeks answer what the moves would bring
(`peek_foretells_advance`), and the remaining tokens are those to come (`remaining_drains`).
-/

namespace FilterQuery
namespace Cursor

/-! ## The places to come -/

/-- The places from the reading position on. -/
def upcoming (c : Cursor) : List Nat := List.range' c.position (c.tokens.size - c.position)

theorem getElem?_upcoming (c : Cursor) (n : Nat) :
    c.upcoming[n]? = if c.position + n < c.tokens.size then some (c.position + n) else none := by
  unfold upcoming
  split
  · rw [List.getElem?_range' (by omega), Nat.one_mul]
  · rw [List.getElem?_eq_none (by rw [List.length_range']; omega)]

theorem lt_of_mem_upcoming {c : Cursor} {i : Nat} (h : i ∈ c.upcoming) : i < c.tokens.size := by
  have hrange := List.mem_range'_1.mp h
  omega

/-- One move takes the first of the places to come. -/
theorem upcoming_of_lt {c : Cursor} (h : c.position < c.tokens.size) :
    c.upcoming = c.position :: c.advance.upcoming := by
  obtain ⟨n, hn⟩ : ∃ n, c.tokens.size - c.position = n + 1 :=
    ⟨c.tokens.size - (c.position + 1), by omega⟩
  have hsub : c.tokens.size - (c.position + 1) = n := by omega
  unfold upcoming
  rw [position_advance, tokens_advance, if_pos h, hn, hsub, List.range'_succ]

theorem upcoming_of_le {c : Cursor} (h : c.tokens.size ≤ c.position) : c.upcoming = [] := by
  rw [upcoming, Nat.sub_eq_zero_of_le h, List.range'_zero]

section Iterate

variable (n : Nat) (c : Cursor)

theorem tokens_iterate : (advance^[n] c).tokens = c.tokens := by
  induction n with
  | zero => rfl
  | succ n ih => rw [Function.iterate_succ_apply', tokens_advance, ih]

theorem position_iterate :
    (advance^[n] c).position = max c.position (min (c.position + n) c.tokens.size) := by
  induction n with
  | zero => exact (Nat.max_eq_left (Nat.min_le_left ..)).symm
  | succ n ih =>
    rw [Function.iterate_succ_apply', position_advance, tokens_iterate, ih]
    split <;> omega

theorem peekOffset_iterate_succ : (advance^[n + 1] c).peekOffset = 0 := by
  rw [Function.iterate_succ_apply', advance]
  split <;> rfl

/-- The places to come, one after the other, are those that moves bring ahead. -/
theorem aheadIndex_iterate_succ : (advance^[n + 1] c).aheadIndex = c.upcoming[n]? := by
  induction n generalizing c with
  | zero =>
    rw [getElem?_upcoming]
    exact aheadIndex_advance c
  | succ n ih =>
    rw [Function.iterate_succ_apply, ih, getElem?_upcoming, getElem?_upcoming, tokens_advance,
      position_advance]
    by_cases hlt : c.position < c.tokens.size
    · rw [if_pos hlt, Nat.add_right_comm, Nat.add_assoc]
    -- behind the last token the reading position stays, and there is nothing to come
    · rw [if_neg hlt, if_neg (by omega), if_neg (by omega)]

theorem ahead?_iterate_succ : (advance^[n + 1] c).ahead? = c.tokens[c.position + n]? := by
  rw [ahead?, aheadIndex_iterate_succ, tokens_iterate, getElem?_upcoming]
  split
  · rfl
  · next hge => exact (Array.getElem?_eq_none (Nat.le_of_not_lt hge)).symm

end Iterate

theorem ahead?_advance (c : Cursor) : c.advance.ahead? = c.tokens[c.position]? :=
  ahead?_iterate_succ 0 c

/-- A move says that it brings a token into view exactly if there is one then. -/
theorem advances_eq_isSome (c : Cursor) : c.advances = c.advance.ahead?.isSome := by
  rw [advances, ahead?_advance, aheadIndex_advance]
  split
  · next hlt => rw [Array.getElem?_eq_getElem hlt]; rfl
  · next hge => rw [Array.getElem?_eq_none (Nat.le_of_not_lt hge)]; rfl

/-! ## Peeking -/

/-- A peek that finds a token makes the next one look further by one place. Nothing else
changes. -/
theorem peek_eq (c : Cursor) :
    c.peek = (c.peekTarget?, { c with
      peekOffset := if c.peekTarget?.isSome then c.peekOffset + 1 else c.peekOffset }) := by
  unfold peek
  cases c.peekTarget? <;> rfl

theorem serveAll_replicate (c : Cursor) (n : Nat) (r : Request) :
    c.serveAll (List.replicate n r) = (serve · r)^[n] c := by
  induction n generalizing c with
  | zero => rfl
  | succ n ih => exact ih (c.serve r)

/-- After some peeks the next one looks that many places further. Once a peek finds no token, the
next one looks at the same place, but neither is there a token behind it. -/
theorem peekTarget?_serveAll_peek (n : Nat) (c : Cursor) :
    (c.serveAll (List.replicate n .peek)).peekTarget?
      = c.tokens[c.position + (c.peekOffset + n)]? := by
  induction n generalizing c with
  | zero => rfl
  | succ n ih =>
    show (c.peek.2.serveAll (List.replicate n .peek)).peekTarget? = _
    rw [ih, peek_eq]
    show c.tokens[c.position + ((if c.peekTarget?.isSome then _ else _) + n)]? = _
    split
    · rw [Nat.add_right_comm c.peekOffset 1 n]
      rfl
    · next hnone =>
      rw [Option.not_isSome_iff_eq_none] at hnone
      have hend : c.tokens.size ≤ c.position + c.peekOffset := Array.getElem?_eq_none_iff.mp hnone
      rw [Array.getElem?_eq_none (by omega), Array.getElem?_eq_none (by omega)]

/-- Peeks change nothing but where the next one looks. -/
theorem resetPeek_serveAll_peek (n : Nat) (c : Cursor) :
    (c.serveAll (List.replicate n .peek)).resetPeek = c.resetPeek := by
  induction n generalizing c with
  | zero => rfl
  | succ n ih => exact (ih c.peek.2).trans (peek_resetPeek c)

/-! ## The remaining tokens -/

/-- The token ahead and, if there is one, those to come. -/
def tokensAhead (c : Cursor) : List Token :=
  match c.ahead? with
  | some t => t :: c.tokens.toList.drop c.position
  | none => []

theorem tokensAhead_advance (c : Cursor) :
    c.advance.tokensAhead = c.tokens.toList.drop c.position := by
  rw [tokensAhead, ahead?_advance, tokens_advance, position_advance]
  split
  · next t ht =>
    obtain ⟨hlt, rfl⟩ := Array.getElem?_eq_some_iff.mp ht
    rw [if_pos hlt]
    exact (List.drop_eq_getElem_cons (Array.length_toList ▸ hlt)).symm
  · next hnone =>
    have hge : c.tokens.size ≤ c.position := Array.getElem?_eq_none_iff.mp hnone
    exact (List.drop_eq_nil_of_le (Array.length_toList ▸ hge)).symm

theorem drain_fst (c : Cursor) : c.drain.1 = c.tokensAhead := by
  fun_induction drain c with
  | case1 c t h tokens last heq ih =>
    rw [heq, tokensAhead_advance] at ih
    rw [tokensAhead, h, ← ih]
  | case2 c h => rw [tokensAhead, h]

theorem remaining_fst (c : Cursor) : c.remaining.1 = c.tokens.toList.drop c.position :=
  (drain_fst c.advance).trans (tokensAhead_advance c)

theorem length_remaining (c : Cursor) : c.remaining.1.length = c.tokens.size - c.position := by
  rw [remaining_fst, List.length_drop, Array.length_toList]

/-- What the moves bring ahead is taken as it comes. -/
theorem ahead?_iterate_succ_eq_remaining (n : Nat) (c : Cursor) :
    (advance^[n + 1] c).ahead? = c.remaining.1[n]? := by
  rw [ahead?_iterate_succ, remaining_fst, List.getElem?_drop, Array.getElem?_toList]

theorem aheadIndex_remaining (c : Cursor) : c.remaining.2.aheadIndex = none := by
  rw [remaining_eq_iterate, Nat.add_comm, aheadIndex_iterate_succ, getElem?_upcoming,
    length_remaining, if_neg (by omega)]

/-- The current token is then the last one taken or, if there was none, the one that was ahead. -/
theorem current?_remaining (c : Cursor) :
    c.remaining.2.current? = c.remaining.1.getLast?.or c.ahead? := by
  rw [remaining_eq_iterate, Nat.add_comm, Function.iterate_succ_apply', current?_advance,
    List.getLast?_eq_getElem?]
  cases hlength : c.remaining.1.length with
  | zero => rw [List.length_eq_zero_iff.mp hlength]; rfl
  | succ n =>
    have hlast : c.remaining.1[n]? = some c.remaining.1[n] := List.getElem?_eq_getElem _
    rw [ahead?_iterate_succ_eq_remaining, Nat.add_sub_cancel, hlast]
    rfl

/-- Behind the remaining tokens there are none. -/
theorem remaining_remaining (c : Cursor) : c.remaining.2.remaining.1 = [] := by
  rw [← List.length_eq_zero_iff, length_remaining, remaining_eq_iterate, tokens_iterate,
    position_iterate, length_remaining]
  omega

end Cursor

/-- Peeks foretell moves, wherever the reading position has been set. If the next peek looks `k`
tokens beyond it, the peek after `n` others answers which token is ahead after `k + n + 1` moves,
and it finds none exactly if the last of these moves says so. Only a peek that finds a token makes
the next one look further, a glimpse answers as a peek does and starts peeking again, and nothing
else is changed by either. -/
theorem peek_foretells_advance (origin : Cursor.Origin) (requests : List Cursor.Request) :
    let c := origin.cursor.serveAll requests
    (∀ n,
      let peeked := c.serveAll (List.replicate n .peek)
      let moved := c.serveAll (List.replicate (c.peekOffset + n) .advance)
      peeked.peek.1 = moved.advance.ahead? ∧
      (peeked.peek.1 = none ↔ moved.advances = false) ∧
      peeked = { c with peekOffset := peeked.peekOffset }) ∧
    c.peek.2.peekOffset = (if c.peek.1.isSome then c.peekOffset + 1 else c.peekOffset) ∧
    c.glimpse = (c.peek.1, { c with peekOffset := 0 }) := by
  intro c
  refine ⟨fun n => ?_, ?_, ?_⟩
  · intro peeked moved
    have hmoved : moved.advance = Cursor.advance^[c.peekOffset + n + 1] c := by
      rw [Function.iterate_succ_apply']
      exact congrArg Cursor.advance (Cursor.serveAll_replicate c _ .advance)
    have hpeek : peeked.peek.1 = moved.advance.ahead? := by
      rw [Cursor.peek_eq, Cursor.peekTarget?_serveAll_peek, hmoved, Cursor.ahead?_iterate_succ]
    refine ⟨hpeek, ?_, Cursor.eq_of_resetPeek (Cursor.resetPeek_serveAll_peek n c)⟩
    rw [hpeek, Cursor.advances_eq_isSome, Option.isSome_eq_false_iff, Option.isNone_iff_eq_none]
  · rw [Cursor.peek_eq]
  · rw [Cursor.peek_eq]
    rfl

/-- The remaining tokens are those from the reading position on, each of them once, as the moves
bring them ahead one after the other. The moves come to an end: there is no token ahead then, the
current one is the last one taken or, if there was none, the one that was ahead, and nothing remains
any more. -/
theorem remaining_drains (origin : Cursor.Origin) (requests : List Cursor.Request) :
    let c := origin.cursor.serveAll requests
    let rest := c.tokens.toList.drop c.position
    let last := c.remaining.2
    c.remaining.1 = rest ∧
    last = Cursor.advance^[rest.length + 1] c ∧
    (∀ n, (Cursor.advance^[n + 1] c).ahead? = rest[n]?) ∧
    last.aheadIndex = none ∧
    last.current? = rest.getLast?.or c.ahead? ∧
    last.peekOffset = 0 ∧
    last.remaining.1 = [] := by
  intro c rest last
  have hrest : c.remaining.1 = rest := Cursor.remaining_fst c
  have hlast : last = Cursor.advance^[rest.length + 1] c := by
    rw [← hrest, Nat.add_comm]
    exact Cursor.remaining_eq_iterate c
  refine ⟨hrest, hlast, fun n => ?_, Cursor.aheadIndex_remaining c, ?_, ?_,
    Cursor.remaining_remaining c⟩
  · rw [← hrest]
    exact Cursor.ahead?_iterate_succ_eq_remaining n c
  · rw [← hrest]
    exact Cursor.current?_remaining c
  · rw [hlast]
    exact Cursor.peekOffset_iterate_succ _ c

/-- The reading position is set back to the token ahead, which is taken again then, or set beyond
the end. -/
example :
    let c := (Cursor.Origin.ofQuery {} "a = 1".toList).cursor.serveAll
      [.advance, .advance, .setPosition 1]
    (c.remaining.1.map Token.raw, c.remaining.2.current?.map Token.raw) =
        (["=".toList, "1".toList], some "1".toList) ∧
      ((c.setPosition 9).remaining.1, (c.setPosition 9).remaining.2.current?.map Token.raw) =
        ([], some "=".toList) := by decide +kernel

end FilterQuery
