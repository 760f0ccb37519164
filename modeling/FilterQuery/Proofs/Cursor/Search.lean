import FilterQuery.Proofs.Cursor.Upcoming
import Mathlib.Data.List.TakeWhile

/-!
# Moving to the next token of a kind

Moving until the token ahead is of some kind is a search through the places in sight: the one ahead
and those to come (`inSight`). Each move leaves the first of them behind (`inSight_advance`). So, by
induction along the loop, the search stops at the first place whose token is of the kind, and the
current place is then the last one that was passed over (`passed`). If there is no such place, all
of them are passed over.

The reading position may have been set, so the place after the one ahead need not be the next one
among the tokens. It may be an earlier one, or the same place again.
-/

namespace FilterQuery
namespace Cursor

/-! ## Places in sight -/

/-- Whether the token at a place is of a given kind. -/
def holds (c : Cursor) (kind : Kind) (i : Nat) : Bool := c.tokens[i]?.any (Token.is · kind)

/-- The place ahead and, if there is one, those to come. -/
def inSight (c : Cursor) : List Nat :=
  match c.aheadIndex with
  | some i => i :: c.upcoming
  | none => []

/-- The places in sight before the first one whose token is of a given kind. -/
def passed (c : Cursor) (kind : Kind) : List Nat := c.inSight.takeWhile fun i => !c.holds kind i

variable {c : Cursor} {kind : Kind} {i : Nat}

@[simp] theorem holds_advance (c : Cursor) (kind : Kind) : c.advance.holds kind = c.holds kind := by
  unfold holds
  rw [tokens_advance]

theorem isAhead_of_aheadIndex (h : c.aheadIndex = some i) : c.isAhead kind = c.holds kind i := by
  rw [isAhead, ahead?, h]
  rfl

theorem inSight_of_some (h : c.aheadIndex = some i) : c.inSight = i :: c.upcoming := by
  rw [inSight, h]

theorem inSight_of_none (h : c.aheadIndex = none) : c.inSight = [] := by
  rw [inSight, h]

/-- A move leaves the place ahead behind. What was still to come is in sight then. -/
theorem inSight_advance (c : Cursor) : c.advance.inSight = c.upcoming := by
  have hahead := aheadIndex_advance c
  split at hahead
  · next hlt => rw [inSight_of_some hahead, upcoming_of_lt hlt]
  · next hge => rw [inSight_of_none hahead, upcoming_of_le (Nat.le_of_not_lt hge)]

/-! ## The search -/

/-- The search goes on exactly if there is a token ahead and it is of another kind. -/
theorem searches_iff : (c.aheadIndex.isSome && !c.isAhead kind) = true ↔
    ∃ i, c.aheadIndex = some i ∧ c.holds kind i = false := by
  cases h : c.aheadIndex with
  | none => simp
  | some i => simp [isAhead_of_aheadIndex h]

section Stops

variable (h : ¬ (c.aheadIndex.isSome && !c.isAhead kind) = true)
include h

theorem holds_of_not_searches (hi : c.aheadIndex = some i) : c.holds kind i = true := by
  by_contra hne
  exact h (searches_iff.mpr ⟨i, hi, Bool.eq_false_iff.mpr hne⟩)

theorem find?_inSight_of_not_searches : c.inSight.find? (c.holds kind) = c.aheadIndex := by
  cases hahead : c.aheadIndex with
  | none => rw [inSight_of_none hahead, List.find?_nil]
  | some i => rw [inSight_of_some hahead, List.find?_cons_of_pos (holds_of_not_searches h hahead)]

theorem passed_of_not_searches : c.passed kind = [] := by
  unfold passed
  cases hahead : c.aheadIndex with
  | none => rw [inSight_of_none hahead, List.takeWhile_nil]
  | some i =>
    rw [inSight_of_some hahead, List.takeWhile_cons_of_neg]
    rw [holds_of_not_searches h hahead]
    exact Bool.false_ne_true

end Stops

theorem passed_of_searches (h : c.aheadIndex = some i) (hi : c.holds kind i = false) :
    c.passed kind = i :: c.advance.passed kind := by
  rw [passed, inSight_of_some h, List.takeWhile_cons_of_pos (by rw [hi]; rfl), passed,
    inSight_advance, holds_advance]

/-- The search moves once for each place that it passes over. -/
theorem skipMoves_eq (c : Cursor) (kind : Kind) : c.skipMoves kind = (c.passed kind).length := by
  fun_induction skipMoves c kind with
  | case1 c h ih =>
    obtain ⟨i, hahead, hi⟩ := searches_iff.mp h
    rw [ih, passed_of_searches hahead hi, List.length_cons]
  | case2 c h => rw [passed_of_not_searches h, List.length_nil]

theorem aheadIndex_skipUntil (c : Cursor) (kind : Kind) :
    (c.skipUntil kind).aheadIndex = c.inSight.find? (c.holds kind) := by
  fun_induction skipUntil c kind with
  | case1 c h ih =>
    obtain ⟨i, hahead, hi⟩ := searches_iff.mp h
    rw [ih, inSight_of_some hahead, List.find?_cons_of_neg (by rw [hi]; exact Bool.false_ne_true),
      inSight_advance, holds_advance]
  | case2 c h => exact (find?_inSight_of_not_searches h).symm

theorem currentIndex_skipUntil (c : Cursor) (kind : Kind) :
    (c.skipUntil kind).currentIndex = (c.passed kind).getLast?.or c.currentIndex := by
  fun_induction skipUntil c kind with
  | case1 c h ih =>
    -- a move makes the place ahead the current one, and it stays so unless the search moves again
    obtain ⟨i, hahead, hi⟩ := searches_iff.mp h
    rw [ih, currentIndex_advance, hahead, passed_of_searches hahead hi, List.getLast?_cons]
    cases (c.advance.passed kind).getLast? <;> rfl
  | case2 c h => rw [passed_of_not_searches h]; rfl

theorem skipUntil_skipUntil (c : Cursor) (kind : Kind) :
    (c.skipUntil kind).skipUntil kind = c.skipUntil kind := by
  fun_induction skipUntil c kind with
  | case1 c h ih => exact ih
  | case2 c h => rw [skipUntil, if_neg h]

end Cursor

/-- Moving to the next token of a kind stops at the first one of this kind among the token ahead
and those from the reading position on, wherever that position has been set. It moves once for each
token that it passes over, so the last of these becomes the current one, and all of them are passed
over if none is of the kind. Nothing is changed if there is no token ahead, if the token ahead is of
the kind already, or by moving there once more. -/
theorem skipUntil_finds_first (origin : Cursor.Origin) (requests : List Cursor.Request)
    (kind : Kind) :
    let c := origin.cursor.serveAll requests
    let found := c.skipUntil kind
    (c.aheadIndex = none → found = c) ∧
    (∀ i, c.aheadIndex = some i →
      let places := i :: c.upcoming
      let passed := places.takeWhile fun k => !c.holds kind k
      (∀ k ∈ places, k < c.tokens.size) ∧
      found = Cursor.advance^[passed.length] c ∧ found.tokens = c.tokens ∧
      found.aheadIndex = places.find? (c.holds kind) ∧
      (c.holds kind i = true → found = c) ∧
      (c.holds kind i = false → found.currentIndex = passed.getLast?) ∧
      ∃ behind, places = passed ++ behind ∧ found.aheadIndex = behind.head?) ∧
    found.skipUntil kind = found := by
  intro c found
  have hmoves : found = Cursor.advance^[(c.passed kind).length] c := by
    rw [← Cursor.skipMoves_eq]
    exact Cursor.skipUntil_eq_iterate c kind
  refine ⟨fun hnone => ?_, fun i hahead => ?_, Cursor.skipUntil_skipUntil c kind⟩
  · rw [hmoves, Cursor.passed, Cursor.inSight_of_none hnone]
    rfl
  · intro places passed
    have hplaces : c.inSight = places := Cursor.inSight_of_some hahead
    have hpassed : c.passed kind = passed := by rw [Cursor.passed, hplaces]
    have hfind : found.aheadIndex = places.find? (c.holds kind) := by
      rw [← hplaces]
      exact Cursor.aheadIndex_skipUntil c kind
    have hsound := Cursor.Sound.of_serveAll origin requests
    rw [hpassed] at hmoves
    refine ⟨?_, hmoves, ?_, hfind, fun hi => ?_, fun hi => ?_,
      places.dropWhile fun k => !c.holds kind k, List.takeWhile_append_dropWhile.symm, ?_⟩
    · exact List.forall_mem_cons.mpr
        ⟨hsound.inRange.ahead i hahead, fun k hk => Cursor.lt_of_mem_upcoming hk⟩
    · rw [hmoves, Cursor.tokens_iterate]
    · have hnil : passed = [] := List.takeWhile_cons_of_neg (by rw [hi]; exact Bool.false_ne_true)
      rw [hmoves, hnil]
      rfl
    · have hcons : passed = i :: _ := List.takeWhile_cons_of_pos (by rw [hi]; rfl)
      show (c.skipUntil kind).currentIndex = _
      rw [Cursor.currentIndex_skipUntil, hpassed, hcons, List.getLast?_cons]
      rfl
    · rw [hfind, List.find?_eq_head?_dropWhile_not]

/-- The reading position is set back before the token ahead, which comes into view a second time. -/
example :
    let c := (Cursor.Origin.ofQuery {} "a = 1 or b".toList).cursor.serveAll
      [.advance, .advance, .setPosition 0]
    let found := c.skipUntil .or
    (1 :: c.upcoming, found.aheadIndex, found.currentIndex) =
      ([1, 0, 1, 2, 3, 4], some 3, some 2) := by decide +kernel

end FilterQuery
