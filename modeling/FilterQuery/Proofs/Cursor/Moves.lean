import FilterQuery.Proofs.Cursor.Range

/-!
# A cursor as a number of moves

From the start of a query on, all that a cursor shows is told by the number `k` of moves that it has
made (`At`): after `k` moves the token ahead is the one with index `k - 1` and the current one that
with index `k - 2`, where there are such tokens. One more move brings `k` to `k + 1` (`At.advance`),
also behind the last token, and every request that does not set the cursor elsewhere comes down to
its moves.

A request that looks without moving is idle, and so is one for a token that is not there. Idle
requests may as well be left out (`serveAll_busy`, `viewsOver_busy`).
-/

namespace FilterQuery
namespace Cursor

/-! ## After some number of moves -/

/-- A cursor over some tokens that has made `k` moves from the start. -/
structure At (ts : List Token) (k : Nat) (c : Cursor) : Prop where
  tokens : c.tokens.toList = ts
  position : c.position = min k ts.length
  ahead : c.aheadIndex = if 1 ≤ k ∧ k ≤ ts.length then some (k - 1) else none
  current : c.currentIndex = if 2 ≤ k ∧ k ≤ ts.length + 1 then some (k - 2) else none

variable {ts : List Token} {k : Nat} {c : Cursor}

namespace At

theorem size (h : c.At ts k) : c.tokens.size = ts.length := by
  rw [← h.tokens, Array.length_toList]

theorem reset (c : Cursor) : c.reset.At c.tokens.toList 0 where
  tokens := rfl
  position := (Nat.zero_min _).symm
  ahead := rfl
  current := rfl

theorem advance (h : c.At ts k) : c.advance.At ts (k + 1) where
  tokens := by rw [tokens_advance, h.tokens]
  position := by
    rw [position_advance, h.position, h.size]
    split <;> omega
  ahead := by
    rw [aheadIndex_advance, h.position, h.size]
    by_cases hlt : k < ts.length
    · rw [if_pos (by omega), if_pos (by omega), Nat.min_eq_left (Nat.le_of_lt hlt),
        Nat.add_sub_cancel]
    -- behind the last token a move is counted, but brings nothing into view
    · rw [if_neg (by omega), if_neg (by omega)]
  current := by
    rw [currentIndex_advance, h.ahead]
    exact if_congr (by omega) rfl rfl

theorem iterate (h : c.At ts k) (n : Nat) : (Cursor.advance^[n] c).At ts (k + n) := by
  induction n generalizing c k with
  | zero => exact h
  | succ n ih =>
    rw [Function.iterate_succ_apply, ← Nat.succ_add_eq_add_succ]
    exact ih h.advance

/-- Where the next peek looks is of no concern. -/
theorem of_resetPeek {d : Cursor} (h : c.At ts k) (hd : d.resetPeek = c.resetPeek) : d.At ts k := by
  rw [eq_of_resetPeek hd]
  exact ⟨h.tokens, h.position, h.ahead, h.current⟩

theorem serve (h : c.At ts k) {r : Request} (hr : r.jumps = false) :
    (c.serve r).At ts (k + c.moves r) :=
  (h.iterate _).of_resetPeek (serve_resetPeek c hr)

theorem serveAll {requests : List Request} (h : c.At ts k)
    (hrequests : ∀ r ∈ requests, r.jumps = false) :
    (c.serveAll requests).At ts (k + c.movesOver requests) := by
  induction requests generalizing c k with
  | nil => exact h
  | cons r requests ih =>
    rw [List.forall_mem_cons] at hrequests
    rw [movesOver, ← Nat.add_assoc]
    exact ih (h.serve hrequests.1) hrequests.2

/-! ## What is in view -/

theorem getElem?_tokens (h : c.At ts k) (i : Nat) : c.tokens[i]? = ts[i]? := by
  rw [← Array.getElem?_toList, h.tokens]

theorem ahead?_eq (h : c.At ts k) :
    c.ahead? = if h : 1 ≤ k ∧ k ≤ ts.length then some ts[k - 1] else none := by
  rw [ahead?, h.ahead]
  split
  · rw [Option.bind_some, h.getElem?_tokens]
    exact List.getElem?_eq_getElem _
  · rfl

theorem current?_eq (h : c.At ts k) :
    c.current? = if h : 2 ≤ k ∧ k ≤ ts.length + 1 then some ts[k - 2] else none := by
  rw [current?, h.current]
  split
  · rw [Option.bind_some, h.getElem?_tokens]
    exact List.getElem?_eq_getElem _
  · rfl

theorem ahead?_succ (h : c.At ts (k + 1)) : c.ahead? = ts[k]? := by
  rw [h.ahead?_eq]
  split
  · next hk => exact (List.getElem?_eq_getElem hk.2).symm
  · next hk => exact (List.getElem?_eq_none (by omega)).symm

theorem advances_eq (h : c.At ts k) : c.advances = c.advance.ahead?.isSome := by
  rw [advances, h.advance.ahead?_succ, h.advance.ahead]
  split
  · next hk => rw [List.getElem?_eq_getElem hk.2]; rfl
  · next hk => rw [List.getElem?_eq_none (by omega)]; rfl

theorem views_eq (h : c.At ts k) (r : Request) :
    c.views r = (List.range (c.moves r)).map fun i => ts[k + i]? := by
  unfold views
  refine List.map_congr_left fun i _ => ?_
  exact (h.iterate (i + 1)).ahead?_succ

theorem viewsOver_eq {requests : List Request} (h : c.At ts k)
    (hrequests : ∀ r ∈ requests, r.jumps = false) :
    c.viewsOver requests = (List.range (c.movesOver requests)).map fun i => ts[k + i]? := by
  induction requests generalizing c k with
  | nil => rfl
  | cons r requests ih =>
    rw [List.forall_mem_cons] at hrequests
    rw [viewsOver, movesOver, h.views_eq, ih (h.serve hrequests.1) hrequests.2, List.range_add,
      List.map_append, List.map_map]
    refine congrArg _ (List.map_congr_left fun i _ => ?_)
    rw [Function.comp_apply, Nat.add_assoc]

end At

/-- What is ahead becomes the current token by one move. -/
theorem current?_advance (c : Cursor) : c.advance.current? = c.ahead? := by
  rw [current?, currentIndex_advance, tokens_advance]
  rfl

/-! ## Idle requests -/

/-- Whether a request only looks at tokens or expects one that is not there. -/
def idle (c : Cursor) : Request → Bool
  | .peek | .glimpse | .resetPeek | .isAhead _ | .isAheadAny _ => true
  | .expect kind => !(c.expect kind).1.isOk
  | _ => false

/-- Some requests without the idle ones. -/
def busy (c : Cursor) : List Request → List Request
  | [] => []
  | r :: requests =>
    if c.idle r then (c.serve r).busy requests else r :: (c.serve r).busy requests

theorem jumps_of_idle {r : Request} (h : c.idle r = true) : r.jumps = false := by
  cases r with
  | reset | load query | setPosition position => exact absurd h Bool.noConfusion
  | _ => rfl

theorem moves_of_idle {r : Request} (h : c.idle r = true) : c.moves r = 0 := by
  cases r with
  | advance | remaining => exact absurd h Bool.noConfusion
  | skipUntil kind => exact absurd h Bool.noConfusion
  | expect kind =>
    rw [idle, Bool.not_eq_true'] at h
    rw [moves, h]
    rfl
  | _ => rfl

theorem resetPeek_serve_of_idle {r : Request} (h : c.idle r = true) :
    (c.serve r).resetPeek = c.resetPeek := by
  rw [serve_resetPeek c (jumps_of_idle h), moves_of_idle h, Function.iterate_zero_apply]

theorem serveAll_busy (c : Cursor) (requests : List Request) :
    (c.serveAll (c.busy requests)).resetPeek = (c.serveAll requests).resetPeek := by
  induction requests generalizing c with
  | nil => rfl
  | cons r requests ih =>
    unfold busy
    split
    -- leaving out an idle request changes at most where the next peek looks
    · next h =>
      rw [serveAll_congr (resetPeek_serve_of_idle h).symm, ih]
      rfl
    · exact ih (c.serve r)

theorem viewsOver_busy (c : Cursor) (requests : List Request) :
    c.viewsOver (c.busy requests) = c.viewsOver requests := by
  induction requests generalizing c with
  | nil => rfl
  | cons r requests ih =>
    unfold busy
    split
    · next h =>
      rw [viewsOver_congr (resetPeek_serve_of_idle h).symm, ih, viewsOver, views, moves_of_idle h]
      rfl
    · rw [viewsOver, viewsOver, ih]

/-! ## From the start of a query -/

/-- A cursor that has just come about, been reset or been set to a query has made no move yet. -/
theorem at_of_start (origin : Origin) {earlier : List Request}
    (hearlier : ∀ r ∈ earlier.getLast?, r.restarts = true) :
    (origin.cursor.serveAll earlier).At (origin.cursor.serveAll earlier).tokens.toList 0 := by
  rcases List.eq_nil_or_concat earlier with rfl | ⟨before, r, rfl⟩
  · cases origin <;> exact At.reset _
  · rw [List.concat_eq_append, List.getLast?_concat] at hearlier
    rw [List.concat_eq_append, serveAll_append]
    cases r with
    | reset | load query => exact At.reset _
    | _ => exact absurd (hearlier _ rfl) Bool.noConfusion

end Cursor

/-- A cursor is a place in the list of the tokens of its query. Let it come about, be reset or be
set to a query, and then serve any requests none of which sets it elsewhere. The number `k` of its
moves since then tells where it stands, which token is ahead and which is the current one, and a
move says whether it brings a token into view. What comes into view by the moves one after the other
are the tokens of the query in their order, each of them becomes the current one by the next move,
and idle requests in between make no difference. -/
theorem cursor_follows_tokens (origin : Cursor.Origin) {earlier later : List Cursor.Request}
    (hearlier : ∀ r ∈ earlier.getLast?, r.restarts = true)
    (hlater : ∀ r ∈ later, r.jumps = false) :
    let start := origin.cursor.serveAll earlier
    let c := origin.cursor.serveAll (earlier ++ later)
    let ts := Cursor.tokensOf origin.config (origin.lastQuery? (earlier ++ later))
    let k := start.movesOver later
    c.tokens.toList = ts ∧
    c.position = min k ts.length ∧
    c.ahead? = (if h : 1 ≤ k ∧ k ≤ ts.length then some ts[k - 1] else none) ∧
    c.current? = (if h : 2 ≤ k ∧ k ≤ ts.length + 1 then some ts[k - 2] else none) ∧
    c.advances = c.advance.ahead?.isSome ∧
    c.advance.current? = c.ahead? ∧
    start.viewsOver later = (List.range k).map (fun i => ts[i]?) ∧
    start.viewsOver (start.busy later) = start.viewsOver later ∧
    (origin.cursor.serveAll (earlier ++ start.busy later)).resetPeek = c.resetPeek := by
  intro start c ts k
  have hc : c = start.serveAll later := Cursor.serveAll_append _ earlier later
  have hstart : start.At start.tokens.toList 0 := Cursor.at_of_start origin hearlier
  have hat : c.At start.tokens.toList k := by
    rw [hc, ← Nat.zero_add k]
    exact hstart.serveAll hlater
  have hts : ts = start.tokens.toList := by
    rw [← hat.tokens]
    exact (Cursor.Sound.of_serveAll origin (earlier ++ later)).tokens.symm
  have hviews : start.viewsOver later = (List.range k).map (fun i => ts[i]?) := by
    rw [hstart.viewsOver_eq hlater, hts]
    simp only [Nat.zero_add]
    rfl
  rw [← hts] at hat
  refine ⟨hat.tokens, hat.position, hat.ahead?_eq, hat.current?_eq, hat.advances_eq,
    Cursor.current?_advance c, hviews, Cursor.viewsOver_busy start later, ?_⟩
  rw [Cursor.serveAll_append, hc]
  exact Cursor.serveAll_busy start later

/-- A cursor that has been beyond the end of another query is set to this one. Then three of the
requests move it, one of them to the end, and the others are idle. -/
theorem cursor_follows_tokens_of_comparison :
    let earlier : List Cursor.Request := [.advance, .setPosition 9, .advance, .load "a = 1".toList]
    let later : List Cursor.Request :=
      [.peek, .advance, .expect .equal, .expect .field, .isAhead .equal, .skipUntil .integer,
        .glimpse, .remaining]
    let start := (Cursor.Origin.ofQuery {} "x".toList).cursor.serveAll earlier
    let c := (Cursor.Origin.ofQuery {} "x".toList).cursor.serveAll (earlier ++ later)
    start.movesOver later = 4 ∧ c.position = 3 ∧ c.ahead? = none ∧
      c.current? = some { kind := .integer, value := "1".toList, raw := "1".toList, span := ⟨4, 5⟩ } ∧
      (start.viewsOver later).map (Option.map Token.raw)
        = ["a".toList, "=".toList, "1".toList].map some ++ [none] := by
  intro earlier later start c
  have hearlier : ∀ r ∈ earlier.getLast?, r.restarts = true := by
    rintro r ⟨⟩
    rfl
  have hlater : ∀ r ∈ later, r.jumps = false := by
    simp [later, Cursor.Request.jumps, Cursor.Request.restarts]
  obtain ⟨-, hposition, hahead, hcurrent, -, -, hviews, -, -⟩ :=
    cursor_follows_tokens (.ofQuery {} "x".toList) hearlier hlater
  refine ⟨by decide +kernel, hposition.trans (by decide +kernel),
    hahead.trans (by decide +kernel), hcurrent.trans (by decide +kernel), ?_⟩
  exact (congrArg _ hviews).trans (by decide +kernel)

end FilterQuery
