import FilterQuery.Proofs.Cursor.Upcoming
import Mathlib.Data.List.Basic

/-!
# Expecting tokens

A reader who follows a grammar expects a token of some kind, and where there is another one it tries
the next kind that the grammar allows. So the token ahead is either passed by one move, or it is
left as it is, with a fault that says what stands there (`expect_cases`).

Over a run of expectations no token is lost, whichever of them fail: what is taken and what is still
ahead make up what was ahead before (`taken_append_tokensAhead`). Each token waits for the first
expectation of its kind, and all of them are taken exactly if their kinds are expected in their
order, with any others in between (`taken_eq_tokensAhead_iff`).
-/

namespace FilterQuery
namespace Cursor

variable {c : Cursor} {t : Token} {kind : Kind} {kinds : List Kind} {fault : Fault}

/-! ## One expectation -/

theorem expect_of_ahead (h : c.ahead? = some t) : c.expect t.kind = (.ok t, c.advance) := by
  have his : t.is t.kind = true := decide_eq_true rfl
  unfold expect
  simp only [h, his, if_true]

theorem expect_of_ne (h : c.ahead? = some t) (hne : t.kind ≠ kind) :
    c.expect kind = (.error (.unexpected kind t.kind t.raw t.span), c) := by
  have his : t.is kind = false := decide_eq_false hne
  unfold expect
  simp only [h, his, Bool.false_eq_true, if_false]
  rfl

theorem expect_of_none (h : c.ahead? = none) (kind : Kind) :
    c.expect kind = (.error (.unexpectedEnd kind), c) := by
  unfold expect
  simp only [h]

/-- The expected token is ahead and passed by one move, or nothing at all is changed. -/
theorem expect_cases (c : Cursor) (kind : Kind) :
    (∃ t, c.ahead? = some t ∧ t.kind = kind ∧ c.expect kind = (.ok t, c.advance)) ∨
      (∀ t, c.ahead? = some t → t.kind ≠ kind) ∧
        ∃ fault, c.expect kind = (.error fault, c) := by
  cases h : c.ahead? with
  | none => exact Or.inr ⟨nofun, _, expect_of_none h kind⟩
  | some t =>
    by_cases hkind : t.kind = kind
    · subst hkind
      exact Or.inl ⟨t, rfl, rfl, expect_of_ahead h⟩
    · refine Or.inr ⟨?_, _, expect_of_ne h hkind⟩
      rintro u ⟨⟩
      exact hkind

/-- An expectation succeeds exactly if such a token is ahead. -/
theorem isOk_expect_iff (c : Cursor) (kind : Kind) :
    (c.expect kind).1.isOk = true ↔ ∃ t, c.ahead? = some t ∧ t.kind = kind := by
  rcases expect_cases c kind with ⟨t, hahead, hkind, hexpect⟩ | ⟨hnone, fault, hexpect⟩
  · rw [hexpect]
    exact ⟨fun _ => ⟨t, hahead, hkind⟩, fun _ => rfl⟩
  · rw [hexpect]
    refine ⟨fun h => absurd h Bool.false_ne_true, ?_⟩
    rintro ⟨t, hahead, hkind⟩
    exact absurd hkind (hnone t hahead)

/-! ## The tokens ahead -/

theorem tokensAhead_of_some (h : c.ahead? = some t) :
    c.tokensAhead = t :: c.advance.tokensAhead := by
  rw [tokensAhead_advance, tokensAhead, h]

theorem tokensAhead_of_none (h : c.ahead? = none) : c.tokensAhead = [] := by
  rw [tokensAhead, h]

theorem ahead?_eq_head? (c : Cursor) : c.ahead? = c.tokensAhead.head? := by
  cases h : c.ahead? with
  | none => rw [tokensAhead_of_none h, List.head?_nil]
  | some t => rw [tokensAhead_of_some h, List.head?_cons]

/-- The first move has all tokens of a query ahead. -/
theorem tokensAhead_ofQuery (config : Config) (query : Text) :
    (ofQuery config query).advance.tokensAhead = tokenize config query :=
  tokensAhead_advance (ofQuery config query)

/-! ## Runs of expectations -/

/-- What comes of some expectations, one after the other. -/
def answers (c : Cursor) : List Kind → List (Except Fault Token)
  | [] => []
  | kind :: kinds => (c.expect kind).1 :: (c.expect kind).2.answers kinds

/-- The tokens that are taken by some expectations. -/
def taken (c : Cursor) (kinds : List Kind) : List Token :=
  (c.answers kinds).filterMap Except.toOption

/-- The cursor after some expectations. -/
def afterAll (c : Cursor) (kinds : List Kind) : Cursor := c.serveAll (kinds.map .expect)

theorem taken_of_ok (h : c.expect kind = (.ok t, c.advance)) :
    c.taken (kind :: kinds) = t :: c.advance.taken kinds := by
  rw [taken, answers, h]
  rfl

/-- After a fault the others are expected at the same place. -/
theorem taken_of_error (h : c.expect kind = (.error fault, c)) :
    c.taken (kind :: kinds) = c.taken kinds := by
  rw [taken, answers, h]
  rfl

theorem afterAll_cons (c : Cursor) (kind : Kind) (kinds : List Kind) :
    c.afterAll (kind :: kinds) = (c.expect kind).2.afterAll kinds := rfl

/-- No token is lost: what is not taken is still ahead. -/
theorem taken_append_tokensAhead (c : Cursor) (kinds : List Kind) :
    c.taken kinds ++ (c.afterAll kinds).tokensAhead = c.tokensAhead := by
  induction kinds generalizing c with
  | nil => rfl
  | cons kind kinds ih =>
    rcases expect_cases c kind with ⟨t, hahead, -, hexpect⟩ | ⟨-, fault, hexpect⟩
    · rw [taken_of_ok hexpect, afterAll_cons, hexpect, List.cons_append, ih,
        tokensAhead_of_some hahead]
    · rw [taken_of_error hexpect, afterAll_cons, hexpect, ih]

/-- Only what is expected is taken. -/
theorem map_kind_taken_sublist (c : Cursor) (kinds : List Kind) :
    ((c.taken kinds).map Token.kind).Sublist kinds := by
  induction kinds generalizing c with
  | nil => exact .slnil
  | cons kind kinds ih =>
    rcases expect_cases c kind with ⟨t, -, rfl, hexpect⟩ | ⟨-, fault, hexpect⟩
    · rw [taken_of_ok hexpect, List.map_cons]
      exact (ih c.advance).cons_cons t.kind
    · rw [taken_of_error hexpect]
      exact (ih c).cons kind

/-- A token waits for the first expectation of its kind. The others are then expected behind it, so
none of them has been passed over. -/
theorem taken_of_sublist (h : (c.tokensAhead.map Token.kind).Sublist kinds) :
    c.taken kinds = c.tokensAhead := by
  induction kinds generalizing c with
  | nil =>
    rw [List.sublist_nil, List.map_eq_nil_iff] at h
    rw [h]
    rfl
  | cons kind kinds ih =>
    rcases expect_cases c kind with ⟨t, hahead, rfl, hexpect⟩ | ⟨hother, fault, hexpect⟩
    · rw [tokensAhead_of_some hahead, List.map_cons, List.cons_sublist_cons] at h
      rw [taken_of_ok hexpect, ih h, tokensAhead_of_some hahead]
    · rw [taken_of_error hexpect]
      refine ih ?_
      rw [ahead?_eq_head?] at hother
      cases htokens : c.tokensAhead with
      | nil => exact List.nil_sublist kinds
      | cons t tokens =>
        rw [htokens] at h hother
        exact h.of_cons_of_ne (hother t rfl)

theorem taken_eq_tokensAhead_iff :
    c.taken kinds = c.tokensAhead ↔ (c.tokensAhead.map Token.kind).Sublist kinds := by
  refine ⟨fun h => ?_, taken_of_sublist⟩
  rw [← h]
  exact map_kind_taken_sublist c kinds

/-- Expected by their own kinds, the tokens ahead are given one after the other. Then there is none
of any kind. -/
theorem answers_own_kinds (tokens : List Token) (h : c.tokensAhead = tokens) (kind : Kind) :
    c.answers (tokens.map Token.kind ++ [kind])
      = tokens.map .ok ++ [.error (.unexpectedEnd kind)] := by
  have hahead := ahead?_eq_head? c
  rw [h] at hahead
  induction tokens generalizing c with
  | nil =>
    rw [List.map_nil, List.nil_append, answers, expect_of_none hahead]
    rfl
  | cons t tokens ih =>
    have hahead : c.ahead? = some t := hahead
    rw [tokensAhead_of_some hahead, List.cons.injEq] at h
    rw [List.map_cons, List.cons_append, answers, expect_of_ahead hahead,
      ih h.2 (h.2 ▸ ahead?_eq_head? c.advance)]
    rfl

end Cursor

/-- An expectation either takes the token ahead by one move, which makes it the current one, or it
gives a fault that names what is there and leaves the cursor as it was, whatever has been asked of
it before. So reading a query by expectations loses nothing: in any run of them the tokens that are
taken are the first ones of the query, and the others are still ahead. All are taken exactly if
their kinds are expected in their order, with any others in between. Expected by their own kinds
alone, they are given one by one until the query ends. -/
theorem expect_loses_nothing (origin : Cursor.Origin) (requests : List Cursor.Request)
    (config : Config) (query : Text) (kinds : List Kind) :
    let c := origin.cursor.serveAll requests
    let start := (Cursor.ofQuery config query).advance
    let tokens := tokenize config query
    (∀ kind,
      ((c.expect kind).1.isOk = true ↔ ∃ t, c.ahead? = some t ∧ t.kind = kind) ∧
      (∀ t, c.ahead? = some t → t.kind = kind →
        c.expect kind = (.ok t, c.advance) ∧ c.advance.current? = some t) ∧
      (∀ t, c.ahead? = some t → t.kind ≠ kind →
        c.expect kind = (.error (.unexpected kind t.kind t.raw t.span), c)) ∧
      (c.ahead? = none → c.expect kind = (.error (.unexpectedEnd kind), c))) ∧
    start.taken kinds <+: tokens ∧
    start.taken kinds ++ (start.afterAll kinds).tokensAhead = tokens ∧
    (start.taken kinds = tokens ↔ (tokens.map Token.kind).Sublist kinds) ∧
    ∀ kind, start.answers (tokens.map Token.kind ++ [kind])
      = tokens.map .ok ++ [.error (.unexpectedEnd kind)] := by
  intro c start tokens
  have htokens : start.tokensAhead = tokens := Cursor.tokensAhead_ofQuery config query
  have hparts : start.taken kinds ++ (start.afterAll kinds).tokensAhead = tokens :=
    (Cursor.taken_append_tokensAhead start kinds).trans htokens
  refine ⟨fun kind => ⟨Cursor.isOk_expect_iff c kind, ?_, ?_, ?_⟩, ⟨_, hparts⟩, hparts, ?_,
    Cursor.answers_own_kinds tokens htokens⟩
  · rintro t hahead rfl
    exact ⟨Cursor.expect_of_ahead hahead, (Cursor.current?_advance c).trans hahead⟩
  · exact fun t hahead hkind => Cursor.expect_of_ne hahead hkind
  · exact fun hnone => Cursor.expect_of_none hnone kind
  · rw [← htokens]
    exact Cursor.taken_eq_tokensAhead_iff

/-- A reader who has looked ahead and then tries a wrong kind, the right one and one behind the end,
and who reads the query from its start with other kinds in between. -/
theorem expect_loses_nothing_of_comparison :
    let field : Token := { kind := .field, value := "a".toList, raw := "a".toList, span := ⟨0, 1⟩ }
    let c := (Cursor.Origin.ofQuery {} "a = 1".toList).cursor.serveAll [.advance, .peek]
    let used := (Cursor.Origin.ofQuery {} "a".toList).cursor.serveAll [.advance, .expect .field]
    let start := (Cursor.ofQuery {} "a = 1".toList).advance
    c.expect .relation = (.error (.unexpected .relation .field "a".toList ⟨0, 1⟩), c) ∧
    c.expect .field = (.ok field, c.advance) ∧
    used.expect .field = (.error (.unexpectedEnd .field), used) ∧
    start.taken [.relation, .field, .notEqual, .equal, .integer, .or]
      = tokenize {} "a = 1".toList := by
  intro field c used start
  have hahead : c.ahead? = some field := by decide
  obtain ⟨hone, -, -, hall, -⟩ := expect_loses_nothing (.ofQuery {} "a = 1".toList)
    [.advance, .peek] {} "a = 1".toList [.relation, .field, .notEqual, .equal, .integer, .or]
  obtain ⟨hused, -⟩ := expect_loses_nothing (.ofQuery {} "a".toList) [.advance, .expect .field]
    {} "a".toList []
  obtain ⟨-, -, hwrong, -⟩ := hone .relation
  obtain ⟨-, hright, -, -⟩ := hone .field
  obtain ⟨-, -, -, hend⟩ := hused .field
  exact ⟨hwrong field hahead (by decide), (hright field hahead rfl).1, hend (by decide),
    hall.mpr (by decide)⟩

end FilterQuery
