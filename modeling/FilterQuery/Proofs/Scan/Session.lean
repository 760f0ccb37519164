import FilterQuery.Proofs.Scan.Slice

/-!
# A scanner in use

A reader may ask a scanner for tokens in any order, one by one, several or all at a time, and may
set it to another query at any point. A `Session` keeps account of this: the query that the scanner
was set to last, and the tokens that it has gone over since.

What is seen and what is still to come are always the tokens of the query (`Session.Sound`). Every
request but a restart takes some number of tokens (`Session.serve_eq_taken`), so this has to be
shown for taking tokens and for a restart only. What a request yields is read off the tokens that
are still to come: the next token is the first of them, and several are the first several
(`Scanner.map_nextToken?_fst`, `Scanner.takeTokens_eq_take`).

A session is used up once a reader could know that nothing is left: a request ran out of tokens
(`Session.RunsOut`), or all of them have been seen.
-/

namespace FilterQuery

namespace Scanner

/-! ## Taking tokens -/

/-- The next token is the one token that is taken when one is asked for. -/
theorem takeTokens_one (s : Scanner) :
    s.takeTokens 1 = match s.nextToken? with
      | some (t, after) => ([t], after)
      | none => ([], s) := by
  rw [takeTokens, take, nextToken?]
  cases s.next? <;> rfl

/-- Tokens that are taken are the first ones of those that were still to come. -/
theorem takeTokens_append_drainTokens (n : Nat) (s : Scanner) :
    (s.takeTokens n).1 ++ (s.takeTokens n).2.drainTokens.1 = s.drainTokens.1 := by
  have hconfig : (s.take n).2.config = s.config := config_take n s
  show (s.take n).1.map _ ++ (s.take n).2.drain.1.map (Lexeme.token (s.take n).2.config.numeric)
    = s.drain.1.map _
  rw [hconfig, ← List.map_append, take_append_drain]

theorem fst_take : ∀ (n : Nat) (s : Scanner), (s.take n).1 = s.drain.1.take n
  | 0, s => rfl
  | n + 1, s => by
    rw [take]
    cases hnext : s.next? with
    | none => rw [drain_of_next?_eq_none hnext, List.take_nil]
    | some found => rw [drain_of_next?_eq_some hnext, List.take_succ_cons, ← fst_take n found.2]

/-- A number of tokens are as many of those that are still to come, from the first one on. -/
theorem takeTokens_eq_take (n : Nat) (s : Scanner) :
    (s.takeTokens n).1 = s.drainTokens.1.take n := by
  show (s.take n).1.map _ = (s.drain.1.map _).take n
  rw [fst_take, List.map_take]

/-- The next token is the first one of those that are still to come. -/
theorem map_nextToken?_fst (s : Scanner) :
    s.nextToken?.map Prod.fst = s.drainTokens.1.head? := by
  show _ = (s.drain.1.map _).head?
  rw [nextToken?, Option.map_map, List.head?_map]
  cases hnext : s.next? with
  | none => rw [drain_of_next?_eq_none hnext]; rfl
  | some found => rw [drain_of_next?_eq_some hnext]; rfl

/-- There is no next token exactly if none is still to come. -/
theorem nextToken?_eq_none_iff {s : Scanner} : s.nextToken? = none ↔ s.drainTokens.1 = [] := by
  rw [← List.head?_eq_none_iff, ← map_nextToken?_fst, Option.map_eq_none_iff]

/-- Where a number of tokens comes short, no token is left behind them. -/
theorem nextToken?_takeTokens {n : Nat} {s : Scanner} (h : (s.takeTokens n).1.length < n) :
    (s.takeTokens n).2.nextToken? = none := by
  rw [takeTokens_eq_take, List.length_take] at h
  have hall : (s.takeTokens n).1 = s.drainTokens.1 := by
    rw [takeTokens_eq_take, List.take_of_length_le (by omega)]
  have hleft := takeTokens_append_drainTokens n s
  rw [hall, List.append_right_eq_self] at hleft
  exact nextToken?_eq_none_iff.mpr hleft

/-- Where there is no next token, a scanner stays as it is. -/
theorem takeTokens_of_nextToken?_eq_none {s : Scanner} (h : s.nextToken? = none) :
    ∀ n : Nat, s.takeTokens n = ([], s)
  | 0 => rfl
  | n + 1 => by
    rw [nextToken?, Option.map_eq_none_iff] at h
    rw [takeTokens, take, h]
    rfl

/-! ## Sessions -/

/-- What a reader may ask of a scanner. -/
inductive Request where
  /-- The next token. -/
  | next
  /-- Up to a number of tokens. -/
  | take (n : Nat)
  /-- All tokens that are left. -/
  | all
  /-- All tokens that are left, if they are recognised. -/
  | recognized
  /-- A new start, at another query. -/
  | restart (query : Text)
  deriving DecidableEq

/-- A scanner in use. -/
structure Session where
  /-- The query that the scanner was set to last. -/
  query : Text
  /-- The tokens that it has gone over since. -/
  seen : List Token := []
  scanner : Scanner

namespace Session

/-- A session that begins with a new scanner. -/
def start (config : Config) (query : Text) : Session :=
  { query, scanner := Scanner.start config query }

/-- A session after one more request. Tokens that are asked for count as seen, also where the reader
gets a fault in their stead. -/
def serve (s : Session) : Request → Session
  | .next =>
    match s.scanner.nextToken? with
    | some (t, after) => { s with seen := s.seen ++ [t], scanner := after }
    | none => s
  | .take n =>
    let (tokens, after) := s.scanner.takeTokens n
    { s with seen := s.seen ++ tokens, scanner := after }
  | .all =>
    let (tokens, after) := s.scanner.drainTokens
    { s with seen := s.seen ++ tokens, scanner := after }
  | .recognized =>
    { s with
      seen := s.seen ++ s.scanner.drainTokens.1, scanner := s.scanner.drainRecognized.2 }
  | .restart query => { query, scanner := s.scanner.restart query }

/-- A session after some requests. -/
def serveAll (s : Session) (requests : List Request) : Session := requests.foldl serve s

/-- A session after some number of tokens has been taken. -/
def taken (s : Session) (n : Nat) : Session :=
  { s with
    seen := s.seen ++ (s.scanner.takeTokens n).1, scanner := (s.scanner.takeTokens n).2 }

/-- Whatever is asked for, some number of tokens is taken, if it is not a restart. -/
theorem serve_eq_taken (s : Session) {r : Request} (hr : ∀ query, r ≠ .restart query) :
    ∃ n, s.serve r = s.taken n := by
  cases r with
  | next =>
    refine ⟨1, ?_⟩
    rw [serve, taken, takeTokens_one]
    cases s.scanner.nextToken? with
    | none => rw [List.append_nil]
    | some found => rfl
  | take n => exact ⟨n, rfl⟩
  | all => exact ⟨s.scanner.rest.length, rfl⟩
  | recognized => exact ⟨s.scanner.rest.length, rfl⟩
  | restart query => exact absurd rfl (hr query)

/-! ## What is seen and what is still to come -/

/-- The scanner of a session is as it was configured, stands in the query of the session, and has
the tokens before it that are not seen yet. -/
structure Sound (config : Config) (s : Session) : Prop where
  configured : s.scanner.config = config
  within : s.scanner.Within s.query
  tokens : s.seen ++ s.scanner.drainTokens.1 = tokenize config s.query

variable {config : Config} {s : Session}

theorem sound_start (config : Config) (query : Text) : (start config query).Sound config where
  configured := rfl
  within := within_start config query
  tokens := rfl

theorem Sound.taken (h : s.Sound config) (n : Nat) : (s.taken n).Sound config where
  configured := (config_take n s.scanner).trans h.configured
  within := h.within.take
  tokens := by
    show s.seen ++ (s.scanner.takeTokens n).1 ++ (s.scanner.takeTokens n).2.drainTokens.1 = _
    rw [List.append_assoc, takeTokens_append_drainTokens]
    exact h.tokens

theorem Sound.serve (h : s.Sound config) (r : Request) : (s.serve r).Sound config := by
  by_cases hr : ∀ query, r ≠ .restart query
  · obtain ⟨n, hn⟩ := s.serve_eq_taken hr
    rw [hn]
    exact h.taken n
  · rw [not_forall] at hr
    obtain ⟨query, hr⟩ := hr
    obtain rfl := Decidable.not_not.mp hr
    show Sound config { query, scanner := Scanner.start s.scanner.config query }
    rw [h.configured]
    exact sound_start config query

theorem Sound.serveAll (h : s.Sound config) (requests : List Request) :
    (s.serveAll requests).Sound config := by
  induction requests generalizing s with
  | nil => exact h
  | cons r requests ih => exact ih (h.serve r)

theorem Sound.seen_prefix (h : s.Sound config) : s.seen <+: tokenize config s.query :=
  h.tokens ▸ List.prefix_append s.seen s.scanner.drainTokens.1

/-! ## Used up -/

theorem Sound.nextToken?_eq_none (h : s.Sound config)
    (hseen : s.seen = tokenize config s.query) : s.scanner.nextToken? = none := by
  have htokens := h.tokens
  rw [hseen, List.append_right_eq_self] at htokens
  exact nextToken?_eq_none_iff.mpr htokens

/-- After all tokens that are left have been asked for, there is no next one. -/
theorem nextToken?_drainTokens (s : Scanner) : s.drainTokens.2.nextToken? = none := by
  rw [nextToken?, Option.map_eq_none_iff]
  exact next?_drain s

/-- Only a restart brings further tokens. -/
theorem nextToken?_serveAll : ∀ {requests : List Request} {s : Session},
    (∀ query, .restart query ∉ requests) → s.scanner.nextToken? = none →
      (s.serveAll requests).scanner.nextToken? = none
  | [], _, _, h => h
  | r :: requests, s, hrequests, h => by
    have hr : ∀ query, r ≠ .restart query := fun query heq =>
      hrequests query (heq ▸ List.mem_cons_self)
    have hnext : (s.serve r).scanner.nextToken? = none := by
      obtain ⟨n, hn⟩ := s.serve_eq_taken hr
      rw [hn, Session.taken, takeTokens_of_nextToken?_eq_none h]
      exact h
    have hlater : ∀ query, .restart query ∉ requests := fun query hmem =>
      hrequests query (List.mem_cons_of_mem r hmem)
    show ((s.serve r).serveAll requests).scanner.nextToken? = none
    exact nextToken?_serveAll hlater hnext

/-- Whether a request goes to the end of the tokens: one token more is asked for where none is left,
or more tokens than are left, or all of them. -/
def RunsOut (s : Session) : Request → Prop
  | .next => s.scanner.nextToken? = none
  | .take n => (s.scanner.takeTokens n).1.length < n
  | .all | .recognized => True
  | .restart _ => False

theorem RunsOut.nextToken?_eq_none {r : Request} (h : s.RunsOut r) :
    (s.serve r).scanner.nextToken? = none := by
  cases r with
  | next =>
    have hnone : s.scanner.nextToken? = none := h
    rw [serve, hnone]
    exact hnone
  | take n => exact nextToken?_takeTokens h
  | all => exact nextToken?_drainTokens s.scanner
  | recognized => exact nextToken?_drainTokens s.scanner
  | restart query => exact h.elim

/-- At some point all tokens of the query had been seen or a request ran out of them, and no restart
came after it. -/
def UsedUp (config : Config) (query : Text) (requests : List Request) : Prop :=
  ∃ earlier later, requests = earlier ++ later ∧ (∀ q, .restart q ∉ later) ∧
    (((start config query).serveAll earlier).seen
        = tokenize config ((start config query).serveAll earlier).query ∨
      ∃ before r, earlier = before ++ [r] ∧ ((start config query).serveAll before).RunsOut r)

theorem serveAll_append (s : Session) (earlier later : List Request) :
    s.serveAll (earlier ++ later) = (s.serveAll earlier).serveAll later := List.foldl_append

theorem UsedUp.nextToken?_eq_none {query : Text} {requests : List Request}
    (h : UsedUp config query requests) :
    ((start config query).serveAll requests).scanner.nextToken? = none := by
  obtain ⟨earlier, later, rfl, hlater, hearlier⟩ := h
  rw [serveAll_append]
  refine nextToken?_serveAll hlater ?_
  rcases hearlier with hseen | ⟨before, r, rfl, hout⟩
  · exact ((sound_start config query).serveAll earlier).nextToken?_eq_none hseen
  · rw [serveAll_append]
    exact hout.nextToken?_eq_none

end Session
end Scanner

/-! ## Recognised tokens only -/

theorem recognized_of_all {tokens : List Token} (h : ∀ t ∈ tokens, t.kind ≠ .unrecognized) :
    recognized tokens = .ok tokens := by
  have hnone : tokens.find? Token.isUnrecognized = none := by
    rw [List.find?_eq_none]
    exact fun t ht hkind => h t ht (of_decide_eq_true hkind)
  rw [recognized, hnone]

theorem recognized_of_first {earlier later : List Token} {t : Token}
    (hearlier : ∀ u ∈ earlier, u.kind ≠ .unrecognized) (ht : t.kind = .unrecognized) :
    recognized (earlier ++ t :: later) = .error (.unrecognized t.raw t.span) := by
  have hsome : (earlier ++ t :: later).find? Token.isUnrecognized = some t := by
    have hkind : t.isUnrecognized = true := decide_eq_true ht
    rw [List.find?_append, List.find?_cons_of_pos hkind, Option.or_eq_some_iff]
    right
    refine ⟨?_, rfl⟩
    rw [List.find?_eq_none]
    exact fun u hu hkind => hearlier u hu (of_decide_eq_true hkind)
  rw [recognized, hsome]
  rfl

/-- Whatever has been asked of a scanner, the tokens that it went over since it was last set to a
query are the first ones of that query, and the others are still to come: the first of them is the
next one, and as many as are asked for are taken. Once they are used up there is none until it is
set to a query again. If only recognised tokens are asked for, all that are left are given or else
the fault of the first one that is not recognised. -/
theorem session_follows_tokenize (config : Config) (query : Text)
    (requests : List Scanner.Request) :
    let s := (Scanner.Session.start config query).serveAll requests
    s.seen <+: tokenize config s.query ∧
    s.seen ++ s.scanner.drainTokens.1 = tokenize config s.query ∧
    s.scanner.nextToken?.map Prod.fst = s.scanner.drainTokens.1.head? ∧
    (∀ n, (s.scanner.takeTokens n).1 = s.scanner.drainTokens.1.take n) ∧
    (Scanner.Session.UsedUp config query requests →
      s.scanner.nextToken? = none ∧ s.scanner.drainTokens.1 = []) ∧
    ((∀ t ∈ s.scanner.drainTokens.1, t.kind ≠ .unrecognized) →
      s.scanner.drainRecognized.1 = .ok s.scanner.drainTokens.1) ∧
    ∀ earlier t later, s.scanner.drainTokens.1 = earlier ++ t :: later →
      (∀ u ∈ earlier, u.kind ≠ .unrecognized) → t.kind = .unrecognized →
        s.scanner.drainRecognized.1 = .error (.unrecognized t.raw t.span) := by
  intro s
  have hsound : s.Sound config := (Scanner.Session.sound_start config query).serveAll requests
  refine ⟨hsound.seen_prefix, hsound.tokens, s.scanner.map_nextToken?_fst,
    fun n => s.scanner.takeTokens_eq_take n, fun hused => ?_, fun hall => ?_, ?_⟩
  · have hnone := hused.nextToken?_eq_none
    exact ⟨hnone, Scanner.nextToken?_eq_none_iff.mp hnone⟩
  · exact recognized_of_all hall
  · intro earlier t later htokens hearlier ht
    show recognized s.scanner.drainTokens.1 = _
    rw [htokens]
    exact recognized_of_first hearlier ht

/-- Tokens of two queries, the first of which is left before its end. -/
example : ((Scanner.Session.start {} "a = 'b' query(\"c\")".toList).serveAll
    [.next, .take 2, .restart "query(\"d\") # 1".toList, .next, .recognized, .next]).seen.map
      Token.raw = ["query(\"d\")".toList, "#".toList, "1".toList] := by decide

end FilterQuery
