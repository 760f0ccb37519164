import FilterQuery.Proofs.Scan.Capture
import FilterQuery.Proofs.Scan.Slice

/-!
# Tokens in their places

A token is found at a place of the query, by some pattern, with other tokens behind it. What is said
of single tokens of a query mostly needs all of this, so it is kept together here
(`Token.Placed`), and every token has such a place (`exists_placed`).
-/

namespace FilterQuery

/-- A token in its place in a query: what stands before and behind it, the pattern that leads there,
and the tokens that follow. -/
structure Token.Placed (grammar : NumberGrammar) (query : Text) (t : Token) (p : Option Pattern)
    (before rest : Text) (later : List Token) : Prop where
  query_eq : query = before ++ (t.raw ++ rest)
  start : Text.size before = t.span.start
  stop : Text.size before + Text.size t.raw = t.span.stop
  leads : Leads grammar p t.raw rest
  meaning : meaning grammar t.raw = (t.kind, t.value)
  later : ∃ ls, Scans grammar t.span.stop rest ls ∧ ls.map (Lexeme.token grammar) = later

/-- At each of its lexemes a scan is divided into what stands before, the lexeme, and the scan of
what follows. -/
theorem Scans.exists_leads_append {grammar : NumberGrammar} {offset : Nat} {t : Text}
    {earlier later : List Lexeme} {l : Lexeme}
    (h : Scans grammar offset t (earlier ++ l :: later)) :
    ∃ before rest, t = before ++ (l.raw ++ rest) ∧ offset + Text.size before = l.start ∧
      Leads grammar l.pattern l.raw rest ∧ Scans grammar l.span.stop rest later := by
  obtain ⟨before, behind, rfl, hsize, hscans⟩ := h.drop
  generalize hstart : l.start = start at hscans
  cases hscans with
  | @lexeme _ gap raw rest p _ _ _ hleads hrest =>
    -- The lexeme stands where the scan was begun, so there is no gap before it.
    have hgap : gap = [] := by
      rw [← Text.size_eq_zero]
      simp only at hstart
      omega
    subst hgap
    exact ⟨before, rest, rfl, hsize, hleads, hrest⟩

/-- Every token of a query has its place there. -/
theorem exists_placed {config : Config} {query : Text} {earlier later : List Token} {t : Token}
    (h : tokenize config query = earlier ++ t :: later) :
    ∃ p before rest, t.Placed config.numeric query p before rest later := by
  obtain ⟨earlier', behind, hls, -, hbehind⟩ := List.map_eq_append_iff.mp h
  obtain ⟨l, later', rfl, rfl, hlater⟩ := List.map_eq_cons_iff.mp hbehind
  obtain ⟨before, rest, hquery, hstart, hleads, hrest⟩ :=
    (hls ▸ Scans.lexemes config query).exists_leads_append
  rw [Nat.zero_add] at hstart
  refine ⟨l.pattern, before, rest, hquery, hstart, ?_, hleads, rfl, later', hrest, hlater⟩
  rw [hstart]
  rfl

theorem exists_placed_of_mem {config : Config} {query : Text} {t : Token}
    (h : t ∈ tokenize config query) :
    ∃ p before rest later, t.Placed config.numeric query p before rest later := by
  obtain ⟨earlier, later, htokens⟩ := List.append_of_mem h
  obtain ⟨p, before, rest, hplaced⟩ := exists_placed htokens
  exact ⟨p, before, rest, later, hplaced⟩

/-! ## Kinds and patterns -/

/-- The kinds that lexemes of a pattern may have. -/
def Pattern.kinds : Option Pattern → List Kind
  | none => [.unrecognized]
  | some subQuery => [.subQuery]
  | some singleQuoted => [.string]
  | some doubleQuoted => [.string]
  | some operator => operators
  | some keyword => [.null, .empty]
  | some relation => [.relation]
  | some field => [.and, .or, .field]
  | some number => [.integer, .float, .field, .unrecognized]
  | some parenthesis => [.leftParen, .rightParen]

theorem Suits.mem_kinds {grammar : NumberGrammar} {raw : Text} {k : Kind} {p : Option Pattern}
    (h : Suits grammar raw k p) : k ∈ Pattern.kinds p := by
  cases p with
  | none => exact List.mem_singleton.mpr h
  | some p =>
    cases p with
    | operator =>
      have hoperators : ∀ k : Kind, k.isOperator = true → k ∈ Pattern.operators := by
        intro k
        cases k <;> decide
      exact hoperators k h.1
    | keyword => simpa [Pattern.kinds] using h.1
    | field =>
      have hk : k = _ := h
      split at hk
      · simp [hk, Pattern.kinds]
      · split at hk <;> simp [hk, Pattern.kinds]
    | number =>
      by_cases hnumber : (Regex.number .strict).Matches raw
      · have hk := h.1 hnumber
        split at hk <;> simp [hk, Pattern.kinds]
      · rcases (h.2 hnumber).2.2 with rfl | rfl <;> simp [Pattern.kinds]
    | parenthesis => rcases h with ⟨-, rfl⟩ | ⟨-, rfl⟩ <;> simp [Pattern.kinds]
    | _ => exact List.mem_singleton.mpr h

/-! ## What the place of a token says -/

namespace Token.Placed

variable {grammar : NumberGrammar} {query : Text} {t : Token} {p : Option Pattern}
  {before rest : Text} {later : List Token}

theorem slice (h : t.Placed grammar query p before rest later) :
    t.span.slice? query = some t.raw :=
  Text.slice?_eq_some_iff.mpr
    ⟨before, rest, by rw [h.query_eq, List.append_assoc], h.start, h.stop⟩

/-- What stands behind a token is the query from the token's stop on. -/
theorem rest_eq (h : t.Placed grammar query p before rest later) {front behind : Text}
    (hquery : query = front ++ behind) (hsize : Text.size front = t.span.stop) : rest = behind := by
  rw [h.query_eq, ← List.append_assoc] at hquery
  exact (Text.append_inj_of_size_eq hquery (by rw [Text.size_append, h.stop, hsize])).2

/-- The kind of a token goes with the pattern that leads there. -/
theorem suits (h : t.Placed grammar query p before rest later) : Suits grammar t.raw t.kind p := by
  have hsuits := h.leads.suits
  rwa [h.meaning] at hsuits

/-- Only one pattern finds full-text queries. -/
theorem isQuery (h : t.Placed grammar query p before rest later) (hkind : t.kind = .subQuery) :
    SubQuery.IsQuery t.raw := by
  have hkinds : ∀ p, Kind.subQuery ∈ Pattern.kinds p → p = some .subQuery := by
    intro p
    rcases p with _ | p
    · decide
    · cases p <;> decide
  have hpattern := hkinds p (hkind ▸ h.suits.mem_kinds)
  have hleads := h.leads
  rw [hpattern] at hleads
  exact hleads.form

end Token.Placed
end FilterQuery
