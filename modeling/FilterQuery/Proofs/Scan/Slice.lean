import FilterQuery.Proofs.Scan.Run

/-!
# A token depends on no context

A part of a query from the start of one token to the end of another, read as a query of its own, has
just the tokens between them. Two facts about scans are behind this: a scan may be begun at any of
its lexemes (`Scans.drop`), and it may be ended behind any of them (`Scans.take`).
-/

namespace FilterQuery

namespace Scans

variable {grammar : NumberGrammar} {offset : Nat} {t : Text} {ls : List Lexeme}

/-- A single lexeme with blanks before it and nothing behind it, cut out of a text. -/
theorem last {gap raw rest : Text} {p : Option Pattern} (hgap : ∀ c ∈ gap, isBlank c = true)
    (hhead : ∀ c ∈ raw.head?, isBlank c = false) (hleads : Leads grammar p raw rest)
    (offset : Nat) :
    Scans grammar offset (gap ++ raw)
      [{ pattern := p, raw, start := offset + Text.size gap }] := by
  have hraw : Leads grammar p raw ([] ++ rest) := hleads
  have hend : Scans grammar (offset + Text.size gap + Text.size raw) [] [] :=
    done (List.forall_mem_nil _)
  have hscans := lexeme hgap hhead hraw.of_append hend
  rwa [List.append_nil] at hscans

/-- A scan may be begun at any of its lexemes. -/
theorem drop : ∀ {earlier later : List Lexeme} {l : Lexeme} {offset : Nat} {t : Text},
    Scans grammar offset t (earlier ++ l :: later) →
      ∃ before rest, t = before ++ rest ∧ offset + Text.size before = l.start ∧
        Scans grammar l.start rest (l :: later)
  | [], later, l, offset, t, h => by
    cases h with
    | @lexeme _ gap raw rest p _ hgap hhead hleads hrest =>
      exact ⟨gap, raw ++ rest, List.append_assoc .., rfl, front hhead hleads hrest⟩
  | m :: earlier, later, l, offset, t, h => by
    cases h with
    | @lexeme _ gap raw rest p _ hgap hhead hleads hrest =>
      obtain ⟨before, rest', rfl, hsize, hscans⟩ := drop hrest
      refine ⟨gap ++ raw ++ before, rest', by simp only [List.append_assoc], ?_, hscans⟩
      rw [← hsize, Text.size_append, Text.size_append]
      omega

/-- A scan may be ended behind any of its lexemes. -/
theorem take : ∀ {earlier later : List Lexeme} {l : Lexeme} {offset : Nat} {t : Text},
    Scans grammar offset t (earlier ++ l :: later) →
      ∃ part after, t = part ++ after ∧ offset + Text.size part = l.span.stop ∧
        Scans grammar offset part (earlier ++ [l])
  | [], later, l, offset, t, h => by
    cases h with
    | @lexeme _ gap raw rest p _ hgap hhead hleads hrest =>
      refine ⟨gap ++ raw, rest, rfl, ?_, ?_⟩
      · rw [Text.size_append, ← Nat.add_assoc]
        rfl
      · exact last hgap hhead hleads offset
  | m :: earlier, later, l, offset, t, h => by
    cases h with
    | @lexeme _ gap raw rest p _ hgap hhead hleads hrest =>
      obtain ⟨part, after, rfl, hsize, hscans⟩ := take hrest
      refine ⟨gap ++ raw ++ part, after, by simp only [List.append_assoc], ?_, ?_⟩
      · rw [← hsize, Text.size_append, Text.size_append]
        omega
      · exact lexeme hgap hhead hleads.of_append hscans

/-- The characters of a lexeme are a lexeme when they stand alone. -/
theorem alone (h : Scans grammar offset t ls) :
    ∀ l ∈ ls, Scans grammar 0 l.raw [{ l with start := 0 }] := by
  induction h with
  | done _ => exact List.forall_mem_nil _
  | @lexeme offset gap raw rest p ls hgap hhead hleads _ ih =>
    exact List.forall_mem_cons.mpr ⟨last (List.forall_mem_nil _) hhead hleads 0, ih⟩

/-- A part of a query from the start of one lexeme to the end of the same or a later one has the
lexemes between them. -/
theorem slice {config : Config} {query : Text} {ls : List Lexeme} {first last : Lexeme} {i j : Nat}
    (h : Scans config.numeric 0 query ls) (hij : i ≤ j) (hfirst : ls[i]? = some first)
    (hlast : ls[j]? = some last) :
    ∃ part, query.slice? first.span.start last.span.stop = some part ∧
      (FilterQuery.lexemes config part).map (Lexeme.shift first.start)
        = (ls.drop i).take (j + 1 - i) := by
  obtain ⟨hi, hfirst⟩ := List.getElem?_eq_some_iff.mp hfirst
  obtain ⟨hj, hlast⟩ := List.getElem?_eq_some_iff.mp hlast
  have hls : ls = ls.take i ++ first :: ls.drop (i + 1) := by
    rw [← hfirst, List.getElem_cons_drop, List.take_append_drop]
  have hnth : (ls.drop i)[j - i]? = some last := by
    rw [List.getElem?_drop, Nat.add_sub_cancel' hij, List.getElem?_eq_some_iff]
    exact ⟨hj, hlast⟩
  have hsub : j + 1 - i = j - i + 1 := by omega
  have htake : (ls.drop i).take (j + 1 - i) = (ls.drop i).take (j - i) ++ [last] := by
    rw [hsub, List.take_add_one, hnth]
    rfl
  have hdrop : first :: ls.drop (i + 1)
      = (ls.drop i).take (j - i) ++ last :: (ls.drop i).drop (j + 1 - i) := by
    rw [← hfirst, List.getElem_cons_drop, List.append_cons, ← htake, List.take_append_drop]
  -- The scan is begun at the first lexeme of the part and ended behind the last one.
  rw [hls] at h
  obtain ⟨before, rest, rfl, hbefore, hscans⟩ := h.drop
  rw [hdrop] at hscans
  obtain ⟨part, after, rfl, hpart, hscans⟩ := hscans.take
  refine ⟨part, Text.slice?_eq_some_iff.mpr ⟨before, after, ?_, ?_, ?_⟩, ?_⟩
  · rw [List.append_assoc]
  · rw [Nat.zero_add] at hbefore
    exact hbefore
  · rw [← hpart, ← hbefore, Nat.zero_add]
  · rw [htake, ← hscans.eq_map_shift]

end Scans

namespace Scanner

/-- What is taken and what is still to come are all lexemes. -/
theorem take_append_drain : ∀ (n : Nat) (s : Scanner),
    (s.take n).1 ++ (s.take n).2.drain.1 = s.drain.1
  | 0, s => rfl
  | n + 1, s => by
    rw [take]
    cases hnext : s.next? with
    | none => rfl
    | some found =>
      rw [drain_of_next?_eq_some hnext, ← take_append_drain n found.2]
      rfl

theorem config_take : ∀ (n : Nat) (s : Scanner), (s.take n).2.config = s.config
  | 0, s => rfl
  | n + 1, s => by
    rw [take]
    cases hnext : s.next? with
    | none => rfl
    | some found =>
      obtain ⟨-, -, -, -, hconfig⟩ := split_of_next? hnext
      rw [← hconfig]
      exact config_take n found.2

/-- What a scanner has still to find are the tokens of the text that it has still to read, taken as
a query of its own and moved on. -/
theorem Within.drainTokens {query : Text} {s : Scanner} (hs : s.Within query) :
    s.drainTokens.1 = (tokenize s.config s.rest).map (Token.shift s.offset) := by
  show s.drain.1.map (Lexeme.token s.config.numeric) = _
  rw [hs.scans.eq_map_shift, Lexeme.map_token_map_shift]
  rfl

end Scanner

/-- The tokens of a part of a query that starts and ends with tokens are those of the query. The
characters of a token have that one token. However many tokens are taken, the others are those of
the text that is left, read from a new start. -/
theorem tokenize_slice (config : Config) (query : Text) :
    (∀ i j first last, i ≤ j → (tokenize config query)[i]? = some first →
      (tokenize config query)[j]? = some last →
        ∃ part, query.slice? first.span.start last.span.stop = some part ∧
          (tokenize config part).map (Token.shift first.span.start)
            = ((tokenize config query).drop i).take (j + 1 - i)) ∧
    (∀ t ∈ tokenize config query,
      tokenize config t.raw = [{ t with span := ⟨0, Text.size t.raw⟩ }]) ∧
    ∀ n taken s, (Scanner.start config query).takeTokens n = (taken, s) →
      taken ++ s.drainTokens.1 = tokenize config query ∧
      (∃ before, query = before ++ s.rest ∧ Text.size before = s.offset) ∧
      s.drainTokens.1 = (tokenize config s.rest).map (Token.shift s.offset) := by
  have hscans := Scans.lexemes config query
  refine ⟨?_, ?_, ?_⟩
  · intro i j first last hij hfirst hlast
    rw [tokenize, List.getElem?_map, Option.map_eq_some_iff] at hfirst hlast
    obtain ⟨l, hl, rfl⟩ := hfirst
    obtain ⟨m, hm, rfl⟩ := hlast
    obtain ⟨part, hpart, hlexemes⟩ := hscans.slice hij hl hm
    refine ⟨part, hpart, ?_⟩
    rw [tokenize, tokenize, ← List.map_drop, ← List.map_take, ← hlexemes,
      Lexeme.map_token_map_shift]
    rfl
  · intro t ht
    obtain ⟨l, hl, rfl⟩ := List.mem_map.mp ht
    have halone := (hscans.alone l hl).unique (Scans.lexemes config l.raw)
    show (lexemes config l.raw).map _ = _
    rw [← halone]
    simp [Lexeme.token, Lexeme.span]
  · intro n taken s htake
    simp only [Scanner.takeTokens, Prod.mk.injEq] at htake
    obtain ⟨rfl, rfl⟩ := htake
    have hwithin := (Scanner.within_start config query).take (n := n)
    have hconfig := Scanner.config_take n (Scanner.start config query)
    refine ⟨?_, hwithin.place, ?_⟩
    · rw [tokenize, lexemes, ← Scanner.take_append_drain n, List.map_append]
      show _ ++ List.map (Lexeme.token _) _ = _
      rw [hconfig]
      rfl
    · rw [hwithin.drainTokens, hconfig]
      rfl

end FilterQuery
