import FilterQuery.Proofs.Scan.Extend
import Mathlib.Data.List.Infix

/-!
# A quoted text keeps to itself

Any text, once quoted, may be put into a query as a literal: whatever it holds, it makes one token
that means it, and the tokens on both sides stay what they are (`tokenize_quote`). Only the place
has to be chosen with care: not where a literal or a full-text query is left open, nor next to the
mark that encloses the literal.
-/

namespace FilterQuery

/-- A quoted text at the front of a text is the lexeme there, if its mark does not follow. -/
theorem leads_quoted (grammar : NumberGrammar) {mark : Char} (hmark : IsMark mark)
    {raw post : Text} (hquoted : (Regex.quoted mark).Matches raw) (hpost : ¬ [mark] <+: post) :
    Leads grammar (some (Pattern.ofMark mark)) raw post := by
  obtain ⟨earlier, later, horder, hearlier⟩ :=
    List.eq_append_cons_of_mem (Pattern.mem_order (Pattern.ofMark mark))
  obtain ⟨body, -, hraw⟩ := Regex.matches_quoted_iff.mp hquoted
  refine .found horder ?_ ((Pattern.form_ofMark hmark).mpr hquoted) ?_
  · intro q hq x hx hform
    rw [hraw] at hx
    obtain ⟨x, rfl⟩ := hform.exists_cons_of_prefix hx
    rw [Pattern.eq_ofMark_of_form hmark hform] at hq
    exact hearlier hq
  · intro x hx hform
    rw [Pattern.form_ofMark hmark] at hform
    rcases Text.prefix_append_cases hx with hle | ⟨c, u, hpre, rfl⟩
    · exact hle.length_le
    · have hc : c = mark := Regex.head_of_matches_quoted_append hquoted hform c rfl
      subst hc
      exact absurd ((List.prefix_append [c] u).trans hpre) hpost

/-- The literal and what follows it, as they stand behind the beginning of a query. -/
theorem scans_quote (config : Config) {mark : Char} (hmark : IsMark mark) (s : Text) {post : Text}
    (hpost : ¬ [mark] <+: post) (offset : Nat) :
    Scans config.numeric offset (Text.quote mark s ++ post)
      ({ pattern := some (Pattern.ofMark mark), raw := Text.quote mark s, start := offset } ::
        (lexemes config post).map (Lexeme.shift (offset + Text.size (Text.quote mark s)))) := by
  have hhead : ∀ c ∈ (Text.quote mark s).head?, isBlank c = false := by
    intro c hc
    rw [Text.quote, List.cons_append, List.head?_cons, Option.mem_some_iff] at hc
    exact hc ▸ hmark.not_isBlank
  have hpost' := (Scans.lexemes config post).shift (offset + Text.size (Text.quote mark s))
  rw [Nat.zero_add] at hpost'
  exact Scans.front hhead
    (leads_quoted config.numeric hmark (Text.matches_quote hmark s) hpost) hpost'

theorem token_quote (grammar : NumberGrammar) {mark : Char} (hmark : IsMark mark) (s : Text)
    (p : Option Pattern) (start : Nat) :
    ({ pattern := p, raw := Text.quote mark s, start := start } : Lexeme).token grammar
      = { kind := .string, value := s, raw := Text.quote mark s,
          span := ⟨start, start + Text.size (Text.quote mark s)⟩ } := by
  rw [Lexeme.token, meaning_quote grammar hmark]
  rfl

/-- A quoted text between two texts is one string token with that text as its value, and the tokens
of both texts stay. The first text must not leave a literal open, hold the opening of a full-text
query that is none, or end in such an opening or in the mark; the second must not start with the
mark. -/
theorem tokenize_quote (config : Config) (mark : Char) (pre s post : Text)
    (hmark : mark = '\'' ∨ mark = '"')
    (hopen : ∀ t ∈ tokenize config pre, t.kind = .unrecognized → t.raw ≠ ['\''] ∧ t.raw ≠ ['"'])
    (hquery : ∀ t ∈ tokenize config pre, t.kind = .field → Text.fold t.raw = "query".toList →
      pre.slice? t.span.stop (t.span.stop + 2) ≠ some "(\"".toList)
    (hend : ¬ [mark] <:+ pre)
    (hopening : mark = '"' → ∀ x, x <:+ pre → Text.fold x ≠ "query(".toList)
    (hpost : ¬ [mark] <+: post) :
    tokenize config (pre ++ Text.quote mark s ++ post)
      = tokenize config pre ++
        [{ kind := .string, value := s, raw := Text.quote mark s,
           span := ⟨Text.size pre, Text.size pre + Text.size (Text.quote mark s)⟩ }] ++
        (tokenize config post).map (Token.shift (Text.size (pre ++ Text.quote mark s))) := by
  have hmarks : ∀ l ∈ lexemes config pre, ∀ m, IsMark m → l.raw ≠ [m] := by
    intro l hl m hm hraw
    have hkind : (l.token config.numeric).kind = .unrecognized := by
      rw [Lexeme.token, hraw, meaning_mark config.numeric hm]
    have hne := hopen _ (List.mem_map_of_mem hl) hkind
    rcases hm with rfl | rfl
    · exact hne.1 hraw
    · exact hne.2 hraw
  have hfields : ∀ l ∈ lexemes config pre, Text.fold l.raw = SubQuery.openingWord →
      pre.slice? l.span.stop (l.span.stop + 2) ≠ some ['(', '"'] := by
    intro l hl hfold
    have hkind : (l.token config.numeric).kind = .field := by
      rw [Lexeme.token, meaning_of_fold_eq_openingWord config.numeric hfold]
    exact hquery _ (List.mem_map_of_mem hl) hkind hfold
  have hscans := Scans.append hmark hend hopening
    (scans_quote config hmark s hpost (Text.size pre)) (Scans.lexemes config pre)
    (List.nil_append pre).symm rfl hmarks hfields
  rw [tokenize, List.append_assoc pre]
  rw [← hscans.unique (Scans.lexemes config (pre ++ (Text.quote mark s ++ post)))]
  rw [List.map_append, List.map_cons, Lexeme.map_token_map_shift, Text.size_append]
  rw [token_quote config.numeric hmark, List.append_assoc]
  rfl

/-- A value that looks like the rest of a query stays a value. -/
theorem tokenize_quote_in_comparison :
    tokenize {} ("query(\"a\") or b = ".toList ++ Text.quote '"' "\") or query(\"".toList ++
        " and c".toList)
      = tokenize {} "query(\"a\") or b = ".toList ++
        [{ kind := .string, value := "\") or query(\"".toList,
           raw := Text.quote '"' "\") or query(\"".toList, span := ⟨18, 35⟩ }] ++
        (tokenize {} " and c".toList).map (Token.shift 35) := by
  refine tokenize_quote {} '"' "query(\"a\") or b = ".toList "\") or query(\"".toList
    " and c".toList (Or.inr rfl) (by decide) (by decide) (by decide) ?_ (by decide)
  intro _ x hx
  rw [← List.mem_tails] at hx
  revert x
  decide

end FilterQuery
