import FilterQuery.Proofs.Scan.Placed
import FilterQuery.Proofs.Scan.Spacing

/-!
# Marks that are left open

A quote mark that starts no quoted text is a token by itself, which no rule accepts. How the marks
behind it are paired makes no difference: it is left open exactly if it does not occur again
(`OpenMarks.unrecognized_iff`), so it is the last of its kind. And where a quoted text stops in
front of one more of its marks, nothing closes that mark, since the text would have gone on through
it otherwise (`OpenMarks.next`).
-/

namespace FilterQuery

variable {grammar : NumberGrammar} {query : Text} {mark : Char} {t : Token}

namespace Token

/-- Whether a token is a mark that begins a text and is left open. -/
def IsOpen (mark : Char) (t : Token) : Prop := t.kind = .unrecognized ∧ t.raw = [mark]

instance (mark : Char) : DecidablePred (IsOpen mark) := fun t =>
  inferInstanceAs (Decidable (t.kind = .unrecognized ∧ t.raw = [mark]))

/-- Whether a token is a text that stands between two of a mark. -/
def IsQuoted (mark : Char) (t : Token) : Prop :=
  t.kind = .string ∧ ∃ body, t.raw = mark :: body ++ [mark]

theorem IsQuoted.mem_head? (h : t.IsQuoted mark) : mark ∈ t.raw.head? := by
  obtain ⟨-, body, hraw⟩ := h
  rw [hraw]
  rfl

theorem IsQuoted.raw_ne (h : t.IsQuoted mark) : t.raw ≠ [mark] := by
  obtain ⟨-, body, hraw⟩ := h
  rw [hraw]
  simp

/-- A token that starts with a mark is left open, and then the mark does not occur behind it, or it
is a text quoted with the mark. -/
theorem Placed.isOpen_or_isQuoted {p : Option Pattern} {before rest : Text} {later : List Token}
    (h : t.Placed grammar query p before rest later) (hmark : IsMark mark)
    (hhead : mark ∈ t.raw.head?) : (t.IsOpen mark ∧ mark ∉ rest) ∨ t.IsQuoted mark := by
  have hleads := h.leads
  have hmeaning := h.meaning
  by_cases hraw : t.raw = [mark]
  · rw [hraw] at hleads hmeaning
    rw [meaning_mark grammar hmark, Prod.mk.injEq] at hmeaning
    exact Or.inl ⟨⟨hmeaning.1.symm, hraw⟩, hleads.mark_not_mem hmark⟩
  · obtain ⟨hquoted, -⟩ := hleads.quoted_of_mark hmark hhead hraw
    obtain ⟨value, hvalue⟩ := meaning_of_quoted grammar hmark hquoted
    obtain ⟨body, -, hbody⟩ := Regex.matches_quoted_iff.mp hquoted
    rw [hvalue, Prod.mk.injEq] at hmeaning
    exact Or.inr ⟨hmeaning.1.symm, body, hbody⟩

end Token

/-- A mark that is a lexeme by itself occurs in none of the later lexemes. -/
theorem Scans.pairwise_mark_not_mem (hmark : IsMark mark) {offset : Nat} {text : Text}
    {ls : List Lexeme} (h : Scans grammar offset text ls) :
    ls.Pairwise fun l later => l.raw = [mark] → mark ∉ later.raw := by
  induction h with
  | done _ => exact List.Pairwise.nil
  | lexeme _ _ hleads hrest ih =>
    refine List.Pairwise.cons (fun later hlater hraw hmem => ?_) ih
    simp only at hraw
    rw [hraw] at hleads
    exact hleads.mark_not_mem hmark (hrest.mem_of_mem_raw later hlater hmem)

/-- What the tokens of a query say of the occurrences of a mark in it. -/
structure OpenMarks (query : Text) (mark : Char) (tokens : List Token) : Prop where
  /-- A token that starts with the mark begins a text, which is left open or closed. -/
  isOpen_or_isQuoted : ∀ t ∈ tokens, mark ∈ t.raw.head? → t.IsOpen mark ∨ t.IsQuoted mark
  /-- Such a token is not recognised exactly if the mark does not occur in the query behind its
  first character. -/
  unrecognized_iff : ∀ t ∈ tokens, mark ∈ t.raw.head? → ∃ before after,
    query = before ++ mark :: after ∧ Text.size before = t.span.start ∧
      (t.kind = .unrecognized ↔ mark ∉ after)
  /-- No token behind an open mark has the mark in it. -/
  last : tokens.Pairwise fun t later => t.IsOpen mark → mark ∉ later.raw
  /-- The mark is left open once at most. -/
  once : tokens.countP (fun t => t.IsOpen mark) ≤ 1
  /-- If one more mark follows a quoted text, it is the next token, and it is left open. -/
  next : ∀ earlier t later, tokens = earlier ++ t :: later → t.IsQuoted mark →
    query.slice? t.span.stop (t.span.stop + 1) = some [mark] →
      ∃ u later', later = u :: later' ∧ u.IsOpen mark ∧ u.span.start = t.span.stop
  /-- Two texts quoted with the mark do not touch. -/
  apart : ∀ t ∈ tokens, ∀ u ∈ tokens, t.IsQuoted mark → u.IsQuoted mark →
    u.span.start ≠ t.span.stop

namespace OpenMarks

variable {config : Config}

theorem unrecognized_iff_of_mem (hmark : IsMark mark) (ht : t ∈ tokenize config query)
    (hhead : mark ∈ t.raw.head?) : ∃ before after,
      query = before ++ mark :: after ∧ Text.size before = t.span.start ∧
        (t.kind = .unrecognized ↔ mark ∉ after) := by
  obtain ⟨p, before, rest, later, hplaced⟩ := exists_placed_of_mem ht
  have hquery := hplaced.query_eq
  rcases hplaced.isOpen_or_isQuoted hmark hhead with ⟨⟨hkind, hraw⟩, hrest⟩ | ⟨hkind, body, hraw⟩
  · rw [hraw] at hquery
    exact ⟨before, rest, hquery, hplaced.start, fun _ => hrest, fun _ => hkind⟩
  · -- The mark that closes the text is one of those behind its first character.
    rw [hraw] at hquery
    refine ⟨before, body ++ [mark] ++ rest, hquery, hplaced.start, fun hother => ?_, fun hnot => ?_⟩
    · rw [hkind] at hother
      simp at hother
    · simp at hnot

theorem pairwise_tokenize (config : Config) (query : Text) (hmark : IsMark mark) :
    (tokenize config query).Pairwise fun t later => t.IsOpen mark → mark ∉ later.raw := by
  rw [tokenize, List.pairwise_map]
  exact ((Scans.lexemes config query).pairwise_mark_not_mem hmark).imp fun h hopen => h hopen.2

/-- If no token behind an open mark has the mark in it, none is an open mark. -/
theorem countP_le_one {tokens : List Token}
    (h : tokens.Pairwise fun t later => t.IsOpen mark → mark ∉ later.raw) :
    tokens.countP (fun t => t.IsOpen mark) ≤ 1 := by
  induction h with
  | nil => exact Nat.zero_le 1
  | @cons t tokens hlater _ ih =>
    by_cases hopen : t.IsOpen mark
    · have hnone : tokens.countP (fun t => t.IsOpen mark) = 0 := by
        rw [List.countP_eq_zero]
        intro u hu hmark
        have hraw := (of_decide_eq_true hmark).2
        exact hlater u hu hopen (by rw [hraw]; exact List.mem_cons_self)
      rw [List.countP_cons_of_pos (by simpa using hopen), hnone]
    · rwa [List.countP_cons_of_neg (by simpa using hopen)]

theorem next_of_isQuoted (hmark : IsMark mark) {earlier later : List Token}
    (htokens : tokenize config query = earlier ++ t :: later) (hquoted : t.IsQuoted mark)
    (hslice : query.slice? t.span.stop (t.span.stop + 1) = some [mark]) :
    ∃ u later', later = u :: later' ∧ u.IsOpen mark ∧ u.span.start = t.span.stop := by
  obtain ⟨p, before, rest, hplaced⟩ := exists_placed htokens
  obtain ⟨ls, hscans, hlater⟩ := hplaced.later
  -- What is left behind the quoted text starts with the mark, and so does the next lexeme.
  obtain ⟨front, behind, hquery, hfront, -⟩ := Text.slice?_eq_some_iff.mp hslice
  rw [List.append_assoc] at hquery
  obtain rfl := hplaced.rest_eq hquery hfront
  obtain ⟨p', raw', rest', ls', hrest, hleads, rfl⟩ :=
    hscans.exists_leads_of_cons hmark.not_isBlank
  obtain rfl := hplaced.leads.raw_eq_of_mark_behind hmark hquoted.mem_head? hquoted.raw_ne hleads
    hrest (hleads.mem_head? hrest.symm)
  rw [List.map_cons] at hlater
  refine ⟨_, _, hlater.symm, ⟨?_, rfl⟩, rfl⟩
  exact congrArg Prod.fst (meaning_mark config.numeric hmark)

theorem start_ne_stop (hmark : IsMark mark) {u : Token} (ht : t ∈ tokenize config query)
    (hu : u ∈ tokenize config query) (htq : t.IsQuoted mark) (huq : u.IsQuoted mark) :
    u.span.start ≠ t.span.stop := by
  intro hstop
  obtain ⟨p, before, rest, later, hplaced⟩ := exists_placed_of_mem ht
  obtain ⟨p', before', rest', later', hplaced'⟩ := exists_placed_of_mem hu
  have hrest := hplaced.rest_eq hplaced'.query_eq (hplaced'.start.trans hstop)
  exact huq.raw_ne (hplaced.leads.raw_eq_of_mark_behind hmark htq.mem_head? htq.raw_ne
    hplaced'.leads hrest huq.mem_head?)

end OpenMarks

/-- A token that starts with a quote mark is not recognised exactly if the mark does not occur in
the query behind that first character. So a query leaves a mark open once at most, and no later
token has it. A mark right behind a text quoted with it is the one left open, so texts quoted with
the same mark do not touch. -/
theorem tokenize_openMarks (config : Config) (query : Text) (mark : Char)
    (hmark : mark = '\'' ∨ mark = '"') : OpenMarks query mark (tokenize config query) where
  isOpen_or_isQuoted t ht hhead := by
    obtain ⟨p, before, rest, later, hplaced⟩ := exists_placed_of_mem ht
    exact (hplaced.isOpen_or_isQuoted hmark hhead).imp_left And.left
  unrecognized_iff _ ht hhead := OpenMarks.unrecognized_iff_of_mem hmark ht hhead
  last := OpenMarks.pairwise_tokenize config query hmark
  once := OpenMarks.countP_le_one (OpenMarks.pairwise_tokenize config query hmark)
  next _ _ _ htokens hquoted hslice := OpenMarks.next_of_isQuoted hmark htokens hquoted hslice
  apart _ ht _ hu htq huq := OpenMarks.start_ne_stop hmark ht hu htq huq

/-- Where nothing closes the text behind a doubled mark, the first of the two closes it, and the
second is left open. -/
theorem tokenize_openMarks_of_doubled : ∃ u later,
    tokenize {} "'a''b".toList =
      { kind := .string, value := "a".toList, raw := "'a'".toList, span := ⟨0, 3⟩ } ::
        u :: later ∧
      u.IsOpen '\'' ∧ u.span.start = 3 := by
  obtain ⟨u, later, hlater, hopen, hstart⟩ :=
    (tokenize_openMarks {} "'a''b".toList '\'' (Or.inl rfl)).next []
      { kind := .string, value := "a".toList, raw := "'a'".toList, span := ⟨0, 3⟩ }
      (tokenize {} "'a''b".toList).tail (by decide) ⟨rfl, "a".toList, rfl⟩ (by decide)
  exact ⟨u, later, by rw [← hlater]; decide, hopen, hstart⟩

end FilterQuery
