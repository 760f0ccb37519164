import FilterQuery.Proofs.Report.Line
import FilterQuery.Proofs.Scan.Placed
import FilterQuery.Proofs.Scan.Tiling

/-!
# Diagnostics point at their token

The diagnostic for a token of a query shows the line in which the token starts, and its underline
covers the token there as far as the line goes (`diagnostic_points_at_token`).

The line may as well be found by offsets alone, with the newlines around the token's start
(`Report.Diagnostic.ofOffsets?`). Every part of the query that is then cut out lies within the query
and between character boundaries, and the diagnostic is the same one.
-/

namespace FilterQuery
namespace Report.Diagnostic

/-- The diagnostic for a token by offsets alone: the line is cut out of the query from the newline
before the token's start to the one behind it, the column is that of the start within the line, and
what is underlined stops with the token or with the line. -/
def ofOffsets? (query : Text) (token : Token) : Option Diagnostic := do
  let start := token.span.start
  let (before, rest) ← Text.splitAt? start query
  let text ← query.slice? (lineStart before) (lineStop start rest)
  let inLine := start - lineStart before
  let visible ← query.slice? start (min token.span.stop (lineStop start rest))
  some
    { lexeme := token.raw
      line := before.count '\n' + 1
      column := Span.column ⟨inLine, inLine⟩ text
      text
      width := max 1 visible.length }

/-! ## The part of a token in its first line -/

theorem min_length_firstLine (raw rest : Text) :
    min raw.length (firstLine (raw ++ rest)).length = (firstLine raw).length := by
  by_cases hraw : '\n' ∈ raw
  · rw [firstLine_append_of_mem hraw]
    exact Nat.min_eq_right (List.takeWhile_prefix _).length_le
  · rw [firstLine_append_of_not_mem hraw, firstLine_of_not_mem hraw, List.length_append]
    exact Nat.min_eq_left (Nat.le_add_right ..)

theorem min_size_firstLine (raw rest : Text) :
    min (Text.size raw) (Text.size (firstLine (raw ++ rest))) = Text.size (firstLine raw) := by
  by_cases hraw : '\n' ∈ raw
  · rw [firstLine_append_of_mem hraw]
    exact Nat.min_eq_right (Text.size_le_of_prefix (List.takeWhile_prefix _))
  · rw [firstLine_append_of_not_mem hraw, firstLine_of_not_mem hraw, Text.size_append]
    exact Nat.min_eq_left (Nat.le_add_right ..)

theorem firstLine_prefix_append (raw rest : Text) : firstLine raw <+: firstLine (raw ++ rest) := by
  by_cases hraw : '\n' ∈ raw
  · exact ⟨[], by rw [firstLine_append_of_mem hraw, List.append_nil]⟩
  · exact ⟨firstLine rest, by rw [firstLine_append_of_not_mem hraw, firstLine_of_not_mem hraw]⟩

end Report.Diagnostic

namespace Token.Placed

open Report.Diagnostic

variable {grammar : NumberGrammar} {query : Text} {t : Token} {p : Option Pattern}
  {before rest : Text} {later : List Token}

/-- A token of a query has a diagnostic, which is read off what stands before and behind it. -/
theorem diagnostic (h : t.Placed grammar query p before rest later) :
    ofToken? query t =
      some {
        lexeme := t.raw
        line := before.count '\n' + 1
        column := (lastLine before).length + 1
        text := lastLine before ++ firstLine (t.raw ++ rest)
        width := max 1 (firstLine t.raw).length } := by
  have hsplit : Text.splitAt? t.span.start query = some (before, t.raw ++ rest) :=
    Text.splitAt?_eq_some_iff.mpr ⟨h.query_eq, h.start⟩
  rw [← min_length_firstLine t.raw rest]
  simp only [ofToken?, hsplit, h.slice, Option.bind_eq_bind, Option.bind_some]

/-- The line of a token is cut out between the offsets of the newlines around the token's start. -/
theorem slice?_line (h : t.Placed grammar query p before rest later) :
    query.slice? (lineStart before) (lineStop t.span.start (t.raw ++ rest)) =
      some (lastLine before ++ firstLine (t.raw ++ rest)) := by
  obtain ⟨earlier, hbefore, hlow⟩ := exists_append_lastLine before
  obtain ⟨behind, hbehind, hhigh⟩ := exists_firstLine_append t.span.start (t.raw ++ rest)
  refine Text.slice?_eq_some_iff.mpr ⟨earlier, behind, ?_, hlow, ?_⟩
  · calc query = before ++ (t.raw ++ rest) := h.query_eq
      _ = (earlier ++ lastLine before) ++ (firstLine (t.raw ++ rest) ++ behind) := by
        rw [← hbefore, ← hbehind]
      _ = earlier ++ (lastLine before ++ firstLine (t.raw ++ rest)) ++ behind := by
        simp only [List.append_assoc]
  · rw [hhigh, ← h.start, Text.size_append, ← Nat.add_assoc, ← Text.size_append, ← hbefore]

/-- What is underlined is cut out from the token's start to its stop or to that of its line. -/
theorem slice?_visible (h : t.Placed grammar query p before rest later) :
    query.slice? t.span.start (min t.span.stop (lineStop t.span.start (t.raw ++ rest))) =
      some (firstLine t.raw) := by
  obtain ⟨hidden, hraw, -⟩ := exists_firstLine_append 0 t.raw
  obtain ⟨-, -, hhigh⟩ := exists_firstLine_append t.span.start (t.raw ++ rest)
  refine Text.slice?_eq_some_iff.mpr ⟨before, hidden ++ rest, ?_, h.start, ?_⟩
  · calc query = before ++ (t.raw ++ rest) := h.query_eq
      _ = before ++ ((firstLine t.raw ++ hidden) ++ rest) := by rw [← hraw]
      _ = before ++ firstLine t.raw ++ (hidden ++ rest) := by simp only [List.append_assoc]
  · rw [hhigh, ← h.stop, ← h.start, Nat.add_min_add_left, min_size_firstLine]

/-- Within its line a token starts behind the last line of what stands before it. -/
theorem column_inLine (h : t.Placed grammar query p before rest later) (text : Text) :
    Span.column ⟨t.span.start - lineStart before, t.span.start - lineStart before⟩
      (lastLine before ++ text) = (lastLine before).length + 1 := by
  obtain ⟨earlier, hbefore, hlow⟩ := exists_append_lastLine before
  have hsize : t.span.start = lineStart before + Text.size (lastLine before) := by
    rw [← h.start, ← hlow, ← Text.size_append, ← hbefore]
  rw [hsize, Nat.add_sub_cancel_left, Span.column, Text.splitAt?_size_append]

theorem diagnostic_offsets (h : t.Placed grammar query p before rest later) :
    ofOffsets? query t = ofToken? query t := by
  have hsplit : Text.splitAt? t.span.start query = some (before, t.raw ++ rest) :=
    Text.splitAt?_eq_some_iff.mpr ⟨h.query_eq, h.start⟩
  rw [h.diagnostic]
  simp only [ofOffsets?, hsplit, h.slice?_line, h.slice?_visible, h.column_inLine,
    Option.bind_eq_bind, Option.bind_some]

end Token.Placed

namespace Report.Diagnostic

/-! ## The text that is shown -/

/-- What a diagnostic says above the line of the query. -/
def headline (d : Diagnostic) : Text :=
  "error: unrecognized token '".toList ++ d.lexeme ++ "' at ".toList ++ Text.decimal d.line
    ++ ":".toList ++ Text.decimal d.column

/-- What a diagnostic shows below the line of the query. -/
def underline (d : Diagnostic) : Text :=
  "  ".toList ++ List.replicate (d.column - 1) ' ' ++ List.replicate d.width '^'

theorem newline_not_mem_underline (d : Diagnostic) : '\n' ∉ d.underline := by
  have hindent : '\n' ∉ "  ".toList := by decide
  simp only [underline, List.mem_append, List.mem_replicate, hindent, false_or, not_or, not_and]
  exact ⟨fun _ => by decide, fun _ => by decide⟩

theorem render_eq (d : Diagnostic) :
    d.render = d.headline ++ '\n' :: (("  ".toList ++ d.text) ++ '\n' :: d.underline) := by
  have hindent : "\n  ".toList = '\n' :: "  ".toList := rfl
  have hrender : d.render = d.headline ++ "\n  ".toList ++ d.text ++ "\n  ".toList
    ++ List.replicate (d.column - 1) ' ' ++ List.replicate d.width '^' := rfl
  rw [hrender, hindent, underline]
  simp only [List.append_assoc, List.cons_append]

/-- The lines that are shown are those of the headline, the line of the query and the underline. -/
theorem splitOn_render (d : Diagnostic) (htext : '\n' ∉ d.text) :
    d.render.splitOn '\n' = d.headline.splitOn '\n' ++ ["  ".toList ++ d.text, d.underline] := by
  have hindent : '\n' ∉ "  ".toList := by decide
  have hshown : '\n' ∉ "  ".toList ++ d.text := by
    rw [List.mem_append]
    exact not_or.mpr ⟨hindent, htext⟩
  rw [render_eq, List.splitOn_append_cons_self, List.splitOn_append_cons_self_of_not_mem hshown,
    List.splitOn_eq_singleton d.newline_not_mem_underline]

/-! ## Tokens of a query -/

/-- A token does not start with a newline, so there is something to be underlined. -/
theorem one_le_length_firstLine {config : Config} {query : Text} {t : Token}
    (ht : t ∈ tokenize config query) : 1 ≤ (firstLine t.raw).length := by
  have htiling := (Scans.lexemes config query).tiling (List.nil_append query).symm rfl (by simp)
  obtain ⟨c, rest, hraw, hc⟩ := htiling.head t ht
  have hne : decide (c ≠ '\n') = true := by
    refine decide_eq_true ?_
    rintro rfl
    exact absurd hc (by decide)
  rw [hraw, firstLine, List.takeWhile_cons, if_pos hne, List.length_cons]
  exact Nat.succ_pos _

end Report.Diagnostic

open Report (Diagnostic)

/-- The diagnostic for a token of a query points at the token. It can be made by offsets alone, and
nothing is then cut out but between character boundaries of the query. The line that it shows is the
one with its number among the lines of the query, and behind as many newlines and characters as it
tells the token starts. What is underlined in that line is the token as far as it stands there: at
least one character and none beyond the end of the line. -/
theorem diagnostic_points_at_token (config : Config) (query : Text) {t : Token}
    (ht : t ∈ tokenize config query) :
    ∃ d : Diagnostic,
      Diagnostic.ofToken? query t = some d ∧ Diagnostic.ofOffsets? query t = some d ∧
      d.lexeme = t.raw ∧ 1 ≤ d.line ∧ 1 ≤ d.column ∧
      (query.splitOn '\n')[d.line - 1]? = some d.text ∧
      Text.offsetAt? (d.line - 1) (d.column - 1) query = some t.span.start ∧
      d.render.splitOn '\n' = d.headline.splitOn '\n' ++
        ["  ".toList ++ d.text,
          "  ".toList ++ List.replicate (d.column - 1) ' ' ++ List.replicate d.width '^'] ∧
      (d.text.drop (d.column - 1)).take d.width = t.raw.takeWhile (· ≠ '\n') ∧
      d.width = (t.raw.takeWhile (· ≠ '\n')).length ∧
      1 ≤ d.width ∧ d.column - 1 + d.width ≤ d.text.length := by
  obtain ⟨p, before, rest, later, h⟩ := exists_placed_of_mem ht
  have hpositive := Diagnostic.one_le_length_firstLine ht
  have hdiagnostic := h.diagnostic
  rw [Nat.max_eq_right hpositive] at hdiagnostic
  -- what the line holds from the column on goes at least as far as the first line of the token
  have hvisible := Diagnostic.firstLine_prefix_append t.raw rest
  refine ⟨_, hdiagnostic, h.diagnostic_offsets.trans hdiagnostic, rfl, Nat.succ_pos _,
    Nat.succ_pos _, ?_, ?_, ?_, ?_, rfl, hpositive, ?_⟩
  · rw [Nat.add_sub_cancel, h.query_eq]
    exact Diagnostic.getElem?_splitOn before (t.raw ++ rest)
  · rw [Nat.add_sub_cancel, Nat.add_sub_cancel, ← h.start, h.query_eq]
    exact Diagnostic.offsetAt?_place before (t.raw ++ rest)
  · refine Diagnostic.splitOn_render _ (mt List.mem_append.mp ?_)
    exact not_or.mpr
      ⟨Diagnostic.newline_not_mem_lastLine before, Diagnostic.newline_not_mem_firstLine _⟩
  · rw [Nat.add_sub_cancel, List.drop_left]
    exact (List.prefix_iff_eq_take.mp hvisible).symm
  · rw [Nat.add_sub_cancel, List.length_append]
    exact Nat.add_le_add_left hvisible.length_le _

/-- A text literal that runs over two lines stands in the second line of a query, behind characters
of two bytes. It is underlined up to the end of that line. -/
theorem diagnostic_points_at_token_of_literal :
    let query := "ä = 1\n or é = 'x\ny' ~".toList
    let t : Token :=
      { kind := .string, value := "x\ny".toList, raw := "'x\ny'".toList, span := ⟨16, 21⟩ }
    let d : Diagnostic :=
      { lexeme := "'x\ny'".toList, line := 2, column := 9, text := " or é = 'x".toList, width := 2 }
    t ∈ tokenize {} query ∧ Diagnostic.ofOffsets? query t = some d ∧
      (query.splitOn '\n')[1]? = some d.text ∧ Text.offsetAt? 1 8 query = some 16 ∧
      (d.text.drop 8).take 2 = "'x".toList := by
  intro query t d
  have ht : t ∈ tokenize {} query := by decide +kernel
  obtain ⟨d', hd', hoffsets, -, -, -, hline, hoffset, -, htake, -⟩ :=
    diagnostic_points_at_token {} query ht
  have hd : Diagnostic.ofToken? query t = some d := by decide +kernel
  obtain rfl : d = d' := Option.some.inj (hd.symm.trans hd')
  exact ⟨ht, hoffsets, hline, hoffset, htake.trans (by decide)⟩

end FilterQuery
