import FilterQuery.Proofs.Meaning.Folding
import FilterQuery.Proofs.Scan.Run
import Mathlib.Data.List.Forall2

/-!
# Queries in another letter case

Two queries that differ in the case of ASCII letters only have the same tokens up to that case: of
the same kinds, at the same places. A lexeme at the front of the one text has its counterpart at the
front of the other (`Leads.of_fold_eq`), and so it goes on through both texts (`Scans.of_fold_eq`).
-/

namespace FilterQuery

open Text (fold)

/-- Two lexemes that may differ in the case of ASCII letters only. -/
structure Lexeme.EqUpToCase (l m : Lexeme) : Prop where
  pattern : l.pattern = m.pattern
  start : l.start = m.start
  raw : fold l.raw = fold m.raw

/-- Two tokens that may differ in the case of ASCII letters only. -/
structure Token.EqUpToCase (t u : Token) : Prop where
  kind : t.kind = u.kind
  span : t.span = u.span
  raw : fold t.raw = fold u.raw
  value : fold t.value = fold u.value

/-- The spelling of a lexeme matters for the spelling of its token only. -/
theorem Lexeme.EqUpToCase.token {l m : Lexeme} (h : l.EqUpToCase m) (grammar : NumberGrammar) :
    (l.token grammar).EqUpToCase (m.token grammar) := by
  obtain ⟨hkind, hvalue⟩ := meaning_of_fold_eq grammar h.raw
  refine ⟨hkind, ?_, h.raw, hvalue⟩
  show l.span = m.span
  rw [Lexeme.span, Lexeme.span, h.start, Text.size_eq_of_fold_eq h.raw]

/-- The lexeme at the front of a text is, in its other spelling, at the front of the text in that
spelling. -/
theorem Leads.of_fold_eq {grammar : NumberGrammar} {p : Option Pattern} {raw rest raw' rest' : Text}
    (h : Leads grammar p raw rest) (hraw : fold raw' = fold raw) (hrest : fold rest' = fold rest) :
    Leads grammar p raw' rest' := by
  have htext : fold (raw ++ rest) = fold (raw' ++ rest') := by
    rw [Text.fold_append, Text.fold_append, hraw, hrest]
  cases h with
  | found horder hearlier hform hlongest =>
    refine found horder ?_ (hform.of_fold_eq hraw) ?_
    · intro q hq x hx hx'
      obtain ⟨y, hy, hfold⟩ := Text.exists_prefix_of_fold_eq htext hx
      exact hearlier q hq y hy (hx'.of_fold_eq hfold)
    · intro x hx hx'
      obtain ⟨y, hy, hfold⟩ := Text.exists_prefix_of_fold_eq htext hx
      have hle := hlongest y hy (hx'.of_fold_eq hfold)
      rwa [Text.length_eq_of_fold_eq hfold, ← Text.length_eq_of_fold_eq hraw] at hle
  | alone hnone =>
    obtain ⟨d, rfl, -⟩ := List.map_eq_singleton_iff.mp hraw
    refine alone fun q x hx hx' => ?_
    obtain ⟨y, hy, hfold⟩ := Text.exists_prefix_of_fold_eq htext hx
    exact hnone q y hy (hx'.of_fold_eq hfold)

/-- A text in another spelling has the same lexemes in that spelling. -/
theorem Scans.of_fold_eq {grammar : NumberGrammar} {offset : Nat} {t : Text} {ls : List Lexeme}
    (h : Scans grammar offset t ls) : ∀ {u : Text}, fold u = fold t →
      ∃ ms, Scans grammar offset u ms ∧ List.Forall₂ Lexeme.EqUpToCase ls ms := by
  induction h with
  | done hblank =>
    intro u hu
    exact ⟨[], done (Text.forall_of_fold_eq Text.ignoresCase_isBlank hu hblank), .nil⟩
  | @lexeme offset gap raw rest p ls hgap hhead hleads _ ih =>
    intro u hu
    obtain ⟨front, rest', rfl, hfront, hrest⟩ := Text.exists_append_of_fold_eq hu
    obtain ⟨gap', raw', rfl, hgap', hraw⟩ := Text.exists_append_of_fold_eq hfront
    obtain ⟨ms, hms, hls⟩ := ih hrest
    have hblank : ∀ c ∈ gap', isBlank c = true :=
      Text.forall_of_fold_eq Text.ignoresCase_isBlank hgap' hgap
    have hhead' : ∀ c ∈ raw'.head?, isBlank c = false := by
      intro c hc
      obtain ⟨tail, rfl⟩ := List.head?_eq_some_iff.mp hc
      obtain ⟨d, raw, rfl⟩ := List.exists_cons_of_ne_nil hleads.ne_nil
      have hcd : c.toLower = d.toLower := (List.cons.inj hraw).1
      rw [← Text.ignoresCase_isBlank c, hcd, Text.ignoresCase_isBlank d, hhead d rfl]
    rw [← Text.size_eq_of_fold_eq hgap', ← Text.size_eq_of_fold_eq hraw] at hms
    refine ⟨_, lexeme hblank hhead' (hleads.of_fold_eq hraw hrest) hms, .cons ⟨rfl, ?_, ?_⟩ hls⟩
    · show offset + Text.size gap = offset + Text.size gap'
      rw [Text.size_eq_of_fold_eq hgap']
    · exact hraw.symm

/-- Two queries that differ in the case of ASCII letters only have as many tokens, of the same kinds
and at the same places, whose characters and values differ in the case of ASCII letters only. -/
theorem tokenize_ignores_case (config : Config) {a b : Text} (h : fold a = fold b) :
    List.Forall₂ Token.EqUpToCase (tokenize config a) (tokenize config b) := by
  obtain ⟨ms, hms, hls⟩ := (Scans.lexemes config a).of_fold_eq h.symm
  rw [← (Scans.lexemes config b).unique hms] at hls
  rw [tokenize, tokenize, List.forall₂_map_left_iff, List.forall₂_map_right_iff]
  exact hls.imp fun _ _ hlm => hlm.token config.numeric

/-- Keywords, an exponent, a full-text query and a quoted text, in two spellings each. -/
theorem tokenize_ignores_case_of_keywords :
    fold "Order NOT like 'É''s' AND Query(\"Ab\") or n=1E5 nullK".toList
        = fold "oRDER not LIKE 'É''S' and qUERY(\"aB\") OR N=1e5 NULLk".toList ∧
      List.Forall₂ Token.EqUpToCase
        (tokenize {} "Order NOT like 'É''s' AND Query(\"Ab\") or n=1E5 nullK".toList)
        (tokenize {} "oRDER not LIKE 'É''S' and qUERY(\"aB\") OR N=1e5 NULLk".toList) := by
  have h : fold "Order NOT like 'É''s' AND Query(\"Ab\") or n=1E5 nullK".toList
      = fold "oRDER not LIKE 'É''S' and qUERY(\"aB\") OR N=1e5 NULLk".toList := by decide
  exact ⟨h, tokenize_ignores_case {} h⟩

/-- Letters outside ASCII keep their case: the Kelvin sign is no `k`. -/
example : (tokenize {} "li\u212ae".toList).map Token.kind = [.field, .unrecognized, .field] := by
  decide

end FilterQuery
