import FilterQuery.Proofs.Meaning.Collapse
import FilterQuery.Proofs.Scan.Embedding

/-!
# Quoting with one mark doubled

A text may be quoted by doubling only the mark that encloses it. What is found is one string, but it
need not mean the text: pairs of the other mark are collapsed too, though nothing doubled them. So
this quoting gives the text back exactly if it has no two of the other mark next to each other
(`tokenize_double`).
-/

namespace FilterQuery

namespace Text

/-- A text with one mark doubled, between two such marks. -/
def enclose (mark : Char) (s : Text) : Text := mark :: double mark s ++ [mark]

theorem matches_enclose (mark : Char) (s : Text) : (Regex.quoted mark).Matches (enclose mark s) :=
  Regex.matches_quoted_iff.mpr ⟨_, paired_double mark s, rfl⟩

end Text

theorem meaning_enclose (grammar : NumberGrammar) {mark other : Char}
    (h : mark = '\'' ∧ other = '"' ∨ mark = '"' ∧ other = '\'') (s : Text) :
    meaning grammar (Text.enclose mark s) = (.string, collapse other s) := by
  have hmark : IsMark mark := h.imp And.left And.left
  have hnumeral : isNumeral (Text.enclose mark s) = false :=
    isNumeral_cons_of_startsNoNumeral hmark.startsNoNumeral _
  rw [meaning_of_quotedBody? grammar hnumeral (quotedBody?_of_mark hmark _),
    unquote_double_one h]

/-- A text that is quoted with the enclosing mark doubled is one string token. Its value is the text
with each run of the other mark cut to half its length, rounded up, and that is the text itself
exactly if no two of the other mark are next to each other. -/
theorem tokenize_double (mark other : Char)
    (h : mark = '\'' ∧ other = '"' ∨ mark = '"' ∧ other = '\'') (s : Text) :
    let raw := Text.enclose mark s
    let value := s.halveRuns (· = other)
    (∀ grammar, meaning grammar raw = (.string, value)) ∧
    (∀ grammar, meaning grammar raw = (.string, s) ↔ ¬ [other, other] <:+: s) ∧
    ∀ config, tokenize config raw
      = [{ kind := .string, value, raw, span := ⟨0, Text.size raw⟩ }] := by
  intro raw value
  have hmark : IsMark mark := h.imp And.left And.left
  have hvalue : collapse other s = value := collapse_eq_halveRuns other s
  have hmeaning : ∀ grammar, meaning grammar raw = (.string, value) := fun grammar => by
    rw [← hvalue]
    exact meaning_enclose grammar h s
  refine ⟨hmeaning, fun grammar => ?_, fun config => ?_⟩
  · rw [hmeaning, ← hvalue, Prod.mk.injEq, collapse_eq_self_iff]
    exact and_iff_right rfl
  · have hhead : ∀ c ∈ raw.head?, isBlank c = false := by
      rintro c ⟨⟩
      exact hmark.not_isBlank
    have hleads : Leads config.numeric (some (Pattern.ofMark mark)) raw [] :=
      leads_quoted config.numeric hmark (Text.matches_enclose mark s) (by simp)
    rw [tokenize_of_leads_nil hhead hleads, hmeaning]

/-- Three marks of the other style become two, at the edge of the text too. -/
theorem tokenize_double_of_three :
    tokenize {} "\"'''a\"\"b''\"".toList =
      [{ kind := .string, value := "''a\"b'".toList, raw := "\"'''a\"\"b''\"".toList,
         span := ⟨0, 11⟩ }] ∧
      meaning .strict "\"'''a\"\"b''\"".toList ≠ (.string, "'''a\"b''".toList) := by
  obtain ⟨-, hback, htokens⟩ :=
    tokenize_double '"' '\'' (Or.inr ⟨rfl, rfl⟩) "'''a\"b''".toList
  refine ⟨(htokens {}).trans (by decide), fun h => ?_⟩
  exact (hback .strict).mp h ⟨[], "'a\"b''".toList, rfl⟩

end FilterQuery
