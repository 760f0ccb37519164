import FilterQuery.Proofs.Pattern.Characters
import FilterQuery.Proofs.Text.Folding

/-!
# The forms of lexemes ignore letter case

An expression whose classes of characters ignore letter case stands for all spellings of its texts
or for none (`Regex.IgnoresCase.matches_of_fold_eq`). All expressions of the table are such, and the
form of a full-text query is kept too: a text without letters, as its closing mark, has one spelling
only.
-/

namespace FilterQuery

namespace Regex

/-- An expression whose classes of characters ignore letter case. -/
def IgnoresCase : Regex → Prop
  | empty => True
  | one p => FilterQuery.IgnoresCase p
  | seq a b => a.IgnoresCase ∧ b.IgnoresCase
  | alt a b => a.IgnoresCase ∧ b.IgnoresCase
  | star a => a.IgnoresCase

namespace IgnoresCase

variable {a b : Regex}

theorem seq (ha : a.IgnoresCase) (hb : b.IgnoresCase) : (Regex.seq a b).IgnoresCase := ⟨ha, hb⟩

theorem alt (ha : a.IgnoresCase) (hb : b.IgnoresCase) : (Regex.alt a b).IgnoresCase := ⟨ha, hb⟩

theorem star (ha : a.IgnoresCase) : (Regex.star a).IgnoresCase := ha

theorem plus (ha : a.IgnoresCase) : (Regex.plus a).IgnoresCase := ha.seq ha.star

theorem opt (ha : a.IgnoresCase) : (Regex.opt a).IgnoresCase := ha.alt trivial

theorem char {c : Char} (hc : c.isAlpha = false) : (Regex.char c).IgnoresCase :=
  Text.ignoresCase_eq hc

theorem word : ∀ w : Text, (Regex.word w).IgnoresCase
  | [] => trivial
  | w :: rest => .seq (Text.ignoresCase_toLower_eq w) (word rest)

theorem anyOf : ∀ {as : List Regex}, (∀ a ∈ as, a.IgnoresCase) → (Regex.anyOf as).IgnoresCase
  | [], _ => fun _ => rfl
  | _ :: _, h =>
    .alt (h _ List.mem_cons_self) (anyOf fun a ha => h a (List.mem_cons_of_mem _ ha))

theorem wordings (kinds : List Kind) : (Regex.wordings kinds).IgnoresCase := by
  refine anyOf fun a ha => ?_
  obtain ⟨k, -, rfl⟩ := List.mem_map.mp ha
  exact word k.spelling

/-- Every spelling of a text of the expression is one too. -/
theorem matches_of_fold_eq {r : Regex} {x : Text} (hx : r.Matches x) :
    r.IgnoresCase → ∀ {y : Text}, Text.fold y = Text.fold x → r.Matches y := by
  induction hx with
  | empty =>
    intro _ y h
    rw [List.map_eq_nil_iff.mp h]
    exact .empty
  | @one p c hc =>
    intro hp y h
    obtain ⟨d, rfl, hd⟩ := List.map_eq_singleton_iff.mp h
    refine .one ?_
    rw [← hp d, hd, hp c, hc]
  | seq _ _ iha ihb =>
    intro hr y h
    obtain ⟨u, v, rfl, hu, hv⟩ := Text.exists_append_of_fold_eq h
    exact .seq (iha hr.1 hu) (ihb hr.2 hv)
  | left _ ih => exact fun hr _ h => .left (ih hr.1 h)
  | right _ ih => exact fun hr _ h => .right (ih hr.2 h)
  | stop =>
    intro _ y h
    rw [List.map_eq_nil_iff.mp h]
    exact .stop
  | more _ _ iha ihs =>
    intro hr y h
    obtain ⟨u, v, rfl, hu, hv⟩ := Text.exists_append_of_fold_eq h
    exact .more (iha hr hu) (ihs hr hv)

/-- A text and its folded form are both in the language or both outside. -/
theorem matches_fold_iff {r : Regex} (hr : r.IgnoresCase) {x : Text} :
    r.Matches (Text.fold x) ↔ r.Matches x :=
  ⟨fun h => matches_of_fold_eq h hr (Text.fold_fold x).symm,
    fun h => matches_of_fold_eq h hr (Text.fold_fold x)⟩

end IgnoresCase

/-! ## The expressions of the table -/

theorem ignoresCase_isNameStart : FilterQuery.IgnoresCase isNameStart :=
  .or Text.isAlpha_toLower (Text.ignoresCase_eq (by decide))

theorem ignoresCase_isNamePart : FilterQuery.IgnoresCase isNamePart :=
  .or ignoresCase_isNameStart Text.ignoresCase_isDigit

theorem ignoresCase_identifier : identifier.IgnoresCase :=
  .seq ignoresCase_isNameStart (.star ignoresCase_isNamePart)

theorem ignoresCase_group : (seq (char '.') identifier).IgnoresCase :=
  .seq (.char (by decide)) ignoresCase_identifier

theorem ignoresCase_path : path.IgnoresCase :=
  .seq ignoresCase_identifier (.star ignoresCase_group)

theorem ignoresCase_relation : relation.IgnoresCase :=
  .seq ignoresCase_path
    (.seq (.char (by decide)) (.seq ignoresCase_identifier (.plus ignoresCase_group)))

theorem ignoresCase_digits : digits.IgnoresCase := .plus Text.ignoresCase_isDigit

theorem ignoresCase_fraction : fraction.IgnoresCase :=
  .seq (.char (by decide)) ignoresCase_digits

/-- The two letters that may start an exponent are the two cases of one. -/
theorem ignoresCase_exponent : exponent.IgnoresCase := by
  have hmark : FilterQuery.IgnoresCase fun c => c = 'e' || c = 'E' := by
    intro c
    simp only [← Bool.decide_or, Text.toLower_eq_or_iff (d := 'e') (u := 'E') (by decide) rfl]
  have hsign : FilterQuery.IgnoresCase fun c => c = '+' || c = '-' :=
    .or (Text.ignoresCase_eq (by decide)) (Text.ignoresCase_eq (by decide))
  exact .seq hmark (.seq (.opt hsign) ignoresCase_digits)

theorem ignoresCase_number : ∀ grammar : NumberGrammar, (number grammar).IgnoresCase
  | .strict => .seq ignoresCase_digits (.seq (.opt ignoresCase_fraction) (.opt ignoresCase_exponent))
  | .compat =>
    .seq ignoresCase_digits (.seq (.star ignoresCase_fraction) (.opt ignoresCase_exponent))

theorem ignoresCase_quoted {mark : Char} (h : IsMark mark) : (quoted mark).IgnoresCase := by
  have hmark : mark.isAlpha = false := by rcases h with rfl | rfl <;> decide
  have hother : FilterQuery.IgnoresCase fun c => c ≠ mark := by
    intro c
    simp only [ne_eq, Text.toLower_eq_symbol_iff hmark]
  exact .seq (.char hmark)
    (.seq (.star (.alt hother (.seq (.char hmark) (.char hmark)))) (.char hmark))

theorem ignoresCase_parenthesis : parenthesis.IgnoresCase :=
  FilterQuery.IgnoresCase.or (Text.ignoresCase_eq (by decide)) (Text.ignoresCase_eq (by decide))

end Regex

/-! ## The forms -/

/-- Every spelling of a full-text query is one. -/
theorem SubQuery.IsQuery.of_fold_eq {x y : Text} (hx : IsQuery x)
    (h : Text.fold y = Text.fold x) : IsQuery y := by
  obtain ⟨word, body, rfl, hword, hline, hbody⟩ := hx
  obtain ⟨front, closing', rfl, hfront, hclosing⟩ := Text.exists_append_of_fold_eq h
  obtain ⟨word', body', rfl, hword', hbody'⟩ := Text.exists_append_of_fold_eq hfront
  refine ⟨word', body', ?_, hword'.trans hword, ?_, ?_⟩
  · rw [Text.eq_of_fold_eq (by decide) hclosing]
  · exact fun hmem => hline (Text.mem_of_fold_eq (by decide) hbody'.symm hmem)
  · exact fun hinfix => hbody (Text.infix_of_fold_eq (by decide) hbody'.symm hinfix)

namespace Pattern

variable {grammar : NumberGrammar}

theorem ignoresCase_of_expression? {p : Pattern} {r : Regex}
    (h : p.expression? grammar = some r) : r.IgnoresCase := by
  cases p with
  | subQuery => simp [expression?] at h
  | singleQuoted => cases h; exact Regex.ignoresCase_quoted (Or.inl rfl)
  | doubleQuoted => cases h; exact Regex.ignoresCase_quoted (Or.inr rfl)
  | operator => cases h; exact Regex.operator_eq ▸ Regex.IgnoresCase.wordings operators
  | keyword => cases h; exact Regex.keyword_eq ▸ Regex.IgnoresCase.wordings [.null, .empty]
  | relation => cases h; exact Regex.ignoresCase_relation
  | field => cases h; exact Regex.ignoresCase_path
  | number => cases h; exact Regex.ignoresCase_number grammar
  | parenthesis => cases h; exact Regex.ignoresCase_parenthesis

/-- Every spelling of a lexeme of some form is of that form. -/
theorem Form.of_fold_eq {p : Pattern} {x y : Text} (hx : p.Form grammar x)
    (h : Text.fold y = Text.fold x) : p.Form grammar y := by
  cases hr : p.expression? grammar with
  | none =>
    obtain rfl := eq_subQuery_of_expression? hr
    exact SubQuery.IsQuery.of_fold_eq hx h
  | some r =>
    rw [form_of_expression? hr] at hx ⊢
    exact Regex.IgnoresCase.matches_of_fold_eq hx (ignoresCase_of_expression? hr) h

end Pattern
end FilterQuery
