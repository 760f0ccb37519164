import FilterQuery.Proofs.Scan.Placed
import FilterQuery.Proofs.Scan.Tiling
import FilterQuery.Proofs.Text.Bytes

/-!
# The characters of tokens

Quoted texts and full-text queries hold any characters. Every other pattern is made of visible
characters of ASCII, but for the one space in `not like`. So a letter or a digit beyond ASCII, or a
sign that looks like one of ASCII, never gets into a name, a number or a word of the language: where
it stands outside of a literal it is a token by itself (`tokenize_plain`).

The classes of the patterns and the blanks between tokens are defined apart, by ranges of ASCII and
by the property `White_Space`. `isPlain` is where they meet.
-/

namespace FilterQuery

/-! ## Visible characters of ASCII -/

/-- Whether a character is one of ASCII and not blank. -/
def isPlain (c : Char) : Bool := Text.isAscii c && !isBlank c

theorem isPlain_iff {c : Char} : isPlain c = true ↔ Text.isAscii c = true ∧ isBlank c = false := by
  rw [isPlain, Bool.and_eq_true, Bool.not_eq_true']

theorem isPlain_of_toNat {c : Char} (h1 : 33 ≤ c.toNat) (h2 : c.toNat ≤ 126) :
    isPlain c = true := by
  refine isPlain_iff.mpr ⟨?_, not_isBlank_of_toNat h1 h2⟩
  rw [Text.isAscii, decide_eq_true_eq]
  omega

theorem isPlain_of_isDigit {c : Char} (h : c.isDigit = true) : isPlain c = true := by
  rw [Text.isDigit_iff] at h
  exact isPlain_of_toNat (by omega) (by omega)

theorem isPlain_of_isNameStart {c : Char} (h : isNameStart c = true) : isPlain c = true := by
  rw [isNameStart, Bool.or_eq_true, decide_eq_true_eq, Text.isAlpha_iff] at h
  rcases h with h | rfl
  · exact isPlain_of_toNat (by omega) (by omega)
  · decide

theorem isPlain_of_isNamePart {c : Char} (h : isNamePart c = true) : isPlain c = true := by
  rw [isNamePart, Bool.or_eq_true] at h
  rcases h with h | h
  · exact isPlain_of_isNameStart h
  · exact isPlain_of_isDigit h

theorem ignoresCase_isPlain : IgnoresCase isPlain := by
  intro c
  rw [isPlain, isPlain, Text.isAscii_toLower, Text.ignoresCase_isBlank]

/-! ## Paths, numbers and words -/

namespace Regex

variable {x : Text}

theorem isPlain_of_relation (h : relation.Matches x) : ∀ c ∈ x, isPlain c = true := by
  intro c hc
  have huses := uses_of_matches h c hc
  have hchar : isNameStart c = true ∨ isNamePart c = true ∨ c = '.' ∨ c = ':' := by
    simp [relation, path, longPath, identifier, run, plus, char, uses] at huses
    tauto
  rcases hchar with h | h | rfl | rfl
  · exact isPlain_of_isNameStart h
  · exact isPlain_of_isNamePart h
  · decide
  · decide

theorem isPlain_of_path (h : path.Matches x) : ∀ c ∈ x, isPlain c = true := by
  intro c hc
  have huses := uses_of_matches h c hc
  have hchar : isNameStart c = true ∨ isNamePart c = true ∨ c = '.' := by
    simp [path, identifier, run, char, uses] at huses
    tauto
  rcases hchar with h | h | rfl
  · exact isPlain_of_isNameStart h
  · exact isPlain_of_isNamePart h
  · decide

theorem isPlain_of_number {grammar : NumberGrammar} (h : (number grammar).Matches x) :
    ∀ c ∈ x, isPlain c = true := by
  intro c hc
  have huses := uses_of_matches h c hc
  have hchar : c.isDigit = true ∨ c = '.' ∨ c = 'e' ∨ c = 'E' ∨ c = '+' ∨ c = '-' := by
    cases grammar <;>
    · simp [number, fraction, exponent, sign, digits, plus, opt, char, uses] at huses
      tauto
  rcases hchar with h | rfl | rfl | rfl | rfl | rfl
  · exact isPlain_of_isDigit h
  all_goals decide

end Regex

/-- A wording of visible characters has them in any case of its letters. -/
theorem isPlain_of_spelling {k : Kind} {x : Text} (hk : k.spelling.all isPlain = true)
    (h : Text.fold x = Text.fold k.spelling) : ∀ c ∈ x, isPlain c = true :=
  Text.forall_of_fold_eq ignoresCase_isPlain h (List.all_eq_true.mp hk)

theorem isAscii_of_notLike {x : Text} (h : Text.fold x = Text.fold "not like".toList) :
    ∀ c ∈ x, Text.isAscii c = true :=
  Text.forall_of_fold_eq Text.isAscii_toLower h (List.all_eq_true.mp (by decide))

/-- The space between the two words of `not like` stays what it is. -/
theorem exists_words_of_notLike {x : Text} (h : Text.fold x = Text.fold "not like".toList) :
    ∃ first second, x = first ++ ' ' :: second ∧
      Text.fold first = "not".toList ∧ Text.fold second = "like".toList := by
  obtain ⟨first, behind, rfl, hfirst, hbehind⟩ :=
    Text.exists_append_of_fold_eq (a := "not".toList) (b := " like".toList) h
  obtain ⟨space, second, rfl, hspace, hsecond⟩ :=
    Text.exists_append_of_fold_eq (a := " ".toList) (b := "like".toList) hbehind
  obtain rfl := Text.eq_of_fold_eq (by decide) hspace
  exact ⟨first, second, rfl, hfirst, hsecond⟩

/-! ## Tokens outside of literals -/

/-- What a token outside of a literal is made of: one character that is not recognised, or visible
characters of ASCII, or the two words of `not like` and the space between them. -/
inductive Token.Plain (t : Token) : Prop where
  | alone {c : Char} : t.kind = .unrecognized → t.raw = [c] → t.value = [c] → t.Plain
  | visible : t.kind ≠ .notLike → (∀ c ∈ t.raw, isPlain c = true) → t.Plain
  | notLike : t.kind = .notLike → Text.fold t.raw = Text.fold "not like".toList → t.Plain

namespace Token.Placed

variable {grammar : NumberGrammar} {query : Text} {t : Token} {p : Option Pattern}
  {before rest : Text} {later : List Token}

/-- A wording tells its kind, and only one wording has a blank in it. -/
theorem plain_of_spelling (hfold : Text.fold t.raw = Text.fold t.kind.spelling)
    (hkind : t.kind.isOperator = true ∨ t.kind = .null ∨ t.kind = .empty) : t.Plain := by
  by_cases hnot : t.kind = .notLike
  · have hwords : Text.fold Kind.notLike.spelling = Text.fold "not like".toList := by decide
    rw [hnot, hwords] at hfold
    exact .notLike hnot hfold
  · have hplain : ∀ k : Kind, (k.isOperator = true ∨ k = .null ∨ k = .empty) → k ≠ .notLike →
        k.spelling.all isPlain = true := by
      intro k
      cases k <;> decide
    exact .visible hnot (isPlain_of_spelling (hplain t.kind hkind hnot) hfold)

/-- No pattern but those of literals takes anything but visible characters of ASCII. -/
theorem plain (h : t.Placed grammar query p before rest later) (hstring : t.kind ≠ .string)
    (hquery : t.kind ≠ .subQuery) : t.Plain := by
  have hsuits := h.suits
  cases p with
  | none =>
    obtain ⟨c, hraw, hmeaning⟩ := h.leads.meaning_of_none
    have hvalue := h.meaning.symm.trans hmeaning
    rw [Prod.mk.injEq, hraw] at hvalue
    exact .alone hvalue.1 hraw hvalue.2
  | some p =>
    have hform := h.leads.form
    have hne : t.kind ∈ Pattern.kinds (some p) → .notLike ∉ Pattern.kinds (some p) →
        t.kind ≠ .notLike := fun hmem hnot heq => hnot (heq ▸ hmem)
    cases p with
    | subQuery => exact absurd hsuits hquery
    | singleQuoted => exact absurd hsuits hstring
    | doubleQuoted => exact absurd hsuits hstring
    | operator => exact plain_of_spelling hsuits.2 (Or.inl hsuits.1)
    | keyword => exact plain_of_spelling hsuits.2 (Or.inr hsuits.1)
    | relation =>
      exact .visible (hne hsuits.mem_kinds (by decide)) (Regex.isPlain_of_relation hform)
    | field => exact .visible (hne hsuits.mem_kinds (by decide)) (Regex.isPlain_of_path hform)
    | number => exact .visible (hne hsuits.mem_kinds (by decide)) (Regex.isPlain_of_number hform)
    | parenthesis =>
      refine .visible (hne hsuits.mem_kinds (by decide)) ?_
      rcases hsuits with ⟨hraw, -⟩ | ⟨hraw, -⟩ <;> rw [hraw]
      · exact List.all_eq_true.mp (by decide)
      · exact List.all_eq_true.mp (by decide)

end Token.Placed

/-! ## Characters beyond ASCII -/

/-- A part of one character that covers the place of a character starts there. -/
theorem Text.eq_of_covers_singleton {before after b a : Text} {c : Char}
    (h : before ++ c :: after = b ++ [c] ++ a) (hlow : Text.size b ≤ Text.size before)
    (hhigh : Text.size before < Text.size b + Text.size [c]) : before = b := by
  rw [List.append_assoc] at h
  obtain ⟨gap, rfl, hrest⟩ := Text.exists_append_of_size_le h.symm hlow
  cases gap with
  | nil => exact List.append_nil b
  | cons d gap =>
    rw [List.singleton_append, List.cons_append, List.cons.injEq] at hrest
    rw [Text.size_append, Text.size_cons, ← hrest.1, Text.size_cons, Text.size_nil] at hhigh
    omega

/-- A token outside of a literal that covers a character beyond ASCII is that character alone. -/
theorem Token.Plain.eq_of_covers {query before after : Text} {t : Token} {c : Char} (h : t.Plain)
    (hslice : t.span.slice? query = some t.raw) (hquery : query = before ++ c :: after)
    (hlow : t.span.start ≤ Text.size before) (hhigh : Text.size before < t.span.stop)
    (hascii : Text.isAscii c = false) :
    t = { kind := .unrecognized, value := [c], raw := [c],
          span := ⟨Text.size before, Text.size before + c.utf8Size⟩ } := by
  obtain ⟨front, behind, hsplit, hstart, hstop⟩ := Text.slice?_eq_some_iff.mp hslice
  rw [hquery] at hsplit
  rw [← hstart] at hlow
  rw [← hstop] at hhigh
  have hmem : c ∈ t.raw := Text.mem_of_size_lt hsplit hlow hhigh
  cases h with
  | @alone d hkind hraw hvalue =>
    rw [hraw] at hmem hsplit hstop hhigh
    obtain rfl := List.mem_singleton.mp hmem
    obtain rfl := Text.eq_of_covers_singleton hsplit hlow hhigh
    obtain ⟨kind, value, raw, start, stop⟩ := t
    simp only at hkind hraw hvalue hstart hstop
    subst hkind hraw hvalue hstart hstop
    rfl
  | visible _ hraw =>
    rw [(isPlain_iff.mp (hraw c hmem)).1] at hascii
    simp at hascii
  | notLike _ hfold =>
    rw [isAscii_of_notLike hfold c hmem] at hascii
    simp at hascii

/-- Outside of quoted texts and full-text queries a token is one character that is not blank and not
recognised, or it consists of characters of ASCII, none of which is blank but the one space between
the words of `not like`. So a character beyond ASCII that is not blank lies in a quoted text or a
full-text query, or it is a token by itself that is not recognised. -/
theorem tokenize_plain (config : Config) (query : Text) :
    (∀ t ∈ tokenize config query, t.kind ≠ .string → t.kind ≠ .subQuery →
      (t.kind = .unrecognized ∧ ∃ c, t.raw = [c] ∧ isBlank c = false) ∨
      ((∀ c ∈ t.raw, Text.isAscii c = true) ∧
        if t.kind = .notLike then
          ∃ first second, t.raw = first ++ ' ' :: second ∧
            Text.fold first = "not".toList ∧ Text.fold second = "like".toList
        else ∀ c ∈ t.raw, isBlank c = false)) ∧
    ∀ before c after, query = before ++ c :: after →
      Text.isAscii c = false → isBlank c = false →
        (∃ t ∈ tokenize config query, (t.kind = .string ∨ t.kind = .subQuery) ∧
          t.span.start ≤ Text.size before ∧ Text.size before < t.span.stop) ∨
        { kind := .unrecognized, value := [c], raw := [c],
          span := ⟨Text.size before, Text.size before + c.utf8Size⟩ } ∈ tokenize config query := by
  have htiling : Tiling query 0 (tokenize config query) :=
    (Scans.lexemes config query).tiling (List.nil_append query).symm rfl (by simp)
  have hplain : ∀ t ∈ tokenize config query, t.kind ≠ .string → t.kind ≠ .subQuery → t.Plain := by
    intro t ht
    obtain ⟨p, before, rest, later, hplaced⟩ := exists_placed_of_mem ht
    exact hplaced.plain
  constructor
  · intro t ht hstring hquery
    cases hplain t ht hstring hquery with
    | @alone c hkind hraw _ =>
      obtain ⟨d, rest, hhead, hblank⟩ := htiling.head t ht
      rw [hraw, List.cons.injEq] at hhead
      exact Or.inl ⟨hkind, c, hraw, hhead.1 ▸ hblank⟩
    | visible hkind hraw =>
      rw [if_neg hkind]
      exact Or.inr ⟨fun c hc => (isPlain_iff.mp (hraw c hc)).1,
        fun c hc => (isPlain_iff.mp (hraw c hc)).2⟩
    | notLike hkind hfold =>
      rw [if_pos hkind]
      exact Or.inr ⟨isAscii_of_notLike hfold, exists_words_of_notLike hfold⟩
  · intro before c after hplace hascii hblank
    -- The token that covers the character is a literal or has no room for anything else.
    obtain ⟨t, ⟨ht, hlow, hhigh⟩, -⟩ :=
      htiling.cover before c after hplace (Nat.zero_le _) hblank
    by_cases hstring : t.kind = .string
    · exact Or.inl ⟨t, ht, Or.inl hstring, hlow, hhigh⟩
    by_cases hquery : t.kind = .subQuery
    · exact Or.inl ⟨t, ht, Or.inr hquery, hlow, hhigh⟩
    have hpart := (hplain t ht hstring hquery).eq_of_covers (htiling.slice t ht) hplace hlow hhigh
      hascii
    exact Or.inr (hpart ▸ ht)

/-- The Kelvin sign is no letter of a word. -/
example : (tokenize {} "li\u212ae".toList).map Token.kind = [.field, .unrecognized, .field] := by
  decide

end FilterQuery
