import FilterQuery.Proofs.Scan.Capture

/-!
# The strict grammar refines the compatible one

The two grammars differ in the long numbers only. A long number is one token under the compatible
grammar. Under the strict one it falls into numbers with a point between any two of them, each of
which but the last one is a decimal (`NumberTokens`). All other tokens are the same under both
(`tokenize_refines`).

So the scans go side by side. Where the compatible grammar takes a lexeme that is no long number,
the strict one takes the same (`Leads.strict`). At a long number the strict one takes as much with
several lexemes, and both go on from the same place (`NumberTokens.scans`).
-/

namespace FilterQuery

variable {grammar : NumberGrammar} {p : Option Pattern} {raw rest x : Text} {start : Nat}

/-! ## Forms of the two grammars -/

namespace Pattern

/-- What has a form under the strict grammar has it under the compatible one. -/
theorem Form.compat {q : Pattern} (h : q.Form .strict x) : q.Form .compat x := by
  cases q with
  | number => exact Regex.number_compat_of_strict h
  | _ => exact h

/-- What has a form under the compatible grammar has it under the strict one, unless it is a long
number. -/
theorem Form.strict {q : Pattern} (h : q.Form .compat x) (hlong : ¬ Regex.longNumber.Matches x) :
    q.Form .strict x := by
  cases q with
  | number => exact (Regex.matches_number_compat_iff.mp h).resolve_right hlong
  | _ => exact h

/-- At a digit there are numbers only. -/
theorem not_form_of_isDigit {q : Pattern} (hq : q ≠ number) {c : Char} {tail : Text}
    (hc : c.isDigit = true) : ∀ y, y <+: c :: tail → ¬ q.Form grammar y := by
  intro y hy hform
  obtain ⟨u, rfl⟩ := hform.exists_cons_of_prefix hy
  rw [(hform.startsNoNumeral hq).1] at hc
  simp at hc

/-- Nothing of any form starts with a point. -/
theorem not_form_of_point {q : Pattern} {tail : Text} :
    ∀ y, y <+: '.' :: tail → ¬ q.Form grammar y := by
  intro y hy hform
  obtain ⟨u, rfl⟩ := hform.exists_cons_of_prefix hy
  by_cases hq : q = number
  · have hnumber : (Regex.number grammar).Matches ('.' :: u) := by rwa [hq] at hform
    obtain ⟨d, v, heq, hd⟩ := Regex.isDigit_of_number hnumber
    rw [← (List.cons.inj heq).1] at hd
    exact absurd hd (by decide)
  · exact absurd rfl (hform.startsNoNumeral hq).2.2.2

end Pattern

/-! ## Lexemes of the two grammars -/

namespace Leads

/-- A number that goes as far as it can is a lexeme. -/
theorem of_number (h : (Regex.number grammar).Matches raw)
    (hlongest : ∀ y, y <+: raw ++ rest → (Regex.number grammar).Matches y →
      y.length ≤ raw.length) : Leads grammar (some .number) raw rest := by
  obtain ⟨c, tail, rfl, hc⟩ := Regex.isDigit_of_number h
  have horder : Pattern.order = [.subQuery, .singleQuoted, .doubleQuoted, .operator, .keyword,
      .relation, .field] ++ .number :: [.parenthesis] := rfl
  refine found horder (fun q hq => ?_) h hlongest
  have hne : q ≠ .number := by
    rintro rfl
    exact absurd hq (by decide)
  exact Pattern.not_form_of_isDigit hne hc

theorem longest {q : Pattern} (h : Leads grammar (some q) raw rest) :
    ∀ y, y <+: raw ++ rest → q.Form grammar y → y.length ≤ raw.length := by
  cases h with
  | found _ _ _ hlongest => exact hlongest

/-- A lexeme of the compatible grammar is one of the strict grammar, unless it is a long number. -/
theorem strict (h : Leads .compat p raw rest) (hlong : ¬ Regex.longNumber.Matches raw) :
    Leads .strict p raw rest := by
  cases h with
  | found horder hearlier hform hlongest =>
    exact found horder (fun q hq y hy hq' => hearlier q hq y hy hq'.compat) (hform.strict hlong)
      fun y hy hq' => hlongest y hy hq'.compat
  | alone hnone => exact alone fun q y hy hq' => hnone q y hy hq'.compat

/-- Only the pattern of numbers finds a long number. -/
theorem eq_number_of_longNumber (h : Leads .compat p raw rest)
    (hlong : Regex.longNumber.Matches raw) : p = some .number := by
  have hnumber : Pattern.number.Form .compat raw := Regex.number_compat_of_longNumber hlong
  cases p with
  | none =>
    cases h with
    | alone hnone => exact absurd hnumber (hnone .number _ (List.prefix_append _ rest))
  | some q =>
    by_contra hq
    obtain ⟨c, tail, rfl, hc⟩ := Regex.isDigit_of_number hnumber
    have hne : q ≠ .number := fun heq => hq (congrArg some heq)
    exact Pattern.not_form_of_isDigit hne hc _ List.prefix_rfl h.form

/-- What is one lexeme under both grammars has one meaning. -/
theorem meaning_eq (h : Leads .compat p raw rest) (hstrict : Leads .strict p raw rest) :
    meaning .compat raw = meaning .strict raw := by
  cases p with
  | none =>
    obtain ⟨-, -, hcompat⟩ := h.meaning_of_none
    obtain ⟨-, -, hstrict⟩ := hstrict.meaning_of_none
    rw [hcompat, hstrict]
  | some q => exact meaning_compat hstrict.suits.ne_unrecognized

/-! ## Numbers piece by piece -/

variable {first tail : Text}

/-- The decimal at the front of a long number is a lexeme of the strict grammar, as a second point
may not follow. -/
theorem decimal (hfirst : Regex.decimal.Matches first) :
    Leads .strict (some .number) first ('.' :: rest) := by
  refine of_number (Regex.number_strict_of_decimal hfirst) fun y hy hnumber => ?_
  rcases Text.prefix_append_cases hy with hle | ⟨c, e, hpre, rfl⟩
  · exact hle.length_le
  · have hcount := Regex.count_point_of_number_strict hnumber
    rw [(List.cons_prefix_cons.mp hpre).1, List.count_append, Regex.count_point_of_decimal hfirst,
      List.count_cons_self] at hcount
    omega

theorem point (grammar : NumberGrammar) (rest : Text) : Leads grammar none ['.'] rest :=
  alone fun _ => Pattern.not_form_of_point

/-- What follows the first decimal and its point in a long number is a lexeme too. -/
theorem behind_decimal (h : Leads .compat (some .number) (first ++ '.' :: tail) rest)
    (hfirst : Regex.decimal.Matches first) (htail : (Regex.number .compat).Matches tail) :
    Leads .compat (some .number) tail rest := by
  refine of_number htail fun y hy hnumber => ?_
  have hlong : Pattern.number.Form .compat (first ++ '.' :: y) :=
    Regex.number_compat_of_longNumber (Regex.longNumber_of_decimal hfirst hnumber)
  have hpre : first ++ '.' :: y <+: first ++ '.' :: tail ++ rest := by
    rw [List.append_assoc, List.prefix_append_right_inj]
    exact List.cons_prefix_cons.mpr ⟨rfl, hy⟩
  have hle := h.longest _ hpre hlong
  simp only [List.length_append, List.length_cons] at hle
  omega

end Leads

/-! ## Tokens of a number -/

theorem not_isBlank_head_of_number (h : (Regex.number grammar).Matches x) :
    ∀ c ∈ x.head?, isBlank c = false := by
  obtain ⟨d, u, rfl, hd⟩ := Regex.isDigit_of_number h
  intro c hc
  rw [← Option.mem_some_iff.mp hc]
  exact not_isBlank_of_isDigit hd

theorem all_isDigit_of_decimal (h : Regex.decimal.Matches x) : x.all Char.isDigit = false := by
  have hmem : '.' ∈ x := by
    rw [← List.count_pos_iff, Regex.count_point_of_decimal h]
    exact Nat.zero_lt_one
  rw [List.all_eq_false]
  exact ⟨'.', hmem, by decide⟩

theorem token_of_number (h : (Regex.number .strict).Matches x) :
    Lexeme.token grammar { pattern := p, raw := x, start }
      = { kind := if x.all Char.isDigit then .integer else .float, value := x, raw := x,
          span := ⟨start, start + Text.size x⟩ } := by
  unfold Lexeme.token
  simp only [meaning_of_number h]
  rfl

/-- The tokens of the strict grammar that a number starting at a given offset falls into. -/
inductive NumberTokens : Nat → Text → List Token → Prop
  | last {start : Nat} {x : Text} : (Regex.number .strict).Matches x →
    NumberTokens start x
      [{ kind := if x.all Char.isDigit then .integer else .float, value := x, raw := x,
         span := ⟨start, start + Text.size x⟩ }]
  | more {start : Nat} {first tail : Text} {ts : List Token} : Regex.decimal.Matches first →
    NumberTokens (start + Text.size first + 1) tail ts →
    NumberTokens start (first ++ '.' :: tail)
      ({ kind := .float, value := first, raw := first,
         span := ⟨start, start + Text.size first⟩ } ::
       { kind := .unrecognized, value := ['.'], raw := ['.'],
         span := ⟨start + Text.size first, start + Text.size first + 1⟩ } :: ts)

namespace NumberTokens

variable {ts : List Token}

/-- Every number falls into such tokens. -/
theorem exists_of_number {x : Text} (h : (Regex.number .compat).Matches x) (start : Nat) :
    ∃ ts, NumberTokens start x ts := by
  rcases Regex.matches_number_compat_iff.mp h with hstrict | hlong
  · exact ⟨_, last hstrict⟩
  · obtain ⟨first, tail, hx, hfirst, htail⟩ := Regex.exists_of_longNumber hlong
    have hlen : tail.length < x.length := by
      rw [hx, List.length_append, List.length_cons]
      omega
    obtain ⟨ts, hts⟩ := exists_of_number htail (start + Text.size first + 1)
    exact ⟨_, hx ▸ more hfirst hts⟩
termination_by x.length

theorem number (h : NumberTokens start x ts) : (Regex.number .compat).Matches x := by
  induction h with
  | last hnumber => exact Regex.number_compat_of_strict hnumber
  | more hfirst _ ih =>
    exact Regex.number_compat_of_longNumber (Regex.longNumber_of_decimal hfirst ih)

theorem length_pos (h : NumberTokens start x ts) : 0 < ts.length := by
  cases h with
  | last _ => exact Nat.zero_lt_one
  | more _ _ => exact Nat.zero_lt_succ _

/-- A long number does not stay in one piece. -/
theorem one_lt_length (h : NumberTokens start x ts) (hlong : Regex.longNumber.Matches x) :
    1 < ts.length := by
  cases h with
  | last hnumber => exact absurd hlong (Regex.not_longNumber_of_number_strict hnumber)
  | more _ hts =>
    rw [List.length_cons, List.length_cons]
    omega

/-- Where the compatible grammar takes a number as one lexeme, the strict one takes it piece by
piece. -/
theorem scans (h : NumberTokens start x ts) : ∀ {ls : List Lexeme},
    Leads .compat (some .number) x rest → Scans .strict (start + Text.size x) rest ls →
      ∃ pieces : List Lexeme, Scans .strict start (x ++ rest) (pieces ++ ls) ∧
        pieces.map (Lexeme.token .strict) = ts := by
  induction h with
  | @last start x hnumber =>
    intro ls hleads hrest
    have hstrict := hleads.strict (Regex.not_longNumber_of_number_strict hnumber)
    refine ⟨[_], Scans.front (not_isBlank_head_of_number hnumber) hstrict hrest, ?_⟩
    rw [List.map_singleton, token_of_number hnumber]
  | @more start first tail ts hfirst hts ih =>
    intro ls hleads hrest
    have hnumber := Regex.number_strict_of_decimal hfirst
    have hplace : start + Text.size (first ++ '.' :: tail)
        = start + Text.size first + 1 + Text.size tail := by
      have hpoint : Text.size ('.' :: tail) = 1 + Text.size tail := rfl
      rw [Text.size_append, hpoint]
      omega
    rw [hplace] at hrest
    obtain ⟨pieces, hpieces, rfl⟩ := ih (hleads.behind_decimal hfirst hts.number) hrest
    -- The point is a lexeme by itself in front of the other pieces, and the decimal one before it.
    have hblank : ∀ c ∈ ['.'].head?, isBlank c = false := by
      intro c hc
      rw [← Option.mem_some_iff.mp hc]
      decide
    have hpoint : Scans .strict (start + Text.size first) (['.'] ++ (tail ++ rest)) _ :=
      Scans.front hblank (Leads.point .strict (tail ++ rest)) hpieces
    have hscans :=
      Scans.front (not_isBlank_head_of_number hnumber) (Leads.decimal hfirst) hpoint
    rw [List.append_assoc]
    refine ⟨_ :: _ :: pieces, hscans, ?_⟩
    rw [List.map_cons, List.map_cons, token_of_number hnumber, all_isDigit_of_decimal hfirst]
    rfl

end NumberTokens

/-! ## Queries -/

/-- What stands under the strict grammar for a token of the compatible one. -/
structure Refines (t : Token) (part : List Token) : Prop where
  longNumber : Regex.longNumber.Matches t.raw → NumberTokens t.span.start t.raw part
  other : ¬ Regex.longNumber.Matches t.raw → part = [t]

/-- The lexemes of a text under the compatible grammar, replaced one by one by what stands for them,
are those under the strict grammar. -/
theorem Scans.refines {offset : Nat} {t : Text} {ls : List Lexeme} (h : Scans .compat offset t ls) :
    ∃ ls' parts, Scans .strict offset t ls' ∧
      List.Forall₂ Refines (ls.map (Lexeme.token .compat)) parts ∧
        ls'.map (Lexeme.token .strict) = parts.flatten := by
  induction h with
  | done hblank => exact ⟨[], [], done hblank, .nil, rfl⟩
  | @lexeme offset gap raw rest p ls hgap hhead hleads _ ih =>
    obtain ⟨ls', parts, hls', hparts, htokens⟩ := ih
    rw [List.map_cons, List.append_assoc]
    by_cases hlong : Regex.longNumber.Matches raw
    · obtain rfl := hleads.eq_number_of_longNumber hlong
      obtain ⟨ts, hts⟩ := NumberTokens.exists_of_number hleads.form (offset + Text.size gap)
      obtain ⟨pieces, hpieces, rfl⟩ := hts.scans hleads hls'
      refine ⟨pieces ++ ls', _ :: parts, hpieces.blanks_append hgap,
        .cons ⟨fun _ => hts, fun hno => absurd hlong hno⟩ hparts, ?_⟩
      rw [List.map_append, htokens, List.flatten_cons]
    · have hstrict := hleads.strict hlong
      refine ⟨_ :: ls', [_] :: parts, (front hhead hstrict hls').blanks_append hgap,
        .cons ⟨fun hyes => absurd hyes hlong, fun _ => rfl⟩ hparts, ?_⟩
      rw [List.map_cons, htokens, List.flatten_cons, List.singleton_append]
      simp only [Lexeme.token, hleads.meaning_eq hstrict]

namespace Refines

theorem length_pos {t : Token} {part : List Token} (h : Refines t part) : 0 < part.length := by
  by_cases hlong : Regex.longNumber.Matches t.raw
  · exact (h.longNumber hlong).length_pos
  · rw [h.other hlong]
    exact Nat.zero_lt_one

variable {ts : List Token} {parts : List (List Token)}

theorem length_le (h : List.Forall₂ Refines ts parts) : ts.length ≤ parts.flatten.length := by
  induction h with
  | nil => exact Nat.le_refl 0
  | cons hpart _ ih =>
    have hpos := hpart.length_pos
    rw [List.length_cons, List.flatten_cons, List.length_append]
    omega

/-- There are no long numbers if there are no more tokens than before. -/
theorem not_longNumber (h : List.Forall₂ Refines ts parts)
    (hlength : parts.flatten.length ≤ ts.length) :
    ∀ t ∈ ts, ¬ Regex.longNumber.Matches t.raw := by
  induction h with
  | nil => exact List.forall_mem_nil _
  | cons hpart hparts ih =>
    have hle := length_le hparts
    have hpos := hpart.length_pos
    rw [List.length_cons, List.flatten_cons, List.length_append] at hlength
    refine List.forall_mem_cons.mpr ⟨fun hlong => ?_, ih (by omega)⟩
    have hlt := (hpart.longNumber hlong).one_lt_length hlong
    omega

/-- Without long numbers all tokens stay. -/
theorem flatten_eq (h : List.Forall₂ Refines ts parts) :
    (∀ t ∈ ts, ¬ Regex.longNumber.Matches t.raw) → parts.flatten = ts := by
  induction h with
  | nil => exact fun _ => rfl
  | cons hpart _ ih =>
    intro hno
    rw [List.forall_mem_cons] at hno
    rw [List.flatten_cons, hpart.other hno.1, ih hno.2, List.singleton_append]

/-- A token that is no long number stays. -/
theorem mem_flatten (h : List.Forall₂ Refines ts parts) :
    ∀ t ∈ ts, ¬ Regex.longNumber.Matches t.raw → t ∈ parts.flatten := by
  induction h with
  | nil => exact List.forall_mem_nil _
  | cons hpart _ ih =>
    rw [List.forall_mem_cons, List.flatten_cons]
    refine ⟨fun hno => ?_, fun t ht hno => List.mem_append_right _ (ih t ht hno)⟩
    rw [hpart.other hno]
    exact List.mem_append_left _ (List.mem_singleton.mpr rfl)

end Refines

/-- The strict tokens of a query are its compatible tokens with the long numbers divided. A long
number is a field under the compatible grammar if it has an exponent and is not recognised
otherwise, so the paths through relations are the same, and all tokens are if and only if there is
no long number. -/
theorem tokenize_refines (query : Text) :
    (∃ parts, List.Forall₂ Refines (tokenize { numeric := .compat } query) parts ∧
      tokenize { numeric := .strict } query = parts.flatten) ∧
    (∀ t ∈ tokenize { numeric := .compat } query,
      (Regex.manyFractions.Matches t.raw → t.kind = .unrecognized ∧ t.value = t.raw) ∧
      ((Regex.seq Regex.manyFractions Regex.exponent).Matches t.raw →
        t.kind = .field ∧ t.value = t.raw)) ∧
    (∀ t ∈ tokenize { numeric := .compat } query, t.kind = .relation →
      t ∈ tokenize { numeric := .strict } query) ∧
    (tokenize { numeric := .strict } query = tokenize { numeric := .compat } query ↔
      ∀ t ∈ tokenize { numeric := .compat } query, ¬ Regex.longNumber.Matches t.raw) := by
  have hcompat := Scans.lexemes { numeric := .compat } query
  obtain ⟨ls, parts, hls, hparts, htokens⟩ := hcompat.refines
  have heq : tokenize { numeric := .strict } query = parts.flatten := by
    rw [← htokens, ← (Scans.lexemes { numeric := .strict } query).unique hls]
    rfl
  refine ⟨⟨parts, hparts, heq⟩, ?_, ?_, ?_⟩
  · intro t ht
    obtain ⟨l, -, rfl⟩ := List.mem_map.mp ht
    refine ⟨fun hraw => ?_, fun hraw => ?_⟩
    · have hmeaning : meaning .compat l.raw = (.unrecognized, l.raw) :=
        meaning_of_manyFractions hraw
      exact ⟨congrArg Prod.fst hmeaning, congrArg Prod.snd hmeaning⟩
    · have hmeaning : meaning .compat l.raw = (.field, l.raw) :=
        meaning_of_manyFractions_exponent hraw
      exact ⟨congrArg Prod.fst hmeaning, congrArg Prod.snd hmeaning⟩
  · intro t ht hkind
    rw [heq]
    refine Refines.mem_flatten hparts t ht fun hlong => ?_
    obtain ⟨l, -, rfl⟩ := List.mem_map.mp ht
    have hlong : Regex.longNumber.Matches l.raw := hlong
    have hkind : (meaning .compat l.raw).1 = .relation := hkind
    rw [meaning_of_longNumber hlong] at hkind
    split at hkind <;> simp at hkind
  · rw [heq]
    refine ⟨fun hsame => Refines.not_longNumber hparts ?_, Refines.flatten_eq hparts⟩
    rw [hsame]

example : (tokenize { numeric := .strict } "1.2.3.4e5.x".toList).map Token.raw
    = ["1.2".toList, ".".toList, "3.4e5".toList, ".".toList, "x".toList] := by decide

end FilterQuery
