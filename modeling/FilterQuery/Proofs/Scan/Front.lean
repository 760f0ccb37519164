import FilterQuery.Lexeme.SubQuery.Finder
import FilterQuery.Proofs.Pattern.Table

/-!
# The lexeme at the front of a text

What a scan takes next, said without the scan: the lexeme of the first pattern that has one there,
the longest one of it, or a single character where no pattern has any (`Leads`).

How much of the text behind a lexeme matters is then seen from the forms alone. Less text never
makes a difference (`Leads.of_append`). More text makes none as long as no lexeme of any form goes
on into it (`Leads.append`).
-/

namespace FilterQuery

namespace Pattern

/-- All patterns, in the order in which they are tried. -/
def order : List Pattern := subQuery :: table

theorem mem_order (p : Pattern) : p ∈ order := by cases p <;> decide

/-- The first of all patterns that fits the front of a text, with its lexeme and what follows it. -/
def foremost? (grammar : NumberGrammar) (t : Text) : Option (Pattern × Text × Text) :=
  order.findSome? fun p => (p.cut? grammar t).map fun cut => (p, cut)

/-- The full-text query is tried first, then the table. -/
theorem foremost?_eq (grammar : NumberGrammar) (t : Text) :
    foremost? grammar t =
      match SubQuery.cut? t with
      | some cut => some (subQuery, cut)
      | none => first? grammar t := by
  rw [foremost?, order, List.findSome?_cons]
  cases h : SubQuery.cut? t <;> simp [cut?, h, first?]

end Pattern

/-- A lexeme at the front of a text, with the pattern that finds it there, and what follows it. -/
inductive Leads (grammar : NumberGrammar) : Option Pattern → Text → Text → Prop
  | found {p : Pattern} {earlier later : List Pattern} {raw rest : Text} :
    Pattern.order = earlier ++ p :: later →
      (∀ q ∈ earlier, ∀ x, x <+: raw ++ rest → ¬ q.Form grammar x) →
      p.Form grammar raw →
      (∀ x, x <+: raw ++ rest → p.Form grammar x → x.length ≤ raw.length) →
      Leads grammar (some p) raw rest
  | alone {c : Char} {rest : Text} :
    (∀ q : Pattern, ∀ x, x <+: c :: rest → ¬ q.Form grammar x) → Leads grammar none [c] rest

namespace Leads

variable {grammar : NumberGrammar} {p : Option Pattern} {raw rest : Text}

theorem ne_nil (h : Leads grammar p raw rest) : raw ≠ [] := by
  cases h with
  | found _ _ hform _ => exact hform.ne_nil
  | alone _ => exact List.cons_ne_nil _ _

theorem mem_head? {c : Char} {tail e : Text} (h : Leads grammar p raw rest)
    (ht : raw ++ e = c :: tail) : c ∈ raw.head? := by
  obtain ⟨d, raw, rfl⟩ := List.exists_cons_of_ne_nil h.ne_nil
  rw [List.cons_append, List.cons.injEq] at ht
  rw [ht.1]
  rfl

/-- Every text but the empty one has a lexeme at its front. -/
theorem exists_of_ne_nil (grammar : NumberGrammar) {t : Text} (h : t ≠ []) :
    ∃ p raw rest, t = raw ++ rest ∧ Leads grammar p raw rest := by
  cases hfirst : Pattern.foremost? grammar t with
  | none =>
    have hnone := Pattern.findSome?_cut?_eq_none_iff.mp hfirst
    obtain ⟨c, rest, rfl⟩ := List.exists_cons_of_ne_nil h
    exact ⟨none, [c], rest, rfl, alone fun q => hnone q (Pattern.mem_order q)⟩
  | some cut =>
    obtain ⟨p, raw, rest⟩ := cut
    obtain ⟨earlier, later, horder, hearlier, rfl, hform, hlongest⟩ :=
      Pattern.findSome?_cut?_eq_some_iff.mp hfirst
    exact ⟨some p, raw, rest, rfl, found horder hearlier hform hlongest⟩

theorem foremost?_eq_some {p : Pattern} (h : Leads grammar (some p) raw rest) :
    Pattern.foremost? grammar (raw ++ rest) = some (p, raw, rest) := by
  cases h with
  | found horder hearlier hform hlongest =>
    exact Pattern.findSome?_cut?_eq_some_iff.mpr
      ⟨_, _, horder, hearlier, rfl, hform, hlongest⟩

theorem foremost?_eq_none (h : Leads grammar none raw rest) :
    Pattern.foremost? grammar (raw ++ rest) = none := by
  cases h with
  | alone hnone => exact Pattern.findSome?_cut?_eq_none_iff.mpr fun q _ => hnone q

/-- A text has one lexeme at its front. -/
theorem unique {p' : Option Pattern} {raw' rest' : Text} (h : Leads grammar p raw rest)
    (h' : Leads grammar p' raw' rest') (ht : raw ++ rest = raw' ++ rest') :
    p = p' ∧ raw = raw' ∧ rest = rest' := by
  cases p with
  | none =>
    have hnone := h.foremost?_eq_none
    cases p' with
    | none =>
      cases h with
      | alone _ =>
        cases h' with
        | alone _ =>
          rw [List.singleton_append, List.singleton_append, List.cons.injEq] at ht
          exact ⟨rfl, by rw [ht.1], ht.2⟩
    | some p' =>
      rw [ht, h'.foremost?_eq_some] at hnone
      simp at hnone
  | some p =>
    have hsome := h.foremost?_eq_some
    cases p' with
    | none =>
      rw [ht, h'.foremost?_eq_none] at hsome
      simp at hsome
    | some p' =>
      rw [ht, h'.foremost?_eq_some] at hsome
      simp only [Option.some.injEq, Prod.mk.injEq] at hsome
      exact ⟨by rw [hsome.1], hsome.2.1.symm, hsome.2.2.symm⟩

/-- The three ways in which a scan comes to the lexeme: by the full-text query, by the table, or as
the character that neither of them fits. -/
theorem cut?_or_first?_or_alone (h : Leads grammar p raw rest) :
    (SubQuery.cut? (raw ++ rest) = some (raw, rest) ∧ p = some .subQuery) ∨
      SubQuery.cut? (raw ++ rest) = none ∧
        ((∃ q, Pattern.first? grammar (raw ++ rest) = some (q, raw, rest) ∧ p = some q) ∨
          (Pattern.first? grammar (raw ++ rest) = none ∧ p = none ∧ ∃ c, raw = [c])) := by
  have hforemost := Pattern.foremost?_eq grammar (raw ++ rest)
  cases p with
  | none =>
    rw [h.foremost?_eq_none] at hforemost
    cases hcut : SubQuery.cut? (raw ++ rest) with
    | some cut => simp [hcut] at hforemost
    | none =>
      simp only [hcut] at hforemost
      refine Or.inr ⟨rfl, Or.inr ⟨hforemost.symm, rfl, ?_⟩⟩
      cases h with
      | @alone c _ _ => exact ⟨c, rfl⟩
  | some p =>
    rw [h.foremost?_eq_some] at hforemost
    cases hcut : SubQuery.cut? (raw ++ rest) with
    | some cut =>
      simp only [hcut, Option.some.injEq, Prod.mk.injEq] at hforemost
      exact Or.inl ⟨by rw [← hforemost.2], by rw [hforemost.1]⟩
    | none =>
      simp only [hcut] at hforemost
      exact Or.inr ⟨rfl, Or.inl ⟨p, hforemost.symm, rfl⟩⟩

/-- Cutting text off behind a lexeme does not change it. -/
theorem of_append {post : Text} (h : Leads grammar p raw (rest ++ post)) :
    Leads grammar p raw rest := by
  have hinside : ∀ {x : Text}, x <+: raw ++ rest → x <+: raw ++ (rest ++ post) := by
    intro x hx
    rw [← List.append_assoc]
    exact hx.trans (List.prefix_append (raw ++ rest) post)
  cases h with
  | found horder hearlier hform hlongest =>
    exact found horder (fun q hq x hx => hearlier q hq x (hinside hx)) hform
      fun x hx => hlongest x (hinside hx)
  | alone hnone => exact alone fun q x hx => hnone q x (hinside hx)

/-- A text of some form is a lexeme as a whole, if it has no lexeme of an earlier pattern at its
front. -/
theorem of_form {q : Pattern} {earlier later : List Pattern}
    (horder : Pattern.order = earlier ++ q :: later)
    (hearlier : ∀ q ∈ earlier, ∀ x, x <+: raw → ¬ q.Form grammar x) (hform : q.Form grammar raw) :
    Leads grammar (some q) raw [] := by
  refine found horder (fun q hq x hx => ?_) hform fun x hx _ => ?_
  · rw [List.append_nil] at hx
    exact hearlier q hq x hx
  · rw [List.append_nil] at hx
    exact hx.length_le

/-- A lexeme stays when nothing is left behind it. -/
theorem nothing_behind (h : Leads grammar p raw rest) : Leads grammar p raw [] := by
  have hcut : Leads grammar p raw ([] ++ rest) := h
  exact hcut.of_append

/-- Adding text behind a lexeme does not change it, if nothing of any form goes on from there into
what is added. -/
theorem append {post : Text} (h : Leads grammar p raw rest)
    (hpost : ∀ (q : Pattern) (e : Text), e ≠ [] → e <+: post →
      ¬ q.Form grammar (raw ++ rest ++ e)) :
    Leads grammar p raw (rest ++ post) := by
  have hinside : ∀ {q : Pattern} {x : Text}, q.Form grammar x →
      x <+: raw ++ (rest ++ post) → x <+: raw ++ rest := by
    intro q x hx hpre
    rw [← List.append_assoc] at hpre
    rcases Text.prefix_append_cases hpre with hle | ⟨c, e, hinto, rfl⟩
    · exact hle
    · exact absurd hx (hpost q (c :: e) (List.cons_ne_nil c e) hinto)
  cases h with
  | found horder hearlier hform hlongest =>
    exact found horder (fun q hq x hx hq' => hearlier q hq x (hinside hq' hx) hq') hform
      fun x hx hq' => hlongest x (hinside hq' hx) hq'
  | alone hnone => exact alone fun q x hx hq' => hnone q x (hinside hq' hx) hq'

end Leads
end FilterQuery
