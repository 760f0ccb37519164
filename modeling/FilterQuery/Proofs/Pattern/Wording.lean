import FilterQuery.Proofs.Pattern.Expression
import FilterQuery.Proofs.Text.Case

/-!
# Fixed wordings are read to their longest match

A choice between words takes the first word that fits. It is the longest one that fits if no word
of the list starts with an earlier word of the list.
-/

namespace FilterQuery.Regex

/-! ## Words -/

theorem ends_word : ∀ w t : Text,
    ends (word w) t = ((Text.cutFolded? w t).map Prod.snd).toList
  | [], t => rfl
  | w :: rest, [] => rfl
  | w :: rest, c :: t => by
    rw [word, ends_seq, ends_one_cons, Text.cutFolded?]
    by_cases hc : c.toLower = w.toLower
    · rw [if_pos (by simpa using hc), if_pos hc, List.flatMap_singleton, ends_word rest t]
      cases Text.cutFolded? rest t <;> rfl
    · rw [if_neg (by simpa using hc), if_neg hc]
      rfl

/-- The case of a word makes no difference. -/
theorem word_congr : ∀ {v w : Text}, Text.fold v = Text.fold w → word v = word w
  | [], [], _ => rfl
  | [], w :: ws, h => by simp [Text.fold] at h
  | v :: vs, [], h => by simp [Text.fold] at h
  | v :: vs, w :: ws, h => by
    simp only [Text.fold, List.map_cons, List.cons.injEq] at h
    rw [word, word, h.1, word_congr h.2]

/-- A text without letters is a word with one spelling. -/
theorem literal_eq_word : ∀ {w : Text}, w.any Char.isAlpha = false → literal w = word w
  | [], _ => rfl
  | c :: rest, h => by
    rw [List.any_cons, Bool.or_eq_false_iff] at h
    rw [literal, word, char, literal_eq_word h.2]
    simp only [Text.toLower_eq_iff h.1]

/-! ## Choices -/

theorem ends_anyOf (t : Text) : ∀ as : List Regex, ends (anyOf as) t = as.flatMap (ends · t)
  | [] => by cases t <;> rfl
  | a :: as => by rw [anyOf, ends_alt, ends_anyOf t as, List.flatMap_cons]

/-- The expression for the wordings of some kinds. -/
def wordings (kinds : List Kind) : Regex := anyOf (kinds.map fun k => word k.spelling)

theorem matches_wordings_iff {kinds : List Kind} {x : Text} :
    Matches (wordings kinds) x ↔ ∃ k ∈ kinds, Text.fold x = Text.fold k.spelling := by
  simp only [wordings, matches_anyOf_iff, List.mem_map, exists_exists_and_eq_and,
    matches_word_iff]

/-- The first wording that fits is the longest one, if no wording starts with an earlier one. -/
theorem reads_cutWording? (t : Text) : ∀ {kinds : List Kind},
    kinds.Pairwise (fun k l => ¬ Text.fold k.spelling <+: Text.fold l.spelling) →
    Reads (wordings kinds) t (cutWording? kinds t)
  | [], _ => ends_anyOf t []
  | k :: kinds, h => by
    rw [List.pairwise_cons] at h
    have hends : ends (wordings (k :: kinds)) t
        = ((Text.cutFolded? k.spelling t).map Prod.snd).toList ++ ends (wordings kinds) t := by
      rw [← ends_word]
      rfl
    rw [cutWording?, List.findSome?_cons]
    cases hcut : Text.cutFolded? k.spelling t with
    | none =>
      rw [hcut] at hends
      exact .of_ends_eq hends (reads_cutWording? t h.2)
    | some found =>
      obtain ⟨x, y⟩ := found
      obtain ⟨ht, hx⟩ := Text.eq_append_of_cutFolded? hcut
      rw [hcut] at hends
      refine ⟨ht.symm, ⟨by rw [hends]; rfl, ?_⟩⟩
      intro z hz
      rw [hends] at hz
      rcases List.mem_append.mp hz with hz | hz
      · exact Nat.le_of_eq (congrArg List.length (List.mem_singleton.mp hz).symm)
      · -- A later wording that takes more starts with this one.
        obtain ⟨x', hx', hm⟩ := mem_ends_iff.mp hz
        obtain ⟨l, hl, hfold⟩ := matches_wordings_iff.mp hm
        by_contra hlt
        have hprefix : x <+: x' := by
          refine List.prefix_of_prefix_length_le ⟨y, ht.symm⟩ ⟨z, hx'.symm⟩ ?_
          have hlen := congrArg List.length (ht.symm.trans hx')
          simp only [List.length_append] at hlen
          omega
        refine h.1 l hl ?_
        rw [← hx, ← hfold]
        exact hprefix.map Char.toLower

/-! ## The wordings of the table -/

theorem operator_eq : operator = wordings Pattern.operators := by
  have hnotLike : word "not like".toList = word Kind.notLike.spelling := word_congr (by decide)
  have hlike : word "like".toList = word Kind.like.spelling := word_congr (by decide)
  rw [operator, hnotLike, hlike, literal_eq_word, literal_eq_word, literal_eq_word,
    literal_eq_word, literal_eq_word, literal_eq_word]
  · rfl
  all_goals decide

theorem keyword_eq : keyword = wordings [.null, .empty] := by
  have hnull : word "null".toList = word Kind.null.spelling := word_congr (by decide)
  have hempty : word "empty".toList = word Kind.empty.spelling := word_congr (by decide)
  rw [keyword, hnull, hempty]
  rfl

theorem ends_parenthesis : ∀ t : Text,
    ends parenthesis t = ends (wordings [.leftParen, .rightParen]) t
  | [] => rfl
  | c :: t => by
    have hleft : word Kind.leftParen.spelling = literal "(".toList :=
      (literal_eq_word (by decide)).symm
    have hright : word Kind.rightParen.spelling = literal ")".toList :=
      (literal_eq_word (by decide)).symm
    rw [wordings, List.map_cons, List.map_cons, List.map_nil, hleft, hright, ends_anyOf,
      parenthesis, ends_one_cons]
    by_cases hc : c = '('
    · subst hc
      rfl
    · by_cases hc' : c = ')'
      · subst hc'
        rfl
      · simp [literal, ends_seq, char, ends_one_cons, hc, hc']

/-- The operators are read to the longest match: `>=` stands before `>`, and `not like` and `like`
have nothing in common. -/
theorem reads_operators (t : Text) : Reads operator t (cutWording? Pattern.operators t) := by
  rw [operator_eq]
  exact reads_cutWording? t (by decide)

theorem reads_keywords (t : Text) : Reads keyword t (cutWording? [.null, .empty] t) := by
  rw [keyword_eq]
  exact reads_cutWording? t (by decide)

theorem reads_parentheses (t : Text) :
    Reads parenthesis t (cutWording? [.leftParen, .rightParen] t) :=
  .of_ends_eq (ends_parenthesis t) (reads_cutWording? t (by decide))

end FilterQuery.Regex
