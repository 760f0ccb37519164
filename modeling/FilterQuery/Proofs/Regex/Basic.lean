import FilterQuery.Text.Basic
import Mathlib.Data.List.Basic

/-!
# Regular expressions

The forms of lexemes are written as regular expressions. An expression has two readings:

* its language (`Matches`), which says what texts it stands for and nothing about order;
* a search at the front of a text (`ends`), which tries the left side of a choice before the right
  one and one more round of a repetition before leaving it, and takes a choice back only when what
  follows fails.

`ends` lists what the matches leave of the text, in the order in which such a search meets them. The
search stops at the first one (`first?`), which need not be the longest match.

## Termination

A round of a repetition that takes nothing is not repeated, so a repetition needs no more rounds
than there are characters.
-/

namespace FilterQuery

/-- A regular expression. -/
inductive Regex where
  /-- The text without characters. -/
  | empty
  /-- A single character of a class. -/
  | one (p : Char → Bool)
  /-- One expression, then another. -/
  | seq (a b : Regex)
  /-- Either of two expressions, preferably the first. -/
  | alt (a b : Regex)
  /-- An expression any number of times, preferably more often. -/
  | star (a : Regex)

namespace Regex

/-- At least once. -/
def plus (a : Regex) : Regex := seq a (star a)

/-- Once or not at all, preferably once. -/
def opt (a : Regex) : Regex := alt a empty

/-- One certain character. -/
def char (c : Char) : Regex := one (· = c)

/-- A word in any case of its ASCII letters. -/
def word : Text → Regex
  | [] => empty
  | w :: rest => seq (one fun c => c.toLower = w.toLower) (word rest)

/-- Any of some expressions, preferably an earlier one. -/
def anyOf : List Regex → Regex
  | [] => one fun _ => false
  | a :: rest => alt a (anyOf rest)

/-! ## The language -/

/-- The texts that an expression stands for. -/
inductive Matches : Regex → Text → Prop where
  | empty : Matches empty []
  | one {p : Char → Bool} {c : Char} : p c = true → Matches (one p) [c]
  | seq {a b : Regex} {x y : Text} : Matches a x → Matches b y → Matches (seq a b) (x ++ y)
  | left {a b : Regex} {x : Text} : Matches a x → Matches (alt a b) x
  | right {a b : Regex} {x : Text} : Matches b x → Matches (alt a b) x
  | stop {a : Regex} : Matches (star a) []
  | more {a : Regex} {x y : Text} :
    Matches a x → Matches (star a) y → Matches (star a) (x ++ y)

theorem matches_empty_iff {x : Text} : Matches empty x ↔ x = [] := by
  constructor
  · intro h
    cases h
    rfl
  · rintro rfl
    exact .empty

theorem matches_one_iff {p : Char → Bool} {x : Text} :
    Matches (one p) x ↔ ∃ c, p c = true ∧ x = [c] := by
  constructor
  · intro h
    cases h with
    | one hc => exact ⟨_, hc, rfl⟩
  · rintro ⟨c, hc, rfl⟩
    exact .one hc

theorem matches_char_iff {c : Char} {x : Text} : Matches (char c) x ↔ x = [c] := by
  rw [char, matches_one_iff]
  constructor
  · rintro ⟨d, hd, rfl⟩
    rw [of_decide_eq_true hd]
  · rintro rfl
    exact ⟨c, by simp, rfl⟩

theorem matches_seq_iff {a b : Regex} {x : Text} :
    Matches (seq a b) x ↔ ∃ y z, Matches a y ∧ Matches b z ∧ x = y ++ z := by
  constructor
  · intro h
    cases h with
    | seq ha hb => exact ⟨_, _, ha, hb, rfl⟩
  · rintro ⟨y, z, ha, hb, rfl⟩
    exact .seq ha hb

theorem matches_alt_iff {a b : Regex} {x : Text} :
    Matches (alt a b) x ↔ Matches a x ∨ Matches b x := by
  constructor
  · intro h
    cases h with
    | left ha => exact Or.inl ha
    | right hb => exact Or.inr hb
  · rintro (ha | hb)
    · exact .left ha
    · exact .right hb

theorem matches_opt_iff {a : Regex} {x : Text} : Matches (opt a) x ↔ Matches a x ∨ x = [] := by
  rw [opt, matches_alt_iff, matches_empty_iff]

/-- A repetition stands for nothing, or for one round and further ones. -/
theorem matches_star_iff {a : Regex} {x : Text} :
    Matches (star a) x ↔ x = [] ∨ Matches (plus a) x := by
  constructor
  · intro h
    cases h with
    | stop => exact Or.inl rfl
    | more hx hy => exact Or.inr (.seq hx hy)
  · rintro (rfl | h)
    · exact .stop
    · obtain ⟨y, z, hy, hz, rfl⟩ := matches_seq_iff.mp h
      exact .more hy hz

theorem matches_anyOf_iff {x : Text} : ∀ {as : List Regex},
    Matches (anyOf as) x ↔ ∃ a ∈ as, Matches a x
  | [] => by simp [anyOf, matches_one_iff]
  | a :: as => by
    rw [anyOf, matches_alt_iff, matches_anyOf_iff]
    simp

/-- A word stands for its spellings. -/
theorem matches_word_iff : ∀ {w x : Text}, Matches (word w) x ↔ Text.fold x = Text.fold w
  | [], x => by simp [word, matches_empty_iff, Text.fold]
  | w :: rest, x => by
    rw [word, matches_seq_iff]
    constructor
    · rintro ⟨y, z, hy, hz, rfl⟩
      obtain ⟨c, hc, rfl⟩ := matches_one_iff.mp hy
      have hrest := matches_word_iff.mp hz
      simp only [Text.fold, List.singleton_append, List.map_cons] at hrest ⊢
      rw [of_decide_eq_true hc, hrest]
    · intro h
      cases x with
      | nil => simp [Text.fold] at h
      | cons c z =>
        simp only [Text.fold, List.map_cons, List.cons.injEq] at h
        exact ⟨[c], z, .one (by simpa using h.1), matches_word_iff.mpr h.2, rfl⟩

/-! ## The search -/

/-- What is left behind the rounds of a repetition, where `step` gives what a round may leave. There
are at most as many rounds as the number says. -/
def roundEnds (step : Text → List Text) : Nat → Text → List Text
  | 0, t => [t]
  | n + 1, t =>
    ((step t).filter fun rest => rest.length < t.length).flatMap (roundEnds step n) ++ [t]

/-- What the matches at the front of a text leave of it, the preferred match first. -/
def ends : Regex → Text → List Text
  | empty, t => [t]
  | one _, [] => []
  | one p, c :: t => if p c then [t] else []
  | seq a b, t => (ends a t).flatMap (ends b)
  | alt a b, t => ends a t ++ ends b t
  | star a, t => roundEnds (ends a) t.length t

/-- The match at the front of a text that a search meets first. -/
def first? (r : Regex) (t : Text) : Option Text :=
  (ends r t).head?.map fun rest => t.take (t.length - rest.length)

theorem ends_one_cons (p : Char → Bool) (c : Char) (t : Text) :
    ends (one p) (c :: t) = if p c then [t] else [] := rfl

theorem ends_seq (a b : Regex) (t : Text) : ends (seq a b) t = (ends a t).flatMap (ends b) := rfl

theorem ends_alt (a b : Regex) (t : Text) : ends (alt a b) t = ends a t ++ ends b t := rfl

theorem ends_seq_assoc (a b c : Regex) (t : Text) :
    ends (seq (seq a b) c) t = ends (seq a (seq b c)) t := by
  rw [ends_seq, ends_seq, List.flatMap_assoc]
  rfl

/-- More rounds than there are characters make no difference. -/
theorem roundEnds_eq (step : Text → List Text) : ∀ {n : Nat} {t : Text}, t.length ≤ n →
    roundEnds step n t = roundEnds step t.length t
  | 0, t, h => by rw [Nat.le_zero.mp h]
  | n + 1, [], _ => by simp [roundEnds]
  | n + 1, c :: t, h => by
    simp only [roundEnds, List.length_cons]
    refine congrArg (· ++ [c :: t]) (List.flatMap_congr ?_)
    intro rest hrest
    have hlt : rest.length < t.length + 1 := by simpa using (List.mem_filter.mp hrest).2
    rw [List.length_cons] at h
    rw [roundEnds_eq step (show rest.length ≤ n by omega),
      roundEnds_eq step (show rest.length ≤ t.length by omega)]
termination_by _ t => t.length
decreasing_by
  · exact hlt
  · exact hlt

/-- A repetition does one round and goes on from there, or stops at once. -/
theorem ends_star (a : Regex) (t : Text) :
    ends (star a) t
      = ((ends a t).filter fun rest => rest.length < t.length).flatMap (ends (star a)) ++ [t] := by
  rw [ends, ← roundEnds_eq (ends a) (Nat.le_succ t.length), roundEnds]
  refine congrArg (· ++ [t]) (List.flatMap_congr ?_)
  intro rest hrest
  have hlt : rest.length < t.length := by simpa using (List.mem_filter.mp hrest).2
  rw [ends, roundEnds_eq (ends a) (Nat.le_of_lt hlt)]

/-- Whatever a match leaves is an end of the text, and the match is the rest of it. -/
theorem matches_of_mem_ends : ∀ {r : Regex} {t y : Text}, y ∈ ends r t →
    ∃ x, t = x ++ y ∧ Matches r x
  | empty, t, y, h => by
    rw [ends, List.mem_singleton] at h
    exact ⟨[], h.symm, .empty⟩
  | one p, [], y, h => by simp [ends] at h
  | one p, c :: t, y, h => by
    rw [ends_one_cons] at h
    split at h
    · next hc =>
      rw [List.mem_singleton] at h
      exact ⟨[c], by rw [h]; rfl, .one hc⟩
    · simp at h
  | seq a b, t, y, h => by
    obtain ⟨s, hs, hy⟩ := List.mem_flatMap.mp h
    obtain ⟨u, rfl, hu⟩ := matches_of_mem_ends hs
    obtain ⟨v, rfl, hv⟩ := matches_of_mem_ends hy
    exact ⟨u ++ v, by simp, .seq hu hv⟩
  | alt a b, t, y, h => by
    rcases List.mem_append.mp h with h | h
    · obtain ⟨x, hx, hm⟩ := matches_of_mem_ends h
      exact ⟨x, hx, .left hm⟩
    · obtain ⟨x, hx, hm⟩ := matches_of_mem_ends h
      exact ⟨x, hx, .right hm⟩
  | star a, t, y, h => by
    rw [ends_star, List.mem_append, List.mem_singleton] at h
    rcases h with h | rfl
    · obtain ⟨s, hs, hy⟩ := List.mem_flatMap.mp h
      obtain ⟨hs, hlt⟩ := List.mem_filter.mp hs
      obtain ⟨u, hu, hmu⟩ := matches_of_mem_ends hs
      have hlt : s.length < t.length := by simpa using hlt
      obtain ⟨v, hv, hmv⟩ := matches_of_mem_ends hy
      exact ⟨u ++ v, by rw [hu, hv, List.append_assoc], .more hmu hmv⟩
    · exact ⟨[], rfl, .stop⟩
termination_by r t => (sizeOf r, t.length)

/-- The search meets every match. -/
theorem mem_ends_of_matches {r : Regex} {x : Text} (h : Matches r x) :
    ∀ y : Text, y ∈ ends r (x ++ y) := by
  induction h with
  | empty => intro y; simp [ends]
  | one hc => intro y; simp [ends, hc]
  | seq _ _ iha ihb =>
    intro y
    rw [List.append_assoc]
    exact List.mem_flatMap.mpr ⟨_, iha _, ihb y⟩
  | left _ ih => exact fun y => List.mem_append_left _ (ih y)
  | right _ ih => exact fun y => List.mem_append_right _ (ih y)
  | stop => intro y; rw [ends_star]; simp
  | @more a x z _ _ iha ihz =>
    intro y
    -- A round that takes nothing is left out by the search, and the other rounds do without it.
    cases x with
    | nil => exact ihz y
    | cons c x =>
      rw [ends_star, List.append_assoc]
      refine List.mem_append_left _ (List.mem_flatMap.mpr ⟨z ++ y, ?_, ihz y⟩)
      refine List.mem_filter.mpr ⟨iha (z ++ y), ?_⟩
      simp only [List.cons_append, List.length_cons, List.length_append, decide_eq_true_eq]
      omega

/-- The search meets the matches at the front of a text and nothing else. -/
theorem mem_ends_iff {r : Regex} {t y : Text} :
    y ∈ ends r t ↔ ∃ x, t = x ++ y ∧ Matches r x := by
  constructor
  · exact matches_of_mem_ends
  · rintro ⟨x, rfl, h⟩
    exact mem_ends_of_matches h y

/-- The search fails exactly when no beginning of the text is in the language. -/
theorem ends_eq_nil_iff {r : Regex} {t : Text} :
    ends r t = [] ↔ ∀ x, x <+: t → ¬ Matches r x := by
  rw [List.eq_nil_iff_forall_not_mem]
  constructor
  · rintro h x ⟨y, rfl⟩ hm
    exact h y (mem_ends_of_matches hm y)
  · intro h y hy
    obtain ⟨x, rfl, hm⟩ := matches_of_mem_ends hy
    exact h x ⟨y, rfl⟩ hm

/-- A text is in the language exactly when the search can leave nothing of it. -/
theorem nil_mem_ends_iff {r : Regex} {x : Text} : [] ∈ ends r x ↔ Matches r x := by
  rw [mem_ends_iff]
  constructor
  · rintro ⟨y, rfl, h⟩
    rwa [List.append_nil]
  · exact fun h => ⟨x, (List.append_nil x).symm, h⟩

instance (r : Regex) (x : Text) : Decidable (Matches r x) := decidable_of_iff _ nil_mem_ends_iff

end Regex
end FilterQuery
