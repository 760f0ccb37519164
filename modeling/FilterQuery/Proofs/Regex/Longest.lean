import FilterQuery.Proofs.Regex.Characters

/-!
# When the preferred match is the longest

A search by backtracking takes the match that it meets first. For many expressions that is the
longest one, and this file collects reasons for it.

* `Leaves r t y`: the preferred match of `r` leaves `y`, and no match leaves less.
* `Leaves.of_seq_of_apart`: two expressions in a row take the longest match if the second cannot
  start with a character of the first. Giving back a part of the first match then never helps the
  second.
* `Leaves.matches_seq_iff`: for the same reason, a text as a whole is tested part by part.
* `Reads r t cut`: a reader's result agrees with the search and is the longest match.
-/

namespace FilterQuery.Regex

/-! ## The preferred match -/

/-- The preferred match leaves `y`, and no match leaves less. -/
structure Leaves (r : Regex) (t y : Text) : Prop where
  preferred : (ends r t).head? = some y
  least : ∀ z ∈ ends r t, y.length ≤ z.length

namespace Leaves

theorem mem {r : Regex} {t y : Text} (h : Leaves r t y) : y ∈ ends r t :=
  List.mem_of_head? h.preferred

/-- A last resort that leaves more than the others start from changes nothing. -/
theorem of_append {r s : Regex} {t u v y : Text} (he : ends r t = ends s u ++ [v])
    (hu : u <:+ v) (h : Leaves s u y) : Leaves r t y := by
  have hsuffix : y.length ≤ u.length := by
    obtain ⟨x, rfl, -⟩ := mem_ends_iff.mp h.mem
    simp
  refine ⟨?_, ?_⟩
  · rw [he, List.head?_append, h.preferred, Option.some_or]
  · intro z hz
    rw [he, List.mem_append, List.mem_singleton] at hz
    rcases hz with hz | rfl
    · exact h.least z hz
    · exact Nat.le_trans hsuffix hu.length_le

theorem of_ends_eq {r s : Regex} {t u y : Text} (he : ends r t = ends s u) (h : Leaves s u y) :
    Leaves r t y :=
  ⟨by rw [he]; exact h.preferred, by rw [he]; exact h.least⟩

theorem of_ends_singleton {r : Regex} {t y : Text} (h : ends r t = [y]) : Leaves r t y := by
  refine ⟨by rw [h]; rfl, ?_⟩
  intro z hz
  rw [h, List.mem_singleton] at hz
  exact Nat.le_of_eq (by rw [hz])

end Leaves

/-- The second expression cannot start with any character of the first. -/
def Apart (a b : Regex) : Prop := ∀ c, uses a c = true → starts b c = false

/-- What a match gives back cannot be taken by an expression that is apart. -/
theorem Apart.eq_of_mem_ends {a b : Regex} {t y z w : Text} (hab : Apart a b)
    (hy : Leaves a t y) (hz : z ∈ ends a t) (hne : z ≠ y) (hw : w ∈ ends b z) : w = z := by
  obtain ⟨x, hx, hmx⟩ := mem_ends_iff.mp hy.mem
  obtain ⟨u, hu, hmu⟩ := mem_ends_iff.mp hz
  obtain ⟨v, hv, hmv⟩ := mem_ends_iff.mp hw
  -- `z` starts with a part of the preferred match, which is a character of `a`.
  have hsuffix : y <:+ z :=
    List.suffix_of_suffix_length_le ⟨x, hx.symm⟩ ⟨u, hu.symm⟩ (hy.least z hz)
  obtain ⟨back, rfl⟩ := hsuffix
  cases back with
  | nil => exact absurd rfl hne
  | cons c back =>
    have hc : c ∈ x := by
      rw [hu, ← List.append_assoc, List.append_cancel_right_eq] at hx
      rw [← hx]
      simp
    have hno := hab c (uses_of_matches hmx c hc)
    cases v with
    | nil => exact hv.symm
    | cons d v =>
      rw [List.cons_append, List.cons_append, List.cons.injEq] at hv
      rw [hv.1, starts_of_matches hmv rfl] at hno
      exact absurd hno (by simp)

namespace Leaves

/-- Where the second expression takes nothing of what the first one gives back, the longest match is
the preferred one. -/
theorem of_seq {a b : Regex} {t u y : Text} (ha : Leaves a t u) (hb : Leaves b u y)
    (hback : ∀ z ∈ ends a t, z ≠ u → ∀ w ∈ ends b z, w = z) : Leaves (seq a b) t y := by
  obtain ⟨others, hends⟩ := List.head?_eq_some_iff.mp ha.preferred
  refine ⟨?_, ?_⟩
  · rw [ends_seq, hends, List.flatMap_cons, List.head?_append, hb.preferred, Option.some_or]
  · intro w hw
    obtain ⟨z, hz, hw⟩ := List.mem_flatMap.mp hw
    by_cases hzu : z = u
    · exact hb.least w (hzu ▸ hw)
    · rw [hback z hz hzu w hw]
      obtain ⟨x, rfl, -⟩ := mem_ends_iff.mp hb.mem
      have := ha.least z hz
      simp only [List.length_append] at this
      omega

theorem of_seq_of_apart {a b : Regex} {t u y : Text} (ha : Leaves a t u) (hb : Leaves b u y)
    (hab : Apart a b) : Leaves (seq a b) t y :=
  ha.of_seq hb fun _ hz hne _ hw => hab.eq_of_mem_ends ha hz hne hw

end Leaves

/-- A text is in the language exactly when the longest match leaves nothing of it. -/
theorem Leaves.matches_iff {r : Regex} {t y : Text} (h : Leaves r t y) : Matches r t ↔ y = [] := by
  rw [← nil_mem_ends_iff]
  constructor
  · intro hnil
    exact List.eq_nil_of_length_eq_zero (Nat.le_zero.mp (h.least [] hnil))
  · rintro rfl
    exact h.mem

/-- Two expressions that are apart stand for a text exactly when the second one stands for what the
longest match of the first leaves. -/
theorem Leaves.matches_seq_iff {a b : Regex} {t u : Text} (ha : Leaves a t u) (hab : Apart a b) :
    Matches (seq a b) t ↔ Matches b u := by
  rw [← nil_mem_ends_iff, ← nil_mem_ends_iff, ends_seq]
  constructor
  · intro h
    obtain ⟨z, hz, hnil⟩ := List.mem_flatMap.mp h
    by_cases hzu : z = u
    · rwa [← hzu]
    · -- Only nothing is left for the second expression, so the first may leave nothing too.
      obtain rfl := hab.eq_of_mem_ends ha hz hzu hnil
      have hu : u = [] := ha.matches_iff.mp (nil_mem_ends_iff.mp hz)
      rwa [hu]
  · exact fun h => List.mem_flatMap.mpr ⟨u, ha.mem, h⟩

/-- Where the second expression fails behind the preferred match of the first, it fails. -/
theorem ends_seq_eq_nil {a b : Regex} {t u : Text} (ha : Leaves a t u) (hb : ends b u = [])
    (hab : Apart a b) : ends (seq a b) t = [] := by
  rw [List.eq_nil_iff_forall_not_mem]
  intro w hw
  obtain ⟨z, hz, hw⟩ := List.mem_flatMap.mp hw
  by_cases hzu : z = u
  · rw [hzu, hb] at hw
    exact List.not_mem_nil hw
  · have hwz := hab.eq_of_mem_ends ha hz hzu hw
    obtain ⟨v, hv, hm⟩ := mem_ends_iff.mp hw
    -- A match that takes nothing would be there behind the preferred match too.
    have hv : v = [] := by
      rw [hwz] at hv
      exact List.self_eq_append_left.mp hv
    have := mem_ends_of_matches (hv ▸ hm) u
    rw [List.nil_append, hb] at this
    exact List.not_mem_nil this

/-! ## Readers -/

/-- A reader's result at the front of a text is what the search prefers, and it is the longest
match. The reader has no result where the search fails. -/
def Reads (r : Regex) (t : Text) : Option (Text × Text) → Prop
  | some (x, y) => x ++ y = t ∧ Leaves r t y
  | none => ends r t = []

namespace Reads

variable {r : Regex} {t : Text} {cut : Option (Text × Text)}

theorem of_ends_eq {s : Regex} (he : ends r t = ends s t) (h : Reads s t cut) : Reads r t cut := by
  cases cut with
  | none => exact he.trans h
  | some found => exact ⟨h.1, .of_ends_eq he h.2⟩

/-- A reader finds what the search meets first. -/
theorem first?_eq (h : Reads r t cut) : first? r t = cut.map Prod.fst := by
  cases cut with
  | none => rw [first?, show ends r t = [] from h]; rfl
  | some found =>
    obtain ⟨rfl, hleaves⟩ := h
    rw [first?, hleaves.preferred]
    simp

theorem eq_none_iff (h : Reads r t cut) : cut = none ↔ ∀ x, x <+: t → ¬ Matches r x := by
  rw [← ends_eq_nil_iff]
  cases cut with
  | none => exact ⟨fun _ => h, fun _ => rfl⟩
  | some found =>
    refine ⟨fun hno => by simp at hno, fun hno => ?_⟩
    have hmem := h.2.mem
    rw [hno] at hmem
    exact absurd hmem List.not_mem_nil

/-- What a reader finds is the longest beginning of the text in the language. -/
theorem eq_some_iff (h : Reads r t cut) {x y : Text} :
    cut = some (x, y) ↔
      x ++ y = t ∧ Matches r x ∧ ∀ z, z <+: t → Matches r z → z.length ≤ x.length := by
  constructor
  · rintro rfl
    obtain ⟨rfl, hleaves⟩ := h
    refine ⟨rfl, ?_, ?_⟩
    · obtain ⟨x', hx', hm⟩ := mem_ends_iff.mp hleaves.mem
      rwa [List.append_cancel_right hx']
    · rintro z ⟨rest, hz⟩ hm
      have := hleaves.least rest (mem_ends_iff.mpr ⟨z, hz.symm, hm⟩)
      have := congrArg List.length hz
      simp only [List.length_append] at this
      omega
  · rintro ⟨rfl, hm, hmax⟩
    cases cut with
    | none => exact absurd hm (h.eq_none_iff.mp rfl x (List.prefix_append x y))
    | some found =>
      obtain ⟨hfound, hleaves⟩ := h
      obtain ⟨x', hx', hm'⟩ := mem_ends_iff.mp hleaves.mem
      have hle := hmax x' ⟨_, hx'.symm⟩ hm'
      have hge := hleaves.least y (mem_ends_iff.mpr ⟨x, rfl, hm⟩)
      have hlen := congrArg List.length hx'
      simp only [List.length_append] at hlen
      obtain ⟨rfl, rfl⟩ := List.append_inj hx' (by omega)
      exact congrArg some (Prod.ext (List.append_cancel_right hfound) rfl)

end Reads

end FilterQuery.Regex
