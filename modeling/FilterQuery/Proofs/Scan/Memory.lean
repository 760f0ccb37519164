import FilterQuery.Lexeme.SubQuery.Finder
import FilterQuery.Proofs.Pattern.SubQuery
import FilterQuery.Proofs.Text.Offset

/-!
# What a finder remembers never changes what it finds

A finder that has seen places of one query only tells about full-text queries there what a reader
without memory would tell. Every sighting that it keeps is one of that query (`Sighting.Of`), and a
look keeps it so. Nothing is assumed of the order in which the places come.
-/

namespace FilterQuery.SubQuery

/-! ## First occurrences -/

theorem firstOccurrence?_of_starts {mark rest : Text} {c : Char} {offset : Nat}
    (h : mark <+: c :: rest) : firstOccurrence? mark offset (c :: rest) = some offset := by
  rw [firstOccurrence?, if_pos (List.isPrefixOf_iff_prefix.mpr h)]

theorem firstOccurrence?_of_not_starts {mark rest : Text} {c : Char} {offset : Nat}
    (h : ¬ mark <+: c :: rest) :
    firstOccurrence? mark offset (c :: rest)
      = firstOccurrence? mark (offset + c.utf8Size) rest := by
  rw [firstOccurrence?, if_neg fun hmark => h (List.isPrefixOf_iff_prefix.mp hmark)]

/-- Where a mark does not occur before some place, a look from before that place finds what a look
from there finds. -/
theorem firstOccurrence?_append {mark : Text} : ∀ (gap : Text) {t : Text} {offset : Nat},
    (firstOccurrence? mark offset (gap ++ t)).all (offset + Text.size gap ≤ ·) = true →
      firstOccurrence? mark (offset + Text.size gap) t
        = firstOccurrence? mark offset (gap ++ t)
  | [], _, _, _ => rfl
  | c :: gap, t, offset, h => by
    have hc := c.utf8Size_pos
    rw [List.cons_append, firstOccurrence?] at h ⊢
    rw [Text.size_cons] at h ⊢
    split at h
    · next hmark =>
      -- The mark would occur at the offset itself, which is before the place.
      simp only [Option.all_some, decide_eq_true_eq] at h
      omega
    · next hmark =>
      rw [← Nat.add_assoc] at h ⊢
      rw [if_neg hmark]
      exact firstOccurrence?_append gap h

theorem exists_of_firstOccurrence? {mark : Text} : ∀ {offset place : Nat} {t : Text},
    firstOccurrence? mark offset t = some place →
      ∃ before after, t = before ++ mark ++ after ∧ offset + Text.size before = place
  | offset, place, [], h => by simp [firstOccurrence?] at h
  | offset, place, c :: rest, h => by
    rw [firstOccurrence?] at h
    split at h
    · next hmark =>
      obtain ⟨after, hafter⟩ := List.isPrefixOf_iff_prefix.mp hmark
      exact ⟨[], after, hafter.symm, Option.some.inj h⟩
    · obtain ⟨before, after, rfl, hplace⟩ := exists_of_firstOccurrence? h
      exact ⟨c :: before, after, rfl, by rw [Text.size_cons]; omega⟩

/-- The end of a full-text query by looking for two marks: it is the closing mark, unless a newline
comes first. -/
theorem cutClosing?_eq (offset : Nat) (t : Text) :
    cutClosing? t =
      match firstOccurrence? closing offset t with
      | none => none
      | some place =>
        if (firstOccurrence? ['\n'] offset t).any (· < place) then none
        else Text.splitAt? (place + Text.size closing - offset) t := by
  fun_induction cutClosing? t generalizing offset with
  | case1 => rfl
  | case2 c =>
    have hmark : ¬ closing <+: [c] := by
      rw [closing_prefix_iff]
      simp
    rw [firstOccurrence?_of_not_starts hmark]
    rfl
  | case3 c d rest hcd =>
    have ht : c :: d :: rest = closing ++ rest := by
      rw [hcd.1, hcd.2]
      rfl
    have hline : (firstOccurrence? ['\n'] offset (c :: d :: rest)).any (· < offset) = false := by
      rw [Option.any_eq_false]
      intro line hline
      have := le_of_firstOccurrence? hline
      simpa using this
    rw [firstOccurrence?_of_starts (ht ▸ List.prefix_append closing rest)]
    simp only [hline, Bool.false_eq_true, ↓reduceIte, Nat.add_sub_cancel_left]
    rw [ht, Text.splitAt?_size_append, closing_eq, hcd.1, hcd.2]
  | case4 d rest hcd =>
    -- The newline stands at the offset itself, and no closing mark does.
    have hmark : ¬ closing <+: '\n' :: d :: rest := by
      rw [closing_prefix_iff]
      simp
    have hline : ['\n'] <+: '\n' :: d :: rest := List.prefix_append ['\n'] (d :: rest)
    rw [firstOccurrence?_of_not_starts hmark, firstOccurrence?_of_starts hline]
    cases hplace : firstOccurrence? closing (offset + '\n'.utf8Size) (d :: rest) with
    | none => rfl
    | some place =>
      have hle := le_of_firstOccurrence? hplace
      have hsize : '\n'.utf8Size = 1 := rfl
      have hlt : offset < place := by omega
      simp [hlt]
  | case5 c d rest hcd hline ih =>
    have hmark : ¬ closing <+: c :: d :: rest := by
      rw [closing_prefix_iff]
      rintro ⟨rest', heq⟩
      simp only [List.cons.injEq] at heq
      exact hcd ⟨heq.1, heq.2.1⟩
    have hline : ¬ ['\n'] <+: c :: d :: rest := by simp [Ne.symm hline]
    rw [firstOccurrence?_of_not_starts hmark, firstOccurrence?_of_not_starts hline,
      ih (offset + c.utf8Size)]
    cases hplace : firstOccurrence? closing (offset + c.utf8Size) (d :: rest) with
    | none => rfl
    | some place =>
      have hle := le_of_firstOccurrence? hplace
      simp only
      split
      · rfl
      · have hsplit := Text.splitAt?_append_of_size_le [c] (t := d :: rest)
          (n := place + Text.size closing - offset) (by simp; omega)
        rw [List.singleton_append] at hsplit
        rw [hsplit, Text.size_cons, Text.size_nil, Nat.add_zero, Nat.sub_sub]
        rfl

/-! ## Sightings -/

/-- A sighting that is one of a certain text: it tells where the mark occurs first there. -/
def Sighting.Of (query mark : Text) (s : Sighting) : Prop :=
  ∃ before t, query = before ++ t ∧ Text.size before = s.start ∧
    s.found = firstOccurrence? mark s.start t

/-- A look back at an earlier sighting finds what a fresh look finds. -/
theorem Sighting.found_look {query mark before t : Text} {last : Option Sighting}
    (hlast : ∀ s ∈ last, s.Of query mark) (hquery : query = before ++ t) :
    (look last mark (Text.size before) t).found
      = firstOccurrence? mark (Text.size before) t := by
  cases last with
  | none => rfl
  | some s =>
    rw [look]
    split
    · next hanswers =>
      -- The sighting started before the place, and saw no mark between its start and the place.
      obtain ⟨before', t', rfl, hstart, hfound⟩ := hlast s rfl
      rw [answers, Bool.and_eq_true, decide_eq_true_eq, ← hstart] at hanswers
      obtain ⟨gap, rfl, rfl⟩ := Text.exists_append_of_size_le hquery hanswers.1
      rw [hfound, ← hstart, Text.size_append]
      refine (firstOccurrence?_append gap ?_).symm
      rw [← Text.size_append, hstart, ← hfound]
      exact hanswers.2
    · rfl

theorem Sighting.of_look {query mark before t : Text} {last : Option Sighting}
    (hlast : ∀ s ∈ last, s.Of query mark) (hquery : query = before ++ t) :
    (look last mark (Text.size before) t).Of query mark := by
  have hfresh : (fresh mark (Text.size before) t).Of query mark :=
    ⟨before, t, hquery, rfl, rfl⟩
  cases last with
  | none => exact hfresh
  | some s =>
    rw [look]
    split
    · exact hlast s rfl
    · exact hfresh

/-! ## The finder -/

namespace Finder

/-- All that a finder remembers is about a certain query. -/
structure Of (query : Text) (f : Finder) : Prop where
  closing : ∀ s ∈ f.closing, s.Of query SubQuery.closing
  newline : ∀ s ∈ f.newline, s.Of query ['\n']

theorem of_empty (query : Text) : Of query {} where
  closing := by simp
  newline := by simp

variable {query before t : Text} {f : Finder}

theorem Of.length? (hf : f.Of query) (hquery : query = before ++ t) :
    (f.length? (Text.size before) t).2.Of query := by
  unfold Finder.length?
  split
  · exact hf
  · next word rest hword =>
    have hrest : query = (before ++ word) ++ rest := by
      rw [hquery, (Text.eq_append_of_cutFolded? hword).1, List.append_assoc]
    have hclosing := Sighting.of_look hf.closing hrest
    have hnewline := Sighting.of_look hf.newline hrest
    rw [Text.size_append] at hclosing hnewline
    simp only
    split
    · exact ⟨by simpa using hclosing, hf.newline⟩
    · split <;> exact ⟨by simpa using hclosing, by simpa using hnewline⟩

/-- A look at one place keeps what the finder remembers true of the query. -/
theorem Of.cut? (hf : f.Of query) (hquery : query = before ++ t) :
    (f.cut? (Text.size before) t).2.Of query :=
  hf.length? hquery

theorem length?_eq (hf : f.Of query) (hquery : query = before ++ t) :
    (f.length? (Text.size before) t).1
      = (SubQuery.cut? t).map fun (lexeme, _) => Text.size lexeme := by
  unfold Finder.length? SubQuery.cut?
  cases hword : Text.cutFolded? opening t with
  | none => rfl
  | some found =>
    obtain ⟨word, rest⟩ := found
    -- Both marks are looked for behind the opening.
    have hrest : query = (before ++ word) ++ rest := by
      rw [hquery, (Text.eq_append_of_cutFolded? hword).1, List.append_assoc]
    have hclosing := Sighting.found_look hf.closing hrest
    have hnewline := Sighting.found_look hf.newline hrest
    rw [Text.size_append] at hclosing hnewline
    simp only [Option.bind_eq_bind, Option.bind_some, hclosing, hnewline,
      cutClosing?_eq (Text.size before + Text.size word) rest]
    cases hplace : firstOccurrence? SubQuery.closing (Text.size before + Text.size word) rest with
    | none => rfl
    | some place =>
      obtain ⟨body, after, rfl, hsize⟩ := exists_of_firstOccurrence? hplace
      simp only
      split
      · rfl
      · have hn : place + Text.size SubQuery.closing - (Text.size before + Text.size word)
            = Text.size (body ++ SubQuery.closing) := by
          rw [Text.size_append]
          omega
        rw [hn, Text.splitAt?_size_append]
        simp only [Option.bind_some, Option.map_some, Option.some.injEq, Text.size_append]
        omega

/-- What a finder finds is what a reader without memory finds. -/
theorem cut?_eq (hf : f.Of query) (hquery : query = before ++ t) :
    (f.cut? (Text.size before) t).1 = SubQuery.cut? t := by
  rw [Finder.cut?]
  simp only [length?_eq hf hquery]
  cases h : SubQuery.cut? t with
  | none => rfl
  | some found =>
    rw [Option.map_some, Option.bind_some, ← (SubQuery.append_of_cut? h).1,
      Text.splitAt?_size_append]

end Finder
end FilterQuery.SubQuery
