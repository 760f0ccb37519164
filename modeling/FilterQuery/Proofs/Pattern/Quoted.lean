import FilterQuery.Proofs.Pattern.Expression

/-!
# Quoted texts are read to their longest match

Here the search does go back. It takes every pair of marks as a part of the text and looks for a
closing mark behind it; if there is none, it gives the pair back and closes the text with the first
mark of it. `cutClosing?` goes the same way, so the two agree step by step.
-/

namespace FilterQuery.Regex

variable {mark : Char}

/-- One step inside a quoted text: a character that is not the mark, or the mark doubled. -/
def quotedItem (mark : Char) : Regex :=
  alt (one fun c => c ≠ mark) (seq (char mark) (char mark))

/-- A quoted text from behind its opening mark. -/
def quotedRest (mark : Char) : Regex := seq (star (quotedItem mark)) (char mark)

theorem ends_quotedItem_of_ne {c : Char} {t : Text} (hc : c ≠ mark) :
    ends (quotedItem mark) (c :: t) = [t] := by
  simp [quotedItem, ends_alt, ends_seq, char, ends_one_cons, hc]

theorem ends_quotedItem_pair (t : Text) :
    ends (quotedItem mark) (mark :: mark :: t) = [t] := by
  simp [quotedItem, ends_alt, ends_seq, char, ends_one_cons]

theorem ends_quotedItem_mark {d : Char} {t : Text} (hd : d ≠ mark) :
    ends (quotedItem mark) (mark :: d :: t) = [] := by
  simp [quotedItem, ends_alt, ends_seq, char, ends_one_cons, hd]

/-- Where one step can be taken, the search goes on behind it and tries to close the text last. -/
theorem ends_quotedRest_of_item {t u : Text} (h : ends (quotedItem mark) t = [u])
    (hlt : u.length < t.length) :
    ends (quotedRest mark) t = ends (quotedRest mark) u ++ ends (char mark) t := by
  rw [quotedRest, ends_seq, ends_star, h, List.filter_cons_of_pos (by simpa using hlt)]
  simp [ends_seq]

/-- Where no step can be taken, the text has to end. -/
theorem ends_quotedRest_of_stop {t : Text} (h : ends (quotedItem mark) t = []) :
    ends (quotedRest mark) t = ends (char mark) t := by
  rw [quotedRest, ends_seq, ends_star, h]
  simp

theorem ends_quotedRest_nil : ends (quotedRest mark) [] = [] :=
  ends_quotedRest_of_stop rfl

theorem ends_quotedRest_of_ne {c : Char} {t : Text} (hc : c ≠ mark) :
    ends (quotedRest mark) (c :: t) = ends (quotedRest mark) t := by
  rw [ends_quotedRest_of_item (ends_quotedItem_of_ne hc) (by simp), char, ends_one_cons,
    if_neg (by simpa using hc), List.append_nil]

theorem ends_quotedRest_pair (t : Text) :
    ends (quotedRest mark) (mark :: mark :: t) = ends (quotedRest mark) t ++ [mark :: t] := by
  rw [ends_quotedRest_of_item (ends_quotedItem_pair t) (by simp only [List.length_cons]; omega),
    char, ends_one_cons, if_pos (by simp)]

theorem ends_quotedRest_last : ends (quotedRest mark) [mark] = [[]] := by
  rw [ends_quotedRest_of_stop (by simp [quotedItem, ends, char]), char, ends_one_cons,
    if_pos (by simp)]

theorem ends_quotedRest_mark {d : Char} {t : Text} (hd : d ≠ mark) :
    ends (quotedRest mark) (mark :: d :: t) = [d :: t] := by
  rw [ends_quotedRest_of_stop (ends_quotedItem_mark hd), char, ends_one_cons, if_pos (by simp)]

/-- The end of a quoted text is found where the search finds it, and no later end is possible. -/
theorem reads_cutClosing? (mark : Char) (t : Text) :
    Reads (quotedRest mark) t (cutClosing? mark t) := by
  fun_induction cutClosing? mark t with
  | case1 => exact ends_quotedRest_nil
  | case2 => exact ⟨rfl, .of_ends_singleton ends_quotedRest_last⟩
  | case3 c hc => exact (ends_quotedRest_of_ne hc).trans ends_quotedRest_nil
  | case4 rest body after heq ih =>
    rw [heq] at ih
    refine ⟨by rw [← ih.1]; rfl, ?_⟩
    exact .of_append (ends_quotedRest_pair rest) (List.suffix_cons mark rest) ih.2
  | case5 rest heq ih =>
    -- The pair is given back: nothing behind it closes the text.
    rw [heq] at ih
    refine ⟨rfl, .of_ends_singleton ?_⟩
    rw [ends_quotedRest_pair, show ends (quotedRest mark) rest = [] from ih, List.nil_append]
  | case6 d rest hd => exact ⟨rfl, .of_ends_singleton (ends_quotedRest_mark hd)⟩
  | case7 c d rest hc body after heq ih =>
    rw [heq] at ih
    exact ⟨by rw [List.cons_append, ih.1], .of_ends_eq (ends_quotedRest_of_ne hc) ih.2⟩
  | case8 c d rest hc heq ih =>
    rw [heq] at ih
    exact (ends_quotedRest_of_ne hc).trans ih

/-- Quoted texts are read to the longest match. -/
theorem reads_cutQuoted? (mark : Char) : ∀ t : Text, Reads (quoted mark) t (cutQuoted? mark t)
  | [] => rfl
  | c :: rest => by
    have hrest := reads_cutClosing? mark rest
    rw [cutQuoted?]
    split
    · next hc =>
      subst hc
      have hends : ends (quoted c) (c :: rest) = ends (quotedRest c) rest := by
        rw [quoted, ends_seq, char, ends_one_cons, if_pos (by simp), List.flatMap_singleton]
        rfl
      cases hcut : cutClosing? c rest with
      | none =>
        rw [hcut] at hrest
        exact hends.trans hrest
      | some found =>
        rw [hcut] at hrest
        exact ⟨by rw [List.cons_append, hrest.1], .of_ends_eq hends hrest.2⟩
    · next hc =>
      show ends (quoted mark) (c :: rest) = []
      rw [quoted, ends_seq, char, ends_one_cons, if_neg (by simpa using hc)]
      rfl

end FilterQuery.Regex
