import FilterQuery.Proofs.Pattern.Expression

/-!
# Paths and numbers are read to their longest match

`Text.cutDotted` goes over a dotted word character by character, and the search of the expression
goes the same way: each step of the one adds the place where it stands as a last resort to the
other. The lemmas on `dotted` follow the cases of `cutDotted`.

A path through a relation gives the search a choice, since a path that ends early could be followed
by a colon. It never is: no path contains a colon, so only the longest one can end right before it.
-/

namespace FilterQuery

namespace Regex

/-! ## Dotted words -/

/-- One more group of a dotted word. -/
def group (first part : Char → Bool) : Regex := seq (char '.') (run first part)

/-- The rest of a dotted word, from inside a group. -/
def dotted (first part : Char → Bool) : Regex :=
  seq (star (one part)) (star (group first part))

theorem ends_star_one_nil (p : Char → Bool) : ends (star (one p)) [] = [[]] := by
  rw [ends_star]
  rfl

theorem ends_star_one_cons (p : Char → Bool) (c : Char) (t : Text) :
    ends (star (one p)) (c :: t)
      = if p c then ends (star (one p)) t ++ [c :: t] else [c :: t] := by
  rw [ends_star, ends_one_cons]
  split <;> simp

theorem leaves_star_one (p : Char → Bool) : ∀ t : Text,
    Leaves (star (one p)) t (t.dropWhile p)
  | [] => .of_ends_singleton (ends_star_one_nil p)
  | c :: t => by
    rw [List.dropWhile_cons]
    split
    · next hc =>
      exact .of_append (by rw [ends_star_one_cons, if_pos hc]) (List.suffix_cons c t)
        (leaves_star_one p t)
    · next hc => exact .of_ends_singleton (by rw [ends_star_one_cons, if_neg hc])

variable {first part : Char → Bool}

theorem ends_group_nil : ends (group first part) [] = [] := rfl

theorem ends_group_of_ne {c : Char} {t : Text}
    (h : ¬(c = '.' ∧ ∃ d rest, t = d :: rest ∧ first d)) :
    ends (group first part) (c :: t) = [] := by
  rw [group, ends_seq, char, ends_one_cons]
  by_cases hc : c = '.'
  · cases t with
    | nil => simp [hc, run, ends]
    | cons d rest =>
      have hd : ¬ first d = true := fun hd => h ⟨hc, d, rest, rfl, hd⟩
      simp [hc, run, ends_seq, ends_one_cons, hd]
  · simp [hc]

theorem ends_group_cons {d : Char} {t : Text} (h : first d = true) :
    ends (group first part) ('.' :: d :: t) = ends (star (one part)) t := by
  simp [group, run, char, ends_seq, ends_one_cons, h]

/-- Where no group starts, a repetition of groups takes nothing. -/
theorem ends_star_group_of_ends_eq_nil {t : Text} (h : ends (group first part) t = []) :
    ends (star (group first part)) t = [t] := by
  rw [ends_star, h]
  rfl

/-- A group and those behind it leave what a dotted word leaves from inside that group. -/
theorem ends_plus_group {d : Char} {t : Text} (h : first d = true) :
    ends (plus (group first part)) ('.' :: d :: t) = ends (dotted first part) t := by
  rw [plus, ends_seq, ends_group_cons h]
  rfl

theorem ends_star_group_cons {d : Char} {t : Text} (h : first d = true) :
    ends (star (group first part)) ('.' :: d :: t)
      = ends (dotted first part) t ++ ['.' :: d :: t] := by
  rw [ends_star, ends_group_cons h, dotted, ends_seq]
  refine congrArg (fun l => List.flatMap _ l ++ _) (List.filter_eq_self.mpr ?_)
  -- Whatever the characters of the group leave is shorter than the text by the dot at least.
  intro rest hrest
  obtain ⟨x, rfl, -⟩ := mem_ends_iff.mp hrest
  simp only [List.length_cons, List.length_append, decide_eq_true_eq]
  omega

theorem ends_dotted_nil : ends (dotted first part) [] = [[]] := by
  rw [dotted, ends_seq, ends_star_one_nil, List.flatMap_singleton,
    ends_star_group_of_ends_eq_nil ends_group_nil]

theorem ends_dotted_part {c : Char} {t : Text} (hdot : part '.' = false) (hc : part c = true) :
    ends (dotted first part) (c :: t) = ends (dotted first part) t ++ [c :: t] := by
  have hne : c ≠ '.' := by
    rintro rfl
    rw [hc] at hdot
    exact absurd hdot (by simp)
  rw [dotted, ends_seq, ends_star_one_cons, if_pos hc, List.flatMap_append,
    List.flatMap_singleton,
    ends_star_group_of_ends_eq_nil (ends_group_of_ne fun h => hne h.1)]
  rfl

theorem ends_dotted_group {d : Char} {t : Text} (hdot : part '.' = false) (hd : first d = true) :
    ends (dotted first part) ('.' :: d :: t) = ends (dotted first part) t ++ ['.' :: d :: t] := by
  rw [dotted, ends_seq, ends_star_one_cons, hdot, if_neg Bool.false_ne_true,
    List.flatMap_singleton, ends_star_group_cons hd]
  rfl

theorem ends_dotted_stop {c : Char} {t : Text} (hc : ¬ part c = true)
    (hgroup : ends (group first part) (c :: t) = []) :
    ends (dotted first part) (c :: t) = [c :: t] := by
  rw [dotted, ends_seq, ends_star_one_cons, if_neg hc, List.flatMap_singleton,
    ends_star_group_of_ends_eq_nil hgroup]

/-- The rest of a dotted word is read to the longest match. -/
theorem leaves_dotted (first : Char → Bool) (hdot : part '.' = false) (t : Text) :
    Leaves (dotted first part) t (Text.cutDotted first part t).2 := by
  fun_induction Text.cutDotted first part t with
  | case1 => exact .of_ends_singleton ends_dotted_nil
  | case2 c hc =>
    exact .of_append (ends_dotted_part hdot hc) (List.suffix_cons c [])
      (.of_ends_singleton ends_dotted_nil)
  | case3 c hc =>
    exact .of_ends_singleton (ends_dotted_stop hc (ends_group_of_ne (by simp)))
  | case4 c d rest hc word after heq ih =>
    rw [heq] at ih
    exact .of_append (ends_dotted_part hdot hc) (List.suffix_cons c (d :: rest)) ih
  | case5 c d rest hc hd word after heq ih =>
    rw [heq] at ih
    obtain ⟨rfl, hd⟩ := hd
    exact .of_append (ends_dotted_group hdot hd) (List.suffix_append ['.', d] rest) ih
  | case6 c d rest hc hd =>
    refine .of_ends_singleton (ends_dotted_stop hc (ends_group_of_ne ?_))
    rintro ⟨rfl, e, rest', heq, he⟩
    rw [List.cons.injEq] at heq
    exact hd ⟨rfl, heq.1 ▸ he⟩

/-! ## Words of two groups at least -/

/-- The rest of a dotted word with a further group, from inside its first group. -/
def dottedOn (first part : Char → Bool) : Regex :=
  seq (star (one part)) (plus (group first part))

/-- Where no group starts, there is none to begin with. -/
theorem ends_plus_group_of_ends_eq_nil {t : Text} (h : ends (group first part) t = []) :
    ends (plus (group first part)) t = [] := by
  rw [plus, ends_seq, h]
  rfl

theorem ends_dottedOn_nil : ends (dottedOn first part) [] = [] := by
  rw [dottedOn, ends_seq, ends_star_one_nil, List.flatMap_singleton,
    ends_plus_group_of_ends_eq_nil ends_group_nil]

theorem ends_dottedOn_part {c : Char} {t : Text} (hdot : part '.' = false) (hc : part c = true) :
    ends (dottedOn first part) (c :: t) = ends (dottedOn first part) t := by
  have hne : c ≠ '.' := by
    rintro rfl
    rw [hc] at hdot
    exact absurd hdot (by simp)
  rw [dottedOn, ends_seq, ends_star_one_cons, if_pos hc, List.flatMap_append,
    List.flatMap_singleton,
    ends_plus_group_of_ends_eq_nil (ends_group_of_ne fun h => hne h.1), List.append_nil]
  rfl

theorem ends_dottedOn_group {d : Char} {t : Text} (hdot : part '.' = false)
    (hd : first d = true) :
    ends (dottedOn first part) ('.' :: d :: t) = ends (dotted first part) t := by
  rw [dottedOn, ends_seq, ends_star_one_cons, hdot, if_neg Bool.false_ne_true,
    List.flatMap_singleton, ends_plus_group hd]

theorem ends_dottedOn_stop {c : Char} {t : Text} (hc : ¬ part c = true)
    (hgroup : ends (group first part) (c :: t) = []) :
    ends (dottedOn first part) (c :: t) = [] := by
  rw [dottedOn, ends_seq, ends_star_one_cons, if_neg hc, List.flatMap_singleton,
    ends_plus_group_of_ends_eq_nil hgroup]

/-- The rest of a dotted word has a dot exactly when there is a further group, and then it is read
to the longest match. -/
theorem leaves_dottedOn (first : Char → Bool) (hdot : part '.' = false) (t : Text) :
    if '.' ∈ (Text.cutDotted first part t).1 then
      Leaves (dottedOn first part) t (Text.cutDotted first part t).2
    else ends (dottedOn first part) t = [] := by
  have hne : ∀ c, part c = true → '.' ≠ c := by
    rintro c hc rfl
    rw [hc] at hdot
    exact absurd hdot (by simp)
  fun_induction Text.cutDotted first part t with
  | case1 => exact ends_dottedOn_nil
  | case2 c hc =>
    rw [if_neg (by simp [hne c hc]), ends_dottedOn_part hdot hc, ends_dottedOn_nil]
  | case3 c hc => exact ends_dottedOn_stop hc (ends_group_of_ne (by simp))
  | case4 c d rest hc word after heq ih =>
    rw [heq] at ih
    simp only [List.mem_cons, hne c hc, false_or]
    split
    · next hmem =>
      rw [if_pos hmem] at ih
      exact .of_ends_eq (ends_dottedOn_part hdot hc) ih
    · next hmem =>
      rw [if_neg hmem] at ih
      rw [ends_dottedOn_part hdot hc, ih]
  | case5 c d rest hc hd word after heq ih =>
    obtain ⟨rfl, hd⟩ := hd
    have hword := leaves_dotted first hdot rest
    rw [heq] at hword
    rw [if_pos (by simp)]
    exact .of_ends_eq (ends_dottedOn_group hdot hd) hword
  | case6 c d rest hc hd =>
    refine ends_dottedOn_stop hc (ends_group_of_ne ?_)
    rintro ⟨rfl, e, rest', heq, he⟩
    rw [List.cons.injEq] at heq
    exact hd ⟨rfl, heq.1 ▸ he⟩

/-! ## Field paths -/

theorem isNamePart_dot : isNamePart '.' = false := by decide

theorem ends_path (t : Text) :
    ends path t = ends (seq (one isNameStart) (dotted isNameStart isNamePart)) t := by
  rw [path, identifier, run, ends_seq_assoc]
  rfl

/-- Paths are read to the longest match. -/
theorem reads_cutPath? : ∀ t : Text, Reads path t (cutPath? t)
  | [] => by
    rw [cutPath?]
    exact ends_path []
  | c :: rest => by
    rw [cutPath?]
    have hpath := ends_path (c :: rest)
    rw [ends_seq, ends_one_cons] at hpath
    split
    · next hc =>
      rw [if_pos hc, List.flatMap_singleton] at hpath
      refine ⟨?_, .of_ends_eq hpath (leaves_dotted isNameStart isNamePart_dot rest)⟩
      rw [List.cons_append, Text.cutDotted_append]
    · next hc =>
      rw [if_neg hc] at hpath
      exact hpath

theorem ends_longPath (t : Text) :
    ends longPath t = ends (seq (one isNameStart) (dottedOn isNameStart isNamePart)) t := by
  rw [longPath, identifier, run, ends_seq_assoc]
  rfl

/-- The paths of at least two names are the paths with a dot. -/
theorem reads_longPath : ∀ t : Text,
    Reads longPath t ((cutPath? t).filter fun (path, _) => '.' ∈ path)
  | [] => ends_longPath []
  | c :: rest => by
    rw [cutPath?]
    have hpath := ends_longPath (c :: rest)
    rw [ends_seq, ends_one_cons] at hpath
    split
    · next hc =>
      rw [if_pos hc, List.flatMap_singleton] at hpath
      have hrest := leaves_dottedOn isNameStart isNamePart_dot rest
      have hdot : '.' ≠ c := by
        rintro rfl
        exact absurd hc (by decide)
      simp only [Option.filter_some, List.mem_cons, hdot, false_or]
      split at hrest
      · next hmem =>
        rw [if_pos (by simpa using hmem)]
        refine ⟨?_, .of_ends_eq hpath hrest⟩
        rw [List.cons_append, Text.cutDotted_append]
      · next hmem =>
        rw [if_neg (by simpa using hmem)]
        exact hpath.trans hrest
    · next hc =>
      rw [if_neg hc] at hpath
      exact hpath

theorem ends_char_cons (c : Char) (a : Regex) (t : Text) :
    ends (seq (char c) a) (c :: t) = ends a t := by
  rw [ends_seq, char, ends_one_cons, if_pos (by simp), List.flatMap_singleton]

theorem ends_char_of_ne {c d : Char} (a : Regex) (t : Text) (h : d ≠ c) :
    ends (seq (char c) a) (d :: t) = [] := by
  rw [ends_seq, char, ends_one_cons, if_neg (by simpa using h)]
  rfl

/-- No path contains a colon. -/
theorem path_apart_colon (a : Regex) : Apart path (seq (char ':') a) := by
  intro c hc
  have hne : c ≠ ':' := by
    rintro rfl
    exact absurd hc (by decide)
  simp [starts, nullable, char, hne]

/-- Paths through relations are read to the longest match. -/
theorem reads_cutRelation? (t : Text) : Reads relation t (cutRelation? t) := by
  have hsource := reads_cutPath? t
  unfold cutRelation?
  split
  · next source rest heq =>
    rw [heq] at hsource
    obtain ⟨rfl, hsource⟩ := hsource
    have htarget := reads_longPath rest
    split
    · next target after heq' =>
      rw [heq', Option.filter_some] at htarget
      split
      · next hmem =>
        rw [if_pos (by simpa using hmem)] at htarget
        refine ⟨by simp [← htarget.1], hsource.of_seq_of_apart ?_ (path_apart_colon longPath)⟩
        exact .of_ends_eq (ends_char_cons ':' longPath rest) htarget.2
      · next hmem =>
        rw [if_neg (by simpa using hmem)] at htarget
        exact ends_seq_eq_nil hsource ((ends_char_cons ':' longPath rest).trans htarget)
          (path_apart_colon longPath)
    · next heq' =>
      rw [heq'] at htarget
      exact ends_seq_eq_nil hsource ((ends_char_cons ':' longPath rest).trans htarget)
        (path_apart_colon longPath)
  · next hno =>
    -- There is no path, or none that a colon follows.
    cases hcut : cutPath? t with
    | none =>
      rw [hcut] at hsource
      show ends (seq path _) t = []
      rw [ends_seq, show ends path t = [] from hsource]
      rfl
    | some found =>
      rw [hcut] at hsource
      obtain ⟨source, after⟩ := found
      refine ends_seq_eq_nil hsource.2 ?_ (path_apart_colon longPath)
      cases after with
      | nil => rfl
      | cons c rest =>
        refine ends_char_of_ne longPath rest ?_
        rintro rfl
        exact hno source rest hcut

/-! ## Numbers -/

theorem leaves_digits {t : Text} (h : FilterQuery.digits t ≠ []) :
    Leaves digits t (afterDigits t) := by
  cases t with
  | nil => exact absurd rfl h
  | cons c rest =>
    have hc : c.isDigit = true := by
      by_contra hc
      exact h (by simp [FilterQuery.digits, hc])
    have hends : ends digits (c :: rest) = ends (star (one Char.isDigit)) rest := by
      rw [digits, plus, ends_seq, ends_one_cons, if_pos hc, List.flatMap_singleton]
    rw [afterDigits, List.dropWhile_cons, if_pos hc]
    exact .of_ends_eq hends (leaves_star_one Char.isDigit rest)

theorem ends_digits_eq_nil {t : Text} (h : FilterQuery.digits t = []) : ends digits t = [] := by
  cases t with
  | nil => rfl
  | cons c rest =>
    have hc : ¬ c.isDigit = true := by
      intro hc
      simp [FilterQuery.digits, hc] at h
    rw [digits, plus, ends_seq, ends_one_cons, if_neg hc]
    rfl

theorem Leaves.opt {a : Regex} {t y : Text} (h : Leaves a t y) : Leaves (opt a) t y :=
  .of_append (s := a) rfl List.suffix_rfl h

theorem leaves_opt_of_ends_eq_nil {a : Regex} {t : Text} (h : ends a t = []) :
    Leaves (opt a) t t :=
  .of_ends_singleton (by rw [Regex.opt, ends_alt, h]; rfl)

theorem leaves_cutFraction : ∀ t : Text, Leaves (opt fraction) t (cutFraction t).2
  | [] => leaves_opt_of_ends_eq_nil rfl
  | c :: rest => by
    rw [cutFraction]
    split
    · next h =>
      obtain ⟨rfl, hdigits⟩ := h
      exact .opt (.of_ends_eq (ends_char_cons '.' digits rest) (leaves_digits hdigits))
    · next h =>
      refine leaves_opt_of_ends_eq_nil ?_
      by_cases hc : c = '.'
      · have hno : FilterQuery.digits rest = [] := by
          by_contra hdigits
          exact h ⟨hc, hdigits⟩
        rw [hc, fraction, ends_char_cons, ends_digits_eq_nil hno]
      · exact ends_char_of_ne digits rest hc

theorem leaves_cutSign (t : Text) : Leaves (opt sign) t (cutSign t).2 := by
  fun_cases cutSign t with
  | case1 rest => exact .opt (.of_ends_singleton rfl)
  | case2 rest => exact .opt (.of_ends_singleton rfl)
  | case3 t hplus hminus =>
    refine leaves_opt_of_ends_eq_nil ?_
    cases t with
    | nil => rfl
    | cons c rest =>
      have hc : ¬((c = '+' || c = '-') = true) := by
        intro hc
        rcases Bool.or_eq_true _ _ ▸ hc with hc | hc
        · exact hplus rest (by rw [of_decide_eq_true hc])
        · exact hminus rest (by rw [of_decide_eq_true hc])
      rw [sign, ends_one_cons, if_neg hc]

theorem sign_apart_digits : Apart (opt sign) digits := by
  intro c hc
  have hc : c = '+' ∨ c = '-' := by simpa [uses, Regex.opt, sign] using hc
  rcases hc with rfl | rfl <;> decide

theorem leaves_cutExponent : ∀ t : Text, Leaves (opt exponent) t (cutExponent t).2
  | [] => leaves_opt_of_ends_eq_nil rfl
  | e :: rest => by
    have hsign := leaves_cutSign rest
    have hends : ends exponent (e :: rest)
        = if e = 'e' ∨ e = 'E' then ends (seq (opt sign) digits) rest else [] := by
      rw [exponent, ends_seq, ends_one_cons]
      by_cases he : e = 'e' ∨ e = 'E'
      · rw [if_pos he, if_pos (by simpa using he), List.flatMap_singleton]
      · rw [if_neg he, if_neg (by simpa using he)]
        rfl
    simp only [cutExponent]
    split
    · next h =>
      rw [if_pos h.1] at hends
      exact .opt (.of_ends_eq hends (hsign.of_seq_of_apart (leaves_digits h.2) sign_apart_digits))
    · next h =>
      refine leaves_opt_of_ends_eq_nil ?_
      rw [hends]
      split
      · next he =>
        have hno : FilterQuery.digits (cutSign rest).2 = [] := by
          by_contra hdigits
          exact h ⟨he, hdigits⟩
        exact ends_seq_eq_nil hsign (ends_digits_eq_nil hno) sign_apart_digits
      · rfl

/-- No digit starts a fraction or an exponent. -/
theorem digit_apart : Apart (star (one Char.isDigit)) (seq (opt fraction) (opt exponent)) := by
  intro c hc
  have hne : c ≠ '.' ∧ c ≠ 'e' ∧ c ≠ 'E' := by
    refine ⟨?_, ?_, ?_⟩ <;> rintro rfl <;> exact absurd hc (by decide)
  simp [starts, nullable, Regex.opt, fraction, exponent, char, hne]

/-- An exponent starts with its mark only. -/
theorem apart_exponent {a : Regex} (he : uses a 'e' = false) (hE : uses a 'E' = false) :
    Apart a (opt exponent) := by
  intro c hc
  have hne : c ≠ 'e' ∧ c ≠ 'E' := by
    refine ⟨?_, ?_⟩
    · rintro rfl
      exact absurd (hc.symm.trans he) (by simp)
    · rintro rfl
      exact absurd (hc.symm.trans hE) (by simp)
  simp [starts, nullable, Regex.opt, exponent, hne]

/-- What the digits, fractions and exponent of a number leave, from behind its first digit. -/
theorem leaves_cutMantissa (grammar : NumberGrammar) {c : Char} (hc : c.isDigit = true)
    (rest : Text) :
    Leaves (number grammar) (c :: rest) (cutExponent (cutMantissa grammar rest).2).2 := by
  have hfirst (a : Regex) : ends (seq digits a) (c :: rest)
      = ends (seq (star (one Char.isDigit)) a) rest := by
    rw [digits, plus, ends_seq_assoc, ends_seq, ends_one_cons, if_pos hc, List.flatMap_singleton]
  cases grammar with
  | strict =>
    refine .of_ends_eq (hfirst _) ?_
    refine (leaves_star_one Char.isDigit rest).of_seq_of_apart ?_ digit_apart
    exact (leaves_cutFraction _).of_seq_of_apart (leaves_cutExponent _)
      (apart_exponent (by decide) (by decide))
  | compat =>
    refine .of_ends_eq ((hfirst _).trans (ends_seq_assoc _ _ _ rest).symm) ?_
    exact (leaves_dotted Char.isDigit (by decide) rest).of_seq_of_apart (leaves_cutExponent _)
      (apart_exponent (by decide) (by decide))

/-- Numbers are read to the longest match, under both grammars. -/
theorem reads_cutNumber? (grammar : NumberGrammar) : ∀ t : Text,
    Reads (number grammar) t (cutNumber? grammar t)
  | [] => by cases grammar <;> rfl
  | c :: rest => by
    by_cases hc : c.isDigit = true
    · have hcut : cutNumber? grammar (c :: rest)
          = some (c :: (cutMantissa grammar rest).1 ++ (cutExponent (cutMantissa grammar rest).2).1,
            (cutExponent (cutMantissa grammar rest).2).2) := by
        rw [cutNumber?, if_pos hc]
      rw [hcut]
      exact ⟨(append_of_cutNumber? hcut).1, leaves_cutMantissa grammar hc rest⟩
    · rw [cutNumber?, if_neg hc]
      have hdigits : FilterQuery.digits (c :: rest) = [] := by
        rw [FilterQuery.digits, List.takeWhile_cons, if_neg hc]
      have hends (a : Regex) : ends (seq digits a) (c :: rest) = [] := by
        rw [ends_seq, ends_digits_eq_nil hdigits]
        rfl
      cases grammar with
      | strict => exact hends _
      | compat => exact hends _

end Regex
end FilterQuery
