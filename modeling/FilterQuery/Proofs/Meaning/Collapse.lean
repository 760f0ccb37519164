import FilterQuery.Proofs.Pattern.Paired
import Mathlib.Data.List.SplitBy
import Mathlib.Data.List.TakeWhile

/-!
# Collapsing and runs of marks

Pairs of a mark are collapsed from the left, without going over the result again. Said for the text
as a whole: each run of `m` marks, as long as it goes, becomes one of half the length, rounded up
(`collapse_eq_halveRuns`). A mark alone stays, so a text stays as it is exactly if no two marks are
next to each other (`collapse_eq_self_iff`).

Proofs about runs go from one to the next (`Text.run_induction`): what follows a run starts with
another character, so nothing that is done to the run depends on what follows.
-/

namespace FilterQuery

namespace Text

/-! ## Runs -/

/-- Each run of a character of some class cut to half its length, rounded up. All else stays. -/
def halveRuns (p : Char → Bool) (t : Text) : Text :=
  (t.splitBy fun c d => c == d).flatMap fun run =>
    if run.all p then run.take ((run.length + 1) / 2) else run

/-- A text is empty, or it is a run, as long as it goes, and a text behind it. -/
theorem eq_nil_or_exists_run : ∀ t : Text, t = [] ∨
    ∃ c n rest, (∀ d ∈ rest.head?, d ≠ c) ∧ t = List.replicate (n + 1) c ++ rest
  | [] => Or.inl rfl
  | c :: t => by
    refine Or.inr ⟨c, (t.takeWhile (· = c)).length, t.dropWhile (· = c), fun d hd => ?_, ?_⟩
    · have hnot := List.head?_dropWhile_not (fun d => decide (d = c)) t
      rw [hd] at hnot
      exact of_decide_eq_false hnot
    · have hrun : t.takeWhile (· = c) = List.replicate (t.takeWhile (· = c)).length c :=
        List.eq_replicate_length.mpr fun d hd => by simpa using List.mem_takeWhile_imp hd
      rw [List.replicate_succ, ← hrun, List.cons_append, List.takeWhile_append_dropWhile]

/-- What holds of the empty text, and of a run and a text behind it if it holds of that text, holds
of every text. -/
@[elab_as_elim]
theorem run_induction {motive : Text → Prop} (nil : motive [])
    (run : ∀ c n rest, (∀ d ∈ rest.head?, d ≠ c) → motive rest →
      motive (List.replicate (n + 1) c ++ rest)) (t : Text) : motive t := by
  rcases eq_nil_or_exists_run t with rfl | ⟨c, n, rest, hrest, ht⟩
  · exact nil
  · rw [ht]
    exact run c n rest hrest (run_induction nil run rest)
termination_by t.length
decreasing_by
  rw [ht, List.length_append, List.length_replicate]
  omega

theorem halveRuns_run (p : Char → Bool) {c : Char} (n : Nat) {rest : Text}
    (h : ∀ d ∈ rest.head?, d ≠ c) :
    halveRuns p (List.replicate (n + 1) c ++ rest)
      = (if p c then List.replicate ((n + 2) / 2) c else List.replicate (n + 1) c)
        ++ halveRuns p rest := by
  have hlast : ∀ d ∈ (List.replicate (n + 1) c).getLast?, ∀ e ∈ rest.head?, (d == e) = false := by
    intro d hd e he
    obtain rfl := List.eq_of_mem_replicate (List.mem_of_mem_getLast? hd)
    exact beq_eq_false_iff_ne.mpr (h e he).symm
  have hchain : (List.replicate (n + 1) c).IsChain fun c d => c == d :=
    List.isChain_replicate_of_rel (n + 1) (beq_self_eq_true c)
  have htake : List.take ((n + 2) / 2) (List.replicate (n + 1) c)
      = List.replicate ((n + 2) / 2) c := by
    rw [List.take_replicate, Nat.min_eq_left (by omega)]
  have hall : (List.replicate (n + 1) c).all p = p c := by
    rw [List.all_replicate, if_neg (Nat.succ_ne_zero n)]
  rw [halveRuns, List.splitBy_append hlast, List.splitBy_of_isChain (by simp) hchain,
    List.flatMap_append, List.flatMap_singleton, List.length_replicate, htake, hall]
  rfl

end Text

/-! ## Collapsing -/

theorem collapse_pair (mark : Char) (t : Text) :
    collapse mark (mark :: mark :: t) = mark :: collapse mark t := by
  rw [collapse, if_pos ⟨rfl, rfl⟩]

theorem collapse_mark {mark : Char} : ∀ {t : Text}, (∀ d ∈ t.head?, d ≠ mark) →
    collapse mark (mark :: t) = mark :: collapse mark t
  | [], _ => rfl
  | d :: t, h => by rw [collapse, if_neg fun hpair => h d rfl hpair.2]

/-- A run of the mark is collapsed pair by pair, and the last mark of an odd number stays. -/
theorem collapse_run {mark : Char} {rest : Text} (h : ∀ d ∈ rest.head?, d ≠ mark) : ∀ m : Nat,
    collapse mark (List.replicate m mark ++ rest)
      = List.replicate ((m + 1) / 2) mark ++ collapse mark rest
  | 0 => rfl
  | 1 => collapse_mark h
  | m + 2 => by
    have hhalf : (m + 2 + 1) / 2 = (m + 1) / 2 + 1 := by omega
    rw [List.replicate_succ, List.replicate_succ, List.cons_append, List.cons_append,
      collapse_pair, collapse_run h m, hhalf, List.replicate_succ, List.cons_append]

theorem collapse_append_of_not_mem {mark : Char} (b : Text) :
    ∀ {a : Text}, mark ∉ a → collapse mark (a ++ b) = a ++ collapse mark b
  | [], _ => rfl
  | c :: a, h => by
    rw [List.mem_cons, not_or] at h
    rw [List.cons_append, collapse_cons_of_ne (Ne.symm h.1), collapse_append_of_not_mem b h.2,
      List.cons_append]

/-- Collapsing a mark halves its runs. -/
theorem collapse_eq_halveRuns (mark : Char) (t : Text) :
    collapse mark t = t.halveRuns (· = mark) := by
  induction t using Text.run_induction with
  | nil => rfl
  | run c n rest hrest ih =>
    rw [Text.halveRuns_run _ n hrest, ← ih]
    by_cases hc : c = mark
    · subst hc
      rw [collapse_run hrest, if_pos (decide_eq_true rfl)]
    · have hmark : mark ∉ List.replicate (n + 1) c := fun hmem =>
        hc (List.eq_of_mem_replicate hmem).symm
      rw [collapse_append_of_not_mem rest hmark, if_neg (by simpa using hc)]

theorem length_collapse_le (mark : Char) (t : Text) : (collapse mark t).length ≤ t.length := by
  fun_induction collapse mark t with
  | case1 => exact Nat.le_refl 0
  | case2 => exact Nat.le_refl 1
  | case3 c d rest h ih =>
    simp only [List.length_cons]
    omega
  | case4 c d rest h ih => exact Nat.succ_le_succ ih

/-- Collapsing changes nothing exactly if no two marks are next to each other. -/
theorem collapse_eq_self_iff {mark : Char} {t : Text} :
    collapse mark t = t ↔ ¬ [mark, mark] <:+: t := by
  fun_induction collapse mark t with
  | case1 => simp
  | case2 c => simp [List.infix_cons_iff]
  | case3 c d rest h ih =>
    obtain ⟨rfl, rfl⟩ := h
    have hle := length_collapse_le d rest
    refine iff_of_false (fun heq => ?_) fun hno => hno ⟨[], rest, rfl⟩
    have hlength := congrArg List.length heq
    simp only [List.length_cons] at hlength
    omega
  | case4 c d rest h ih =>
    have hfront : ¬ [mark, mark] <+: c :: d :: rest := by
      rw [List.cons_prefix_cons, List.cons_prefix_cons]
      exact fun hpair => h ⟨hpair.1.symm, hpair.2.1.symm⟩
    rw [List.cons.injEq, ih, List.infix_cons_iff (a := c)]
    simp only [true_and, hfront, false_or]

/-! ## Doubling and collapsing -/

namespace Text

variable {mark : Char}

theorem double_append : ∀ a b : Text, double mark (a ++ b) = double mark a ++ double mark b
  | [], b => rfl
  | c :: a, b => by
    rw [List.cons_append, double, double]
    split <;> simp only [double_append a b, List.cons_append]

theorem mem_double_iff {c : Char} : ∀ {t : Text}, c ∈ double mark t ↔ c ∈ t
  | [] => Iff.rfl
  | d :: t => by
    rw [double]
    split <;> simp [mem_double_iff (t := t)]

theorem double_of_not_mem : ∀ {t : Text}, mark ∉ t → double mark t = t
  | [], _ => rfl
  | c :: t, h => by
    rw [List.mem_cons, not_or] at h
    rw [double, if_neg (Ne.symm h.1), double_of_not_mem h.2]

theorem head?_double : ∀ t : Text, (double mark t).head? = t.head?
  | [] => rfl
  | c :: t => by
    rw [double]
    split <;> rfl

end Text

/-- Doubling one mark and collapsing another do not get in each other's way. -/
theorem collapse_double_of_ne {mark other : Char} (hne : other ≠ mark) (t : Text) :
    collapse mark (Text.double other t) = Text.double other (collapse mark t) := by
  induction t using Text.run_induction with
  | nil => rfl
  | run c n rest hrest ih =>
    rw [Text.double_append]
    by_cases hc : c = mark
    · subst hc
      have hother : ∀ m, other ∉ List.replicate m c := fun m hmem =>
        hne (List.eq_of_mem_replicate hmem)
      have hrest' : ∀ d ∈ (Text.double other rest).head?, d ≠ c := by
        rw [Text.head?_double]
        exact hrest
      rw [Text.double_of_not_mem (hother _), collapse_run hrest', collapse_run hrest,
        Text.double_append, Text.double_of_not_mem (hother _), ih]
    · have hmark : mark ∉ List.replicate (n + 1) c := fun hmem =>
        hc (List.eq_of_mem_replicate hmem).symm
      rw [collapse_append_of_not_mem _ (mt Text.mem_double_iff.mp hmark),
        collapse_append_of_not_mem _ hmark, Text.double_append, ih]

/-- Of a text in which only the enclosing mark was doubled, each run of the other mark is halved. -/
theorem unquote_double_one {mark other : Char}
    (h : mark = '\'' ∧ other = '"' ∨ mark = '"' ∧ other = '\'') (s : Text) :
    unquote (Text.double mark s) = collapse other s := by
  rw [unquote]
  rcases h with ⟨rfl, rfl⟩ | ⟨rfl, rfl⟩
  · rw [collapse_double]
  · rw [collapse_double_of_ne (by decide), collapse_double]

end FilterQuery
