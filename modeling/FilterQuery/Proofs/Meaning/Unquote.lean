import FilterQuery.Proofs.Meaning.Collapse

/-!
# Unquoting in one pass

The value of a quoted text comes about in two passes, one for each quote mark, and the second pass
reads what the first one left. Yet neither gets in the other's way: what a pass makes of a run is a
run of the same mark in the same place, and it is never empty. So both passes together are a single
one, which halves the runs of both marks and keeps all else (`unquote_eq_halveRuns`).
-/

namespace FilterQuery

namespace Text

variable {p q : Char → Bool}

/-! ## Halving the runs of several classes -/

/-- Halving leaves something of each run. -/
theorem head?_halveRuns (p : Char → Bool) (t : Text) : (t.halveRuns p).head? = t.head? := by
  rcases eq_nil_or_exists_run t with rfl | ⟨c, n, rest, hrest, rfl⟩
  · rfl
  · have hhalf : (n + 2) / 2 = n / 2 + 1 := by omega
    rw [halveRuns_run p n hrest, hhalf]
    split <;> rfl

/-- The runs of two classes without a common character are halved class by class or all at once. -/
theorem halveRuns_halveRuns (h : ∀ c, p c = true → q c = false) (t : Text) :
    (t.halveRuns p).halveRuns q = t.halveRuns fun c => p c || q c := by
  induction t using run_induction with
  | nil => rfl
  | run c n rest hrest ih =>
    -- Whatever the first pass makes of the rest, the run in front of it ends where it ended.
    have hrest' : ∀ d ∈ (rest.halveRuns p).head?, d ≠ c := by
      rwa [head?_halveRuns]
    rw [halveRuns_run p n hrest, halveRuns_run _ n hrest, ← ih]
    cases hp : p c with
    | true =>
      have hhalf : (n + 2) / 2 = n / 2 + 1 := by omega
      rw [if_pos rfl, hhalf, halveRuns_run q (n / 2) hrest', h c hp]
      rfl
    | false => exact halveRuns_run q n hrest'

/-- Both marks are doubled one after the other or in one pass. -/
theorem double_double : ∀ s : Text, double '\'' (double '"' s)
    = s.flatMap fun c => if c = '\'' ∨ c = '"' then [c, c] else [c]
  | [] => rfl
  | c :: s => by
    have hne : '"' ≠ '\'' := by decide
    rw [List.flatMap_cons, ← double_double s, double]
    by_cases hdouble : c = '"'
    · rw [if_pos hdouble, hdouble, double, if_neg hne, double, if_neg hne]
      rfl
    · by_cases hsingle : c = '\''
      · rw [if_neg hdouble, hsingle, double, if_pos rfl]
        rfl
      · rw [if_neg hdouble, double, if_neg hsingle, if_neg (not_or.mpr ⟨hsingle, hdouble⟩)]
        rfl

end Text

/-! ## The two passes -/

/-- A pass for one mark and then one for another halve the runs of both. -/
theorem collapse_collapse {mark other : Char} (hne : mark ≠ other) (t : Text) :
    collapse other (collapse mark t) = t.halveRuns fun c => c = mark || c = other := by
  rw [collapse_eq_halveRuns, collapse_eq_halveRuns]
  refine Text.halveRuns_halveRuns (fun c hc => decide_eq_false ?_) t
  rw [of_decide_eq_true hc]
  exact hne

/-- What a quoted text means comes of its body in a single pass: each run of either mark, as long as
it goes, is cut to half its length, rounded up, and all else is kept. So the order in which the marks
are collapsed makes no difference, and a text in which every mark was doubled is given back. -/
theorem unquote_eq_halveRuns (t : Text) :
    unquote t = t.halveRuns (fun c => c = '\'' || c = '"') ∧
    collapse '\'' (collapse '"' t) = unquote t ∧
    unquote (t.flatMap fun c => if c = '\'' ∨ c = '"' then [c, c] else [c]) = t := by
  have hunquote : unquote t = t.halveRuns fun c => c = '\'' || c = '"' :=
    collapse_collapse (by decide) t
  refine ⟨hunquote, ?_, ?_⟩
  · have hor : (fun c : Char => c = '"' || c = '\'') = fun c => c = '\'' || c = '"' :=
      funext fun c => Bool.or_comm _ _
    rw [hunquote, collapse_collapse (by decide), hor]
  · rw [← Text.double_double, unquote_double]

/-- Runs of both marks next to each other, of odd and of even length. -/
example : unquote "'\"\"'''\"x''''\"".toList = "'\"''\"x''\"".toList := by decide

end FilterQuery
