import FilterQuery.Proofs.Scan.Places
import FilterQuery.Proofs.Scan.Run
import Mathlib.Algebra.GroupWithZero.Nat
import Mathlib.Order.Interval.Finset.Nat

/-!
# No part of a query is searched twice

A finder that is asked about a place either still knows where a mark comes next or searches for it,
from behind the opening there up to where it finds the mark or to the end of the query. Along places
that do not go back, it searches anew only behind what it found last. So no two searches for a mark
go over the same offset, none comes after one that found nothing, and all of them together go over
each offset of the query once at most (`searches_cover_once`).

A scan asks about the places where its lexemes start, and these go on from one to the next.
-/

namespace FilterQuery
namespace SubQuery

/-! ## Searches -/

/-- A mark that a finder looks for. -/
inductive Mark where
  | closing
  | newline
  deriving DecidableEq

/-- The characters of a mark. -/
def Mark.text : Mark → Text
  | closing => SubQuery.closing
  | newline => ['\n']

namespace Sighting

/-- The search that a look for a mark takes, unless the last sighting answers. -/
def search? (last : Option Sighting) (mark : Text) (offset : Nat) (t : Text) : Option Sighting :=
  if last.any (·.answers offset) then none else some (fresh mark offset t)

/-- The offsets that a search goes over: up to where the mark is found, or else to the end. -/
def covered (query : Text) (s : Sighting) : Finset Nat :=
  Finset.Icc s.start (s.found.getD (Text.size query))

/-- A search that finds its mark, before another search starts. -/
def EndsBefore (s s' : Sighting) : Prop := ∃ place, s.found = some place ∧ place < s'.start

end Sighting

namespace Finder

/-- What was last seen of a mark. -/
def sighting (f : Finder) : Mark → Option Sighting
  | .closing => f.closing
  | .newline => f.newline

/-- Where a finder looks for a mark if it is asked about a place, and the text from there on. It
looks behind an opening only, and for a newline only if there is a closing mark to come. -/
def lookout? (query : Text) (f : Finder) (mark : Mark) (place : Nat) : Option (Nat × Text) := do
  let (_, t) ← Text.splitAt? place query
  let (word, rest) ← Text.cutFolded? opening t
  let offset := place + Text.size word
  match mark with
  | .closing => some (offset, rest)
  | .newline =>
    if (Sighting.look f.closing SubQuery.closing offset rest).found.isSome then some (offset, rest)
    else none

/-- The search for a mark that a finder makes if it is asked about a place. -/
def search? (query : Text) (f : Finder) (mark : Mark) (place : Nat) : Option Sighting := do
  let (offset, t) ← f.lookout? query mark place
  Sighting.search? (f.sighting mark) mark.text offset t

/-- The finder after it was asked about some places, one after the other. -/
def afterAll (query : Text) (f : Finder) (places : List Nat) : Finder :=
  places.foldl (fun f place => (f.ask query place).2) f

/-- The searches for a mark that a finder makes if it is asked about some places, one after the
other. -/
def searches (query : Text) (mark : Mark) : Finder → List Nat → List Sighting
  | _, [] => []
  | f, place :: places =>
    (f.search? query mark place).toList ++ searches query mark (f.ask query place).2 places

end Finder

/-! ## A single search -/

namespace Sighting

variable {s s' s'' : Sighting} {query mark t : Text} {offset : Nat}

/-- What a look leaves is its search, or the last sighting if there was none. -/
theorem some_look (last : Option Sighting) (mark : Text) (offset : Nat) (t : Text) :
    some (look last mark offset t) = (search? last mark offset t).or last := by
  cases last with
  | none => rfl
  | some s =>
    rw [look, search?, Option.any_some]
    split <;> rfl

/-- A sighting from before some offset that does not answer there has found its mark before it. -/
theorem exists_of_answers_eq_false (hle : s.start ≤ offset) (h : s.answers offset = false) :
    ∃ place, s.found = some place ∧ place < offset := by
  rw [answers, decide_eq_true hle, Bool.true_and, Option.all_eq_false] at h
  obtain ⟨place, hplace, hlt⟩ := h
  exact ⟨place, hplace, Nat.lt_of_not_le (of_decide_eq_false hlt)⟩

theorem Of.start_le (h : s.Of query mark) : s.start ≤ Text.size query := by
  obtain ⟨before, t, rfl, hstart, -⟩ := h
  rw [← hstart, Text.size_append]
  exact Nat.le_add_right _ _

theorem Of.start_le_found (h : s.Of query mark) {place : Nat} (hfound : s.found = some place) :
    s.start ≤ place := by
  obtain ⟨before, t, -, -, hlook⟩ := h
  exact le_of_firstOccurrence? (hlook.symm.trans hfound)

theorem Of.found_le (h : s.Of query mark) {place : Nat} (hfound : s.found = some place) :
    place ≤ Text.size query := by
  obtain ⟨before, t, rfl, hstart, hlook⟩ := h
  obtain ⟨gap, after, rfl, hplace⟩ := exists_of_firstOccurrence? (hlook.symm.trans hfound)
  simp only [Text.size_append]
  omega

theorem EndsBefore.trans (hs' : s'.Of query mark) (h : s.EndsBefore s') (h' : s'.EndsBefore s'') :
    s.EndsBefore s'' := by
  obtain ⟨place, hfound, hlt⟩ := h
  obtain ⟨place', hfound', hlt'⟩ := h'
  have hle := hs'.start_le_found hfound'
  exact ⟨place, hfound, by omega⟩

/-- A search that starts behind what another one found goes over other offsets. -/
theorem EndsBefore.disjoint_covered (h : s.EndsBefore s') :
    Disjoint (s.covered query) (s'.covered query) := by
  obtain ⟨place, hfound, hlt⟩ := h
  rw [covered, covered, hfound, Finset.disjoint_left]
  intro n hn hn'
  rw [Option.getD_some, Finset.mem_Icc] at hn
  rw [Finset.mem_Icc] at hn'
  omega

/-- Searches of which each ends before the next go over the offsets of the query once at most. -/
theorem sum_card_covered_le {log : List Sighting} (hlog : ∀ s ∈ log, s.Of query mark)
    (hends : log.Pairwise EndsBefore) : ∀ n ≤ Text.size query + 1, (∀ s ∈ log, n ≤ s.start) →
      n + (log.map fun s => (s.covered query).card).sum ≤ Text.size query + 1 := by
  induction log with
  | nil =>
    intro n hn _
    exact hn
  | cons s log ih =>
    intro n _ hstarts
    rw [List.forall_mem_cons] at hlog hstarts
    rw [List.pairwise_cons] at hends
    rw [List.map_cons, List.sum_cons, covered, Nat.card_Icc]
    cases hfound : s.found with
    | none =>
      -- No search ends before another if it found nothing.
      have hlast : log = [] := List.eq_nil_iff_forall_not_mem.mpr fun s' hs' => by
        obtain ⟨place, hplace, -⟩ := hends.1 s' hs'
        rw [hfound] at hplace
        simp at hplace
      have hle := hlog.1.start_le
      have hstart := hstarts.1
      rw [hlast, Option.getD_none, List.map_nil, List.sum_nil]
      omega
    | some place =>
      have hle := hlog.1.start_le_found hfound
      have hbound := hlog.1.found_le hfound
      have hstart := hstarts.1
      have hrest := ih hlog.2 hends.2 (place + 1) (by omega) fun s' hs' => by
        obtain ⟨place', hplace', hlt⟩ := hends.1 s' hs'
        rw [hfound, Option.some.injEq] at hplace'
        omega
      rw [Option.getD_some]
      omega

end Sighting

/-! ## The searches of a finder -/

namespace Finder

variable {query : Text} {f : Finder} {mark : Mark} {place : Nat} {s : Sighting}

theorem lookout?_eq_some {offset : Nat} {t : Text}
    (h : f.lookout? query mark place = some (offset, t)) :
    offset = place + Text.size opening ∧
      ∃ before, query = before ++ t ∧ Text.size before = offset := by
  simp only [lookout?, Option.bind_eq_bind, Option.bind_eq_some_iff] at h
  obtain ⟨⟨before, behind⟩, hsplit, ⟨word, rest⟩, hword, h⟩ := h
  obtain ⟨rfl, rfl⟩ := Text.eq_append_of_splitAt? hsplit
  obtain ⟨rfl, hfold⟩ := Text.eq_append_of_cutFolded? hword
  have hend : (Text.size before + Text.size word, rest) = (offset, t) := by
    cases mark with
    | closing => exact Option.some.inj h
    | newline =>
      simp only at h
      split at h
      · exact Option.some.inj h
      · simp at h
  obtain ⟨rfl, rfl⟩ := Prod.mk.inj hend
  exact ⟨by rw [Text.size_eq_of_fold_eq hfold], before ++ word, by rw [List.append_assoc],
    Text.size_append before word⟩

/-- A search starts right behind the opening, at a place that the last sighting does not answer
for. -/
theorem search?_eq_some (h : f.search? query mark place = some s) :
    s.start = place + Text.size opening ∧ s.Of query mark.text ∧
      ∀ last ∈ f.sighting mark, last.answers s.start = false := by
  rw [search?, Option.bind_eq_bind, Option.bind_eq_some_iff] at h
  obtain ⟨⟨offset, t⟩, hlookout, h⟩ := h
  obtain ⟨hoffset, before, hquery, hsize⟩ := lookout?_eq_some hlookout
  simp only [Sighting.search?] at h
  split at h
  · simp at h
  · next hanswers =>
    rw [Bool.not_eq_true, Option.any_eq_false] at hanswers
    obtain rfl := Option.some.inj h
    refine ⟨hoffset, ⟨before, t, hquery, hsize, rfl⟩, fun last hlast => ?_⟩
    exact hanswers last hlast

/-- What a finder keeps of a mark is its last search for it. -/
theorem sighting_ask (query : Text) (f : Finder) (mark : Mark) (place : Nat) :
    (f.ask query place).2.sighting mark = (f.search? query mark place).or (f.sighting mark) := by
  rw [ask, search?, lookout?]
  cases Text.splitAt? place query with
  | none => cases mark <;> rfl
  | some parts =>
    obtain ⟨before, t⟩ := parts
    simp only [Option.bind_eq_bind, Option.bind_some, length?]
    cases Text.cutFolded? opening t with
    | none => cases mark <;> rfl
    | some found =>
      obtain ⟨word, rest⟩ := found
      simp only [Option.bind_some]
      have hclose := Sighting.some_look f.closing SubQuery.closing (place + Text.size word) rest
      generalize Sighting.look f.closing SubQuery.closing (place + Text.size word) rest = close
        at hclose ⊢
      cases mark with
      | closing =>
        refine Eq.trans ?_ hclose
        cases close.found with
        | none => rfl
        | some stop =>
          simp only
          split <;> rfl
      | newline =>
        cases close.found with
        | none => rfl
        | some stop =>
          simp only [Option.isSome_some, ↓reduceIte, Option.bind_some]
          rw [sighting, sighting, ← Sighting.some_look, Mark.text]
          split <;> rfl

/-- All searches are searches in the query. -/
theorem of_mem_searches : ∀ {f : Finder} (places : List Nat),
    ∀ s ∈ f.searches query mark places, s.Of query mark.text
  | _, [], s, hs => by simp [searches] at hs
  | f, place :: places, s, hs => by
    rw [searches, List.mem_append, Option.mem_toList] at hs
    rcases hs with hs | hs
    · exact (search?_eq_some hs).2.1
    · exact of_mem_searches places s hs

/-- Along places that do not go back, the last sighting and then each search end before the next
search starts. -/
theorem pairwise_searches : ∀ {f : Finder} {places : List Nat}, places.Pairwise (· ≤ ·) →
    (∀ s ∈ f.sighting mark, ∀ place ∈ places, s.start ≤ place + Text.size opening) →
      ((f.sighting mark).toList ++ f.searches query mark places).Pairwise Sighting.EndsBefore
  | f, [], _, _ => by
    rw [searches, List.append_nil]
    cases f.sighting mark <;> simp
  | f, place :: places, hplaces, hlast => by
    obtain ⟨hfirst, hplaces⟩ := List.pairwise_cons.mp hplaces
    have hkept := sighting_ask query f mark place
    have hrest := pairwise_searches (f := (f.ask query place).2) hplaces
    rw [searches]
    cases hsearch : f.search? query mark place with
    | none =>
      rw [hsearch, Option.none_or] at hkept
      rw [hkept] at hrest
      exact hrest fun s hs place' hplace' => hlast s hs place' (List.mem_cons_of_mem _ hplace')
    | some s' =>
      obtain ⟨hstart, hof, hanswers⟩ := search?_eq_some hsearch
      rw [hsearch, Option.some_or] at hkept
      rw [hkept] at hrest
      -- The new search is the last sighting from here on.
      have hafter : (s' :: searches query mark (f.ask query place).2 places).Pairwise
          Sighting.EndsBefore := hrest fun s hs place' hplace' => by
        obtain rfl := Option.some.inj hs
        have := hfirst place' hplace'
        omega
      cases hsighting : f.sighting mark with
      | none => exact hafter
      | some s =>
        have hle := hlast s hsighting place List.mem_cons_self
        rw [← hstart] at hle
        have hends : s.EndsBefore s' :=
          Sighting.exists_of_answers_eq_false hle (hanswers s hsighting)
        refine List.pairwise_cons.mpr ⟨fun s'' hs'' => ?_, hafter⟩
        rcases List.mem_cons.mp hs'' with rfl | hs''
        · exact hends
        · exact hends.trans hof ((List.pairwise_cons.mp hafter).1 s'' hs'')

/-- A finder searches exactly when what it keeps of the mark changes. -/
theorem search?_eq_ite (query : Text) (f : Finder) (mark : Mark) (place : Nat) :
    f.search? query mark place =
      if (f.ask query place).2.sighting mark = f.sighting mark then none
      else (f.ask query place).2.sighting mark := by
  rw [sighting_ask]
  cases hsearch : f.search? query mark place with
  | none => rw [Option.none_or, if_pos rfl]
  | some s =>
    obtain ⟨-, hof, hanswers⟩ := search?_eq_some hsearch
    rw [Option.some_or, if_neg]
    intro hsame
    -- A search answers for the offset where it starts, as the last sighting did not.
    have hself := hanswers s hsame.symm
    obtain ⟨place, hfound, hlt⟩ := Sighting.exists_of_answers_eq_false (Nat.le_refl _) hself
    exact Nat.not_lt.mpr (hof.start_le_found hfound) hlt

end Finder

/-! ## The places of a scan -/

end SubQuery

namespace Scanner

variable {query : Text} {s after : Scanner} {l : Lexeme}

/-- A step asks the finder about the place where its lexeme starts. -/
theorem finder_of_next? (hs : s.Within query) (h : s.next? = some (l, after)) :
    after.finder = (s.finder.ask query l.start).2 := by
  obtain ⟨before, hquery, hsize⟩ := hs.place
  have hstart := (split_of_next? h).2.2.1
  have hblanks := Text.blanks_append_skipBlanks s.rest
  rw [← hblanks, ← List.append_assoc] at hquery
  have hsplit := Text.splitAt?_size_append (before ++ Text.blanks s.rest) (Text.skipBlanks s.rest)
  rw [← hquery, Text.size_append, hsize, ← hstart] at hsplit
  rw [SubQuery.Finder.ask, hsplit, hstart]
  unfold next? at h
  cases hskip : Text.skipBlanks s.rest with
  | nil => simp [hskip] at h
  | cons c rest =>
    simp only [hskip, Option.some.injEq, Prod.mk.injEq] at h
    rw [← h.2]
    rfl

/-- A run asks the finder about the places where its lexemes start, which go on from one to the
next. -/
theorem finder_take : ∀ (n : Nat) {s : Scanner}, s.Within query →
    (s.take n).2.finder = s.finder.afterAll query ((s.take n).1.map Lexeme.start) ∧
      (s.offset :: (s.take n).1.map Lexeme.start).Pairwise (· ≤ ·)
  | 0, _, _ => ⟨rfl, List.pairwise_singleton _ _⟩
  | n + 1, s, hs => by
    rw [take]
    cases hnext : s.next? with
    | none => exact ⟨rfl, List.pairwise_singleton _ _⟩
    | some found =>
      obtain ⟨l, after⟩ := found
      obtain ⟨-, -, hstart, hoffset, -⟩ := split_of_next? hnext
      obtain ⟨hfinder, hplaces⟩ := finder_take n (hs.next? hnext)
      rw [finder_of_next? hs hnext] at hfinder
      refine ⟨hfinder, ?_⟩
      obtain ⟨hbehind, hplaces⟩ := List.pairwise_cons.mp hplaces
      have hlater : ∀ place ∈ (after.take n).1.map Lexeme.start, l.start ≤ place :=
        fun place hplace => by
          have := hbehind place hplace
          omega
      refine List.pairwise_cons.mpr ⟨?_, List.pairwise_cons.mpr ⟨hlater, hplaces⟩⟩
      intro place hplace
      rcases List.mem_cons.mp hplace with rfl | hplace
      · omega
      · have := hlater place hplace
        omega

end Scanner

/-! ## The result -/

namespace SubQuery

/-- Searches for a mark that go over no part of the query twice. -/
structure SearchedOnce (query mark : Text) (log : List Sighting) : Prop where
  /-- All are searches for the mark in the query. -/
  search : ∀ s ∈ log, s.Of query mark
  /-- No two of them go over the same offset. -/
  disjoint : log.Pairwise fun s s' => Disjoint (s.covered query) (s'.covered query)
  /-- A search that finds nothing is the last one. -/
  final : ∀ front s back, log = front ++ s :: back → s.found = none → back = []
  /-- Together they go over each offset once at most, counting the end of the query as one. -/
  sum_card_le : (log.map fun s => (s.covered query).card).sum ≤ Text.size query + 1

theorem SearchedOnce.of_pairwise {query mark : Text} {log : List Sighting}
    (hlog : ∀ s ∈ log, s.Of query mark) (hends : log.Pairwise Sighting.EndsBefore) :
    SearchedOnce query mark log where
  search := hlog
  disjoint := hends.imp Sighting.EndsBefore.disjoint_covered
  final := by
    rintro front s back rfl hfound
    refine List.eq_nil_iff_forall_not_mem.mpr fun s' hs' => ?_
    have hback := (List.pairwise_append.mp hends).2.1
    obtain ⟨place, hplace, -⟩ := (List.pairwise_cons.mp hback).1 s' hs'
    rw [hfound] at hplace
    simp at hplace
  sum_card_le := by
    have h := Sighting.sum_card_covered_le hlog hends 0 (Nat.zero_le _) fun _ _ => Nat.zero_le _
    rwa [Nat.zero_add] at h

theorem searchedOnce_searches {query : Text} (mark : Mark) {places : List Nat}
    (hplaces : places.Pairwise (· ≤ ·)) :
    SearchedOnce query mark.text (({} : Finder).searches query mark places) := by
  have hnew : ({} : Finder).sighting mark = none := by cases mark <;> rfl
  have hends : ((({} : Finder).sighting mark).toList
      ++ ({} : Finder).searches query mark places).Pairwise Sighting.EndsBefore :=
    Finder.pairwise_searches hplaces (by simp [hnew])
  rw [hnew] at hends
  exact .of_pairwise (Finder.of_mem_searches places) hends

/-- A finder that is asked about places that do not go back searches no part of the query twice for
a mark, and does not search for it again after it found none. A search is what changes the finder's
memory of the mark. In particular this holds for a scan, which asks its finder about the places
where its lexemes start. -/
theorem searches_cover_once (query : Text) (mark : Mark) :
    (∀ places : List Nat, places.Pairwise (· ≤ ·) →
      SearchedOnce query mark.text (({} : Finder).searches query mark places)) ∧
    (∀ (f : Finder) (place : Nat), f.search? query mark place =
      if (f.ask query place).2.sighting mark = f.sighting mark then none
      else (f.ask query place).2.sighting mark) ∧
    ∀ (config : Config) (n : Nat),
      let run := (Scanner.start config query).take n
      let places := run.1.map Lexeme.start
      run.2.finder = ({} : Finder).afterAll query places ∧
        SearchedOnce query mark.text (({} : Finder).searches query mark places) := by
  refine ⟨fun _ => searchedOnce_searches mark, fun f => f.search?_eq_ite query mark,
    fun config n => ?_⟩
  obtain ⟨hfinder, hplaces⟩ := Scanner.finder_take n (Scanner.within_start config query)
  exact ⟨hfinder, searchedOnce_searches mark (List.pairwise_cons.mp hplaces).2⟩

/-- The newline behind the first opening is no longer any use behind the second one. -/
theorem searches_cover_once_newlines :
    ({} : Finder).searches "query(\"a\nquery(\"b\")".toList .newline [0, 9]
        = [⟨7, some 8⟩, ⟨16, none⟩] ∧
      SearchedOnce "query(\"a\nquery(\"b\")".toList ['\n'] [⟨7, some 8⟩, ⟨16, none⟩] := by
  have hlog : ({} : Finder).searches "query(\"a\nquery(\"b\")".toList .newline [0, 9]
      = [⟨7, some 8⟩, ⟨16, none⟩] := by decide
  refine ⟨hlog, ?_⟩
  rw [← hlog]
  exact (searches_cover_once _ .newline).1 [0, 9] (by decide)

/-- Of a row of openings, only the first looks for a closing mark. -/
example : ({} : Finder).searches "query(\"query(\"query(\"".toList .closing [0, 7, 7, 14]
    = [⟨7, none⟩] := by decide

end SubQuery
end FilterQuery
