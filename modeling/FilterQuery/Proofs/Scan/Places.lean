import FilterQuery.Proofs.Scan.Memory
import FilterQuery.Proofs.Text.Bytes

/-!
# A finder asked about one place after the other

A finder may be asked about the places of a query in any order, also about one twice or about one
before another. Each answer is the one that a new finder gives, and what that is can be said of the
bytes of the query alone (`finder_answers_afresh`): where the opening, the closing marks and the
newlines are.
-/

namespace FilterQuery.SubQuery

open Text (StandsAt)

/-! ## The first place of a mark -/

section FirstPlace

variable {mark query front t : Text} {offset place : Nat}

theorem firstOccurrence?_eq_some_iff (hmark : mark ≠ []) :
    ∀ {t : Text} {offset place : Nat}, firstOccurrence? mark offset t = some place ↔
      ∃ k, place = offset + k ∧ StandsAt mark t k ∧ ∀ n < k, ¬ StandsAt mark t n
  | [], offset, place => by
    refine iff_of_false (by simp [firstOccurrence?]) ?_
    rintro ⟨k, -, hk, -⟩
    exact Text.not_standsAt_nil hmark hk
  | c :: t, offset, place => by
    by_cases hfront : mark <+: c :: t
    · have hzero := Text.standsAt_zero_iff.mpr hfront
      rw [firstOccurrence?_of_starts hfront, Option.some.injEq]
      constructor
      · rintro rfl
        exact ⟨0, rfl, hzero, by simp⟩
      · rintro ⟨k, rfl, -, hfirst⟩
        have hk : k = 0 := by
          by_contra hk
          exact hfirst 0 (Nat.pos_of_ne_zero hk) hzero
        rw [hk, Nat.add_zero]
    · have hcons : ∀ {n}, StandsAt mark (c :: t) n ↔ _ :=
        Text.standsAt_cons_iff_of_not_prefix hfront
      rw [firstOccurrence?_of_not_starts hfront, firstOccurrence?_eq_some_iff hmark]
      constructor
      · rintro ⟨k, rfl, hk, hfirst⟩
        refine ⟨c.utf8Size + k, Nat.add_assoc .., hcons.mpr ⟨Nat.le_add_right .., ?_⟩, ?_⟩
        · rwa [Nat.add_sub_cancel_left]
        · intro n hn hstands
          obtain ⟨hle, hstands⟩ := hcons.mp hstands
          exact hfirst (n - c.utf8Size) (by omega) hstands
      · rintro ⟨k, rfl, hk, hfirst⟩
        obtain ⟨hle, hk⟩ := hcons.mp hk
        refine ⟨k - c.utf8Size, by omega, hk, fun n hn hstands => ?_⟩
        refine hfirst (c.utf8Size + n) (by omega) (hcons.mpr ⟨Nat.le_add_right .., ?_⟩)
        rwa [Nat.add_sub_cancel_left]

/-- Where a mark stands, it occurs for the first time there or before. -/
theorem exists_firstOccurrence?_of_standsAt (hmark : mark ≠ []) :
    ∀ {t : Text} {n : Nat} (offset : Nat), StandsAt mark t n →
      ∃ k ≤ n, firstOccurrence? mark offset t = some (offset + k)
  | [], _, _, h => absurd h (Text.not_standsAt_nil hmark)
  | c :: t, n, offset, h => by
    by_cases hfront : mark <+: c :: t
    · exact ⟨0, Nat.zero_le n, firstOccurrence?_of_starts hfront⟩
    · obtain ⟨hle, h⟩ := (Text.standsAt_cons_iff_of_not_prefix hfront).mp h
      obtain ⟨k, hk, hfound⟩ :=
        exists_firstOccurrence?_of_standsAt hmark (offset + c.utf8Size) h
      refine ⟨c.utf8Size + k, by omega, ?_⟩
      rw [firstOccurrence?_of_not_starts hfront, hfound, Nat.add_assoc]

/-- The first place from an offset on at which a mark stands. -/
structure IsFirst (mark query : Text) (start place : Nat) : Prop where
  le : start ≤ place
  stands : StandsAt mark query place
  first : ∀ n, start ≤ n → n < place → ¬ StandsAt mark query n

theorem firstOccurrence?_eq_some_iff_isFirst (hmark : mark ≠ []) :
    firstOccurrence? mark (Text.size front) t = some place ↔
      IsFirst mark (front ++ t) (Text.size front) place := by
  rw [firstOccurrence?_eq_some_iff hmark]
  constructor
  · rintro ⟨k, rfl, hk, hfirst⟩
    refine ⟨Nat.le_add_right .., Text.standsAt_append_iff.mpr hk, fun n hle hn => ?_⟩
    obtain ⟨m, rfl⟩ := Nat.exists_eq_add_of_le hle
    rw [Text.standsAt_append_iff]
    exact hfirst m (by omega)
  · rintro ⟨hle, hstands, hfirst⟩
    obtain ⟨k, rfl⟩ := Nat.exists_eq_add_of_le hle
    refine ⟨k, rfl, Text.standsAt_append_iff.mp hstands, fun n hn hn' => ?_⟩
    exact hfirst (Text.size front + n) (Nat.le_add_right ..) (by omega)
      (Text.standsAt_append_iff.mpr hn')

/-- No mark occurs before an offset exactly if none stands before it. -/
theorem any_firstOccurrence?_eq_false_iff (hmark : mark ≠ []) {stop : Nat} :
    (firstOccurrence? mark (Text.size front) t).any (· < stop) = false ↔
      ∀ n, Text.size front ≤ n → n < stop → ¬ StandsAt mark (front ++ t) n := by
  rw [Option.any_eq_false]
  constructor
  · intro h n hle hn hstands
    obtain ⟨m, rfl⟩ := Nat.exists_eq_add_of_le hle
    obtain ⟨k, hk, hfound⟩ := exists_firstOccurrence?_of_standsAt hmark (Text.size front)
      (Text.standsAt_append_iff.mp hstands)
    have hno := of_decide_eq_false (h _ hfound)
    omega
  · intro h place hplace
    have hfirst := (firstOccurrence?_eq_some_iff_isFirst hmark).mp hplace
    exact decide_eq_false fun hlt => h place hfirst.le hlt hfirst.stands

end FirstPlace

/-! ## The answer of a new finder -/

/-- The answer of a finder about a place of a query, and what has been seen after it. Inside a
character and behind the end of the query nothing starts. -/
def Finder.ask (query : Text) (f : Finder) (place : Nat) : Option Nat × Finder :=
  match Text.splitAt? place query with
  | some (_, t) => f.length? place t
  | none => (none, f)

/-- The answers of a finder about some places, one after the other. -/
def Finder.askAll (query : Text) : Finder → List Nat → List (Option Nat)
  | _, [] => []
  | f, place :: places =>
    let (answer, f) := f.ask query place
    answer :: askAll query f places

/-- A full-text query by its bytes: the opening stands at the place in some case of its letters, the
closing mark stands at `stop` for the first time behind the opening, and there is no newline in
between. -/
structure Encloses (query : Text) (place stop : Nat) : Prop where
  opening : Text.bytes opening <+: ((Text.bytes query).map UInt8.toAsciiLower).drop place
  le : place + Text.size SubQuery.opening ≤ stop
  closing : Text.bytes closing <+: (Text.bytes query).drop stop
  first : ∀ n, place + Text.size SubQuery.opening ≤ n → n < stop →
    ¬ Text.bytes SubQuery.closing <+: (Text.bytes query).drop n
  newline : ∀ n, place + Text.size SubQuery.opening ≤ n → n < stop →
    ¬ Text.bytes ['\n'] <+: (Text.bytes query).drop n

variable {query : Text} {place stop : Nat}

/-- The opening stands where its bytes do, without regard to the case of letters. -/
theorem bytes_opening_prefix_drop_iff :
    Text.bytes opening <+: ((Text.bytes query).map UInt8.toAsciiLower).drop place ↔
      ∃ before word rest, query = before ++ (word ++ rest) ∧ Text.size before = place ∧
        Text.fold word = Text.fold opening := by
  have hopening : Text.fold opening = opening := by decide
  rw [Text.map_toAsciiLower_bytes, opening_eq, Text.bytes_prefix_drop_iff (by decide),
    ← opening_eq, hopening]
  constructor
  · rintro ⟨before, rest, heq, rfl⟩
    rw [List.append_assoc] at heq
    obtain ⟨before', tail, rfl, rfl, htail⟩ := List.map_eq_append_iff.mp heq
    obtain ⟨word, rest', rfl, hword, -⟩ := List.map_eq_append_iff.mp htail
    exact ⟨before', word, rest', rfl, (Text.size_fold before').symm, hword⟩
  · rintro ⟨before, word, rest, rfl, rfl, hword⟩
    refine ⟨Text.fold before, Text.fold rest, ?_, Text.size_fold before⟩
    rw [Text.fold_append, Text.fold_append, hword, List.append_assoc]

/-- What encloses a full-text query, said of the characters. -/
theorem encloses_iff : Encloses query place stop ↔
    ∃ before word rest, query = before ++ (word ++ rest) ∧ Text.size before = place ∧
      Text.fold word = Text.fold opening ∧
      firstOccurrence? closing (place + Text.size word) rest = some stop ∧
      (firstOccurrence? ['\n'] (place + Text.size word) rest).any (· < stop) = false := by
  have hclosing : ∀ n, Text.bytes closing <+: (Text.bytes query).drop n ↔
      StandsAt closing query n := fun n => Text.bytes_prefix_drop_iff (by decide)
  have hnewline : ∀ n, Text.bytes ['\n'] <+: (Text.bytes query).drop n ↔
      StandsAt ['\n'] query n := fun n => Text.bytes_prefix_drop_iff (by decide)
  -- Behind the opening both marks are looked for in the same text.
  have hbehind : ∀ before word rest : Text, query = before ++ (word ++ rest) →
      Text.size before = place → Text.fold word = Text.fold opening →
      (firstOccurrence? closing (place + Text.size word) rest = some stop ↔
        IsFirst closing query (place + Text.size opening) stop) ∧
      ((firstOccurrence? ['\n'] (place + Text.size word) rest).any (· < stop) = false ↔
        ∀ n, place + Text.size opening ≤ n → n < stop → ¬ StandsAt ['\n'] query n) := by
    rintro before word rest rfl rfl hword
    rw [← Text.size_eq_of_fold_eq hword, ← Text.size_append, ← List.append_assoc]
    exact ⟨firstOccurrence?_eq_some_iff_isFirst (by decide),
      any_firstOccurrence?_eq_false_iff (by decide)⟩
  constructor
  · rintro ⟨hopening, hle, hstands, hfirst, hline⟩
    obtain ⟨before, word, rest, hquery, hsize, hword⟩ := bytes_opening_prefix_drop_iff.mp hopening
    obtain ⟨hclose, hno⟩ := hbehind before word rest hquery hsize hword
    simp only [hclosing, hnewline] at hstands hfirst hline
    exact ⟨before, word, rest, hquery, hsize, hword, hclose.mpr ⟨hle, hstands, hfirst⟩,
      hno.mpr hline⟩
  · rintro ⟨before, word, rest, hquery, hsize, hword, hfound, hline⟩
    obtain ⟨hclose, hno⟩ := hbehind before word rest hquery hsize hword
    obtain ⟨hle, hstands, hfirst⟩ := hclose.mp hfound
    refine ⟨bytes_opening_prefix_drop_iff.mpr ⟨before, word, rest, hquery, hsize, hword⟩, hle,
      ?_, ?_, ?_⟩
    · exact (hclosing stop).mpr hstands
    · simpa only [hclosing] using hfirst
    · simpa only [hnewline] using hno.mp hline

namespace Finder

/-- A new finder looks for both marks behind the opening. -/
theorem length?_new {offset : Nat} {t word rest : Text}
    (h : Text.cutFolded? opening t = some (word, rest)) :
    (({} : Finder).length? offset t).1 =
      match firstOccurrence? SubQuery.closing (offset + Text.size word) rest with
      | none => none
      | some stop =>
        if (firstOccurrence? ['\n'] (offset + Text.size word) rest).any (· < stop) then none
        else some (stop + Text.size SubQuery.closing - offset) := by
  rw [length?, h]
  simp only [Sighting.look, Sighting.fresh]
  cases firstOccurrence? SubQuery.closing (offset + Text.size word) rest with
  | none => rfl
  | some stop => exact apply_ite Prod.fst _ _ _

/-- A new finder finds what the opening and the marks behind it enclose. -/
theorem ask_new_eq_some_iff {size : Nat} : (({} : Finder).ask query place).1 = some size ↔
    ∃ stop, Encloses query place stop ∧ size = stop + Text.size SubQuery.closing - place := by
  simp only [encloses_iff]
  constructor
  · intro h
    rw [ask] at h
    split at h
    · next before t hsplit =>
      obtain ⟨rfl, rfl⟩ := Text.eq_append_of_splitAt? hsplit
      cases hword : Text.cutFolded? opening t with
      | none => simp [length?, hword] at h
      | some found =>
        obtain ⟨word, rest⟩ := found
        obtain ⟨rfl, hfold⟩ := Text.eq_append_of_cutFolded? hword
        rw [length?_new hword] at h
        split at h
        · simp at h
        · next stop hstop =>
          split at h
          · simp at h
          · next hline =>
            rw [Bool.not_eq_true] at hline
            exact ⟨stop, ⟨before, word, rest, rfl, rfl, hfold, hstop, hline⟩,
              (Option.some.inj h).symm⟩
    · simp at h
  · rintro ⟨stop, ⟨before, word, rest, rfl, rfl, hfold, hstop, hline⟩, rfl⟩
    rw [ask, Text.splitAt?_size_append]
    simp only [length?_new (Text.cutFolded?_of_fold_eq rest hfold), hstop, hline]
    rfl

/-! ## The answers of a finder in use -/

variable {f : Finder}

theorem Of.ask (hf : f.Of query) (place : Nat) : (f.ask query place).2.Of query := by
  rw [Finder.ask]
  split
  · next before t hsplit =>
    obtain ⟨hquery, rfl⟩ := Text.eq_append_of_splitAt? hsplit
    exact hf.length? hquery
  · exact hf

/-- What has been seen of the query does not change the answer about a place. -/
theorem ask_eq (hf : f.Of query) (place : Nat) :
    (f.ask query place).1 = (({} : Finder).ask query place).1 := by
  rw [ask, ask]
  split
  · next before t hsplit =>
    obtain ⟨hquery, rfl⟩ := Text.eq_append_of_splitAt? hsplit
    rw [length?_eq hf hquery, length?_eq (of_empty query) hquery]
  · rfl

theorem askAll_eq : ∀ {f : Finder} (places : List Nat), f.Of query →
    f.askAll query places = places.map fun place => (({} : Finder).ask query place).1
  | _, [], _ => rfl
  | f, place :: places, hf => by
    rw [List.map_cons, ← ask_eq hf place, ← askAll_eq places (hf.ask place)]
    rfl

end Finder

/-- A finder that is asked about places of a query in any order answers as a new finder does. Both
find a full-text query exactly where its opening, its closing mark and the lack of a newline between
them are seen in the bytes, and its size reaches to the end of the closing mark. -/
theorem finder_answers_afresh (query : Text) (places : List Nat) :
    ({} : Finder).askAll query places
      = places.map (fun place => (({} : Finder).ask query place).1) ∧
    ∀ place size, (({} : Finder).ask query place).1 = some size ↔
      ∃ stop, Encloses query place stop ∧ size = stop + 2 - place :=
  ⟨Finder.askAll_eq places (Finder.of_empty query), fun _ _ => Finder.ask_new_eq_some_iff⟩

/-- Places behind a newline, before it, and once more behind it. -/
example : ({} : Finder).askAll "query(\"é\nquery(\"b\") query(\"c".toList [10, 0, 10, 8, 21, 99]
    = [some 10, none, some 10, none, none, none] := by decide

end FilterQuery.SubQuery
