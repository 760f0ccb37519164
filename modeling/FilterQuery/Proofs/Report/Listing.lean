import FilterQuery.Proofs.Text.Escape
import FilterQuery.Proofs.Text.Offset
import FilterQuery.Report.Listing
import FilterQuery.Scanner

/-!
# A listing tells the tokens

The characters of a token stand in a listing as they are. They may hold spaces, line breaks and
whatever else looks like columns or further entries. The listing can be read back all the same, from
left to right:

* the column of the kind has a fixed width, which no kind exceeds (`padded_spelling_injective`);
* the span has no spaces in it and ends where the first one stands (`padded_append_inj`);
* the span says how many bytes the characters take (`Token.Fits`);
* the value, if there is one, stands between quote marks that cannot be taken for a part of it.

So an entry and what follows it are told apart (`entry_append_inj`), and from this, entry by entry,
two listings that are the same are listings of the same tokens.
-/

namespace FilterQuery

/-! ## The columns -/

/-- A span is written without spaces. -/
theorem Span.space_not_mem_display (s : Span) : ' ' ∉ s.display := by
  have hdecimal := Text.not_mem_decimal (c := ' ') rfl
  simp [Span.display, hdecimal]

theorem Span.display_injective {s t : Span} (h : s.display = t.display) : s = t := by
  have hpoint := Text.not_mem_decimal (c := '.') rfl
  rw [Span.display, Span.display, List.append_assoc, List.append_assoc] at h
  obtain ⟨hstart, hrest⟩ :=
    Text.append_cons_inj_of_not_mem (hpoint s.start) (hpoint t.start) h
  have hstop := (List.cons.inj hrest).2
  obtain ⟨start, stop⟩ := s
  rw [Span.mk.injEq]
  exact ⟨Text.decimal_injective hstart, Text.decimal_injective hstop⟩

namespace Report

/-- The column of the kind is filled by no kind, and it tells the kinds apart. -/
theorem padded_spelling_injective {k l : Kind}
    (h : padRight 16 k.spelling = padRight 16 l.spelling) : k = l := by
  have hfind : ∀ k : Kind,
      Kind.all.find? (fun l => padRight 16 l.spelling = padRight 16 k.spelling) = some k := by
    intro k
    cases k <;> decide
  have hk := hfind k
  rw [h, hfind l] at hk
  exact (Option.some.inj hk).symm

theorem length_padded_spelling (k : Kind) : (padRight 16 k.spelling).length = 16 := by
  cases k <;> decide

/-- A column without spaces ends at the first space, which is the filling or comes behind it. -/
theorem padded_append_inj {width : Nat} {x y u v : Text} (hx : ' ' ∉ x) (hy : ' ' ∉ y)
    (h : padRight width x ++ ' ' :: u = padRight width y ++ ' ' :: v) : x = y ∧ u = v := by
  have hfill : ∀ z w : Text, padRight width z ++ ' ' :: w
      = z ++ ' ' :: (List.replicate (width - z.length) ' ' ++ w) := by
    intro z w
    rw [padRight, List.append_assoc, List.append_cons, ← List.replicate_succ',
      List.replicate_succ, List.cons_append]
  rw [hfill, hfill] at h
  obtain ⟨rfl, hrest⟩ := Text.append_cons_inj_of_not_mem hx hy h
  exact ⟨rfl, List.append_cancel_left hrest⟩

/-! ## Entries -/

/-- The value of a token in a listing: nothing if it is just the characters. -/
theorem value_append_inj {raw x y u v : Text}
    (h : (if x = raw then [] else " => ".toList ++ Text.quoted x) ++ '\n' :: u
      = (if y = raw then [] else " => ".toList ++ Text.quoted y) ++ '\n' :: v) :
    x = y ∧ u = v := by
  split at h <;> split at h
  · next hx hy => exact ⟨hx.trans hy.symm, (List.cons.inj h).2⟩
  · exact absurd (List.cons.inj h).1 (by decide)
  · exact absurd (List.cons.inj h).1 (by decide)
  · rw [List.append_assoc, List.append_assoc] at h
    obtain ⟨rfl, hrest⟩ := Text.quoted_append_inj (List.append_cancel_left h)
    exact ⟨rfl, (List.cons.inj hrest).2⟩

end Report

/-- A token whose span has as many bytes as its characters. -/
def Token.Fits (t : Token) : Prop := t.span.start + Text.size t.raw = t.span.stop

theorem Token.fits_of_mem {config : Config} {query : Text} {t : Token}
    (h : t ∈ tokenize config query) : t.Fits := by
  obtain ⟨l, -, rfl⟩ := List.mem_map.mp h
  rfl

namespace Report

/-- An entry from left to right, with what follows it. -/
theorem entry_append (t : Token) (x : Text) :
    entry t ++ x = padRight 16 t.kind.spelling ++ ' ' :: (padRight 9 t.span.display ++ ' ' ::
      (t.raw ++ ((if t.value = t.raw then [] else " => ".toList ++ Text.quoted t.value)
        ++ '\n' :: x))) := by
  simp only [entry, List.append_assoc, List.cons_append, List.nil_append]

/-- An entry tells the token and what follows it. -/
theorem entry_append_inj {t u : Token} {x y : Text} (ht : t.Fits) (hu : u.Fits)
    (h : entry t ++ x = entry u ++ y) : t = u ∧ x = y := by
  obtain ⟨kind, value, raw, span⟩ := t
  obtain ⟨kind', value', raw', span'⟩ := u
  rw [entry_append, entry_append] at h
  obtain ⟨hkind, hrest⟩ := List.append_inj h
    ((length_padded_spelling kind).trans (length_padded_spelling kind').symm)
  obtain rfl := padded_spelling_injective hkind
  obtain ⟨hspan, hrest⟩ := padded_append_inj span.space_not_mem_display
    span'.space_not_mem_display (List.cons.inj hrest).2
  obtain rfl := Span.display_injective hspan
  -- The characters may be anything, so only the span says where they end.
  have hsize : Text.size raw = Text.size raw' := by
    have hstop : span.start + Text.size raw = span.stop := ht
    have hstop' : span.start + Text.size raw' = span.stop := hu
    omega
  obtain ⟨rfl, hrest⟩ := Text.append_inj_of_size_eq hrest hsize
  obtain ⟨rfl, rfl⟩ := value_append_inj hrest
  exact ⟨rfl, rfl⟩

theorem entry_ne_nil (t : Token) : entry t ≠ [] := by simp [entry]

/-- Tokens whose spans fit them are told by their listing. -/
theorem eq_of_listing_eq : ∀ {ts us : List Token}, (∀ t ∈ ts, t.Fits) → (∀ u ∈ us, u.Fits) →
    listing ts = listing us → ts = us
  | [], [], _, _, _ => rfl
  | [], u :: us, _, _, h => by
    rw [listing, listing, List.flatMap_cons] at h
    exact absurd (List.append_eq_nil_iff.mp h.symm).1 (entry_ne_nil u)
  | t :: ts, [], _, _, h => by
    rw [listing, listing, List.flatMap_cons] at h
    exact absurd (List.append_eq_nil_iff.mp h).1 (entry_ne_nil t)
  | t :: ts, u :: us, hts, hus, h => by
    rw [List.forall_mem_cons] at hts hus
    rw [listing, listing, List.flatMap_cons, List.flatMap_cons] at h
    obtain ⟨rfl, hrest⟩ := entry_append_inj hts.1 hus.1 h
    rw [eq_of_listing_eq hts.2 hus.2 hrest]

end Report

/-- Tokens of one query and tokens of another are listed alike only if they are the same tokens. -/
theorem listing_tells_tokens {config config' : Config} {query query' : Text}
    {ts us : List Token} (hts : ts ⊆ tokenize config query) (hus : us ⊆ tokenize config' query') :
    Report.listing ts = Report.listing us ↔ ts = us := by
  constructor
  · exact Report.eq_of_listing_eq (fun t ht => Token.fits_of_mem (hts ht))
      fun u hu => Token.fits_of_mem (hus hu)
  · exact congrArg Report.listing

/-- A literal with a line break in it, at the start of two queries. -/
theorem listing_tells_tokens_of_line_break :
    tokenize {} "'=\n='".toList ⊆ tokenize {} "'=\n='".toList ∧
    (tokenize { numeric := .compat } "'=\n=' 1.2.3".toList).take 1
      ⊆ tokenize { numeric := .compat } "'=\n=' 1.2.3".toList ∧
    (Report.listing (tokenize {} "'=\n='".toList)
        = Report.listing ((tokenize { numeric := .compat } "'=\n=' 1.2.3".toList).take 1) ↔
      tokenize {} "'=\n='".toList
        = (tokenize { numeric := .compat } "'=\n=' 1.2.3".toList).take 1) := by
  have hts : tokenize {} "'=\n='".toList ⊆ tokenize {} "'=\n='".toList := by decide
  have hus : (tokenize { numeric := .compat } "'=\n=' 1.2.3".toList).take 1
      ⊆ tokenize { numeric := .compat } "'=\n=' 1.2.3".toList := by decide
  exact ⟨hts, hus, listing_tells_tokens hts hus⟩

end FilterQuery
