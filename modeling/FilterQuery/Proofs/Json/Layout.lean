import FilterQuery.Json.Layout
import FilterQuery.Proofs.Json.Scalars
import Mathlib.Data.List.Forall2

/-!
# Values laid out and read back

A text shows a value if a reader who waits for a value anywhere in a larger text has exactly this
value after the text, and goes on with what follows. So shown values can be put together: a
bracketed row of texts that show values shows the array of these values, and likewise for objects.
The white space of the layout makes no difference anywhere, since it never stands inside a symbol.

## Contents

* `Builder.read`: the effect of a text on what has been read before it
* `Row.read_block`: the parts between two brackets are read one after the other
* `Shows`: the texts that show a value
* `shows_quote`, `shows_decimal`, `shows_array`, `shows_object`: what the writers write
* `Shows.ofText?`: reading a whole text
-/

namespace FilterQuery.Json

namespace Symbol

theorem ofText?_of_next?_eq_none {t : Text} (hne : t.dropWhile isSpace ≠ [])
    (h : next? t = none) : ofText? t = none := by
  rw [ofText?, if_neg hne]
  split
  · rfl
  · next heq => simp [h] at heq

/-- White space in front of a text adds no symbol. -/
theorem ofText?_space {c : Char} (h : isSpace c = true) (t : Text) :
    ofText? (c :: t) = ofText? t := by
  have hdrop : (c :: t).dropWhile isSpace = t.dropWhile isSpace := List.dropWhile_cons_of_pos h
  have hnext := next?_space h t
  by_cases hnil : t.dropWhile isSpace = []
  · rw [ofText?_of_dropWhile_eq_nil hnil, ofText?_of_dropWhile_eq_nil (hdrop.trans hnil)]
  · cases hread : next? t with
    | none =>
      rw [ofText?_of_next?_eq_none hnil hread,
        ofText?_of_next?_eq_none (hdrop ▸ hnil) (hnext.trans hread)]
    | some p => rw [ofText?_of_next? hread, ofText?_of_next? (hnext.trans hread)]

end Symbol

namespace Builder

variable {b b' : Builder} {s : Symbol} {t after : Text}

/-- What has been read once the symbols of a text are read too. -/
def read (b : Builder) (t : Text) : Option Builder := (Symbol.ofText? t).bind b.steps

theorem read_nil (b : Builder) : b.read [] = some b := by
  rw [read, Symbol.ofText?_of_dropWhile_eq_nil rfl]
  rfl

theorem read_of_next? (hnext : Symbol.next? t = some (s, after)) (hstep : b.step s = some b') :
    b.read t = b'.read after := by
  have hsteps : b.steps ∘ (s :: ·) = b'.steps := by
    funext symbols
    simp [steps, hstep]
  rw [read, Symbol.ofText?_of_next? hnext, Option.bind_map, hsteps, read]

theorem read_space {c : Char} (h : Symbol.isSpace c = true) (b : Builder) (t : Text) :
    b.read (c :: t) = b.read t := by
  rw [read, Symbol.ofText?_space h, read]

theorem read_indent (b : Builder) (depth : Nat) (t : Text) :
    b.read (indent depth ++ t) = b.read t := by
  unfold indent
  generalize 2 * depth = n
  induction n with
  | zero => rfl
  | succ n ih => rw [List.replicate_succ, List.cons_append, read_space rfl, ih]

/-- A value may come next, within the given frames. -/
inductive Awaits : List Frame → Builder → Prop
  | value (frames : List Frame) : Awaits frames (value frames)
  | arrayStart (frames : List Frame) : Awaits (.array [] :: frames) (arrayStart frames)

/-- What a value starts with has one effect, however the value is waited for. -/
theorem Awaits.step {frames : List Frame} (h : Awaits frames b)
    (hbegin : begin frames s = some b') : b.step s = some b' := by
  cases h with
  | value => exact hbegin
  | arrayStart frames =>
    cases s with
    | closeArray => simp [begin] at hbegin
    | _ => exact hbegin

/-- A key may come next, behind the given members and within the given frames. -/
inductive AwaitsKey : List (Option Text × Value) → List Frame → Builder → Prop
  | key (members : List (Option Text × Value)) (frames : List Frame) :
    AwaitsKey members frames (key members frames)
  | objectStart (frames : List Frame) : AwaitsKey [] frames (objectStart frames)

theorem AwaitsKey.step {members : List (Option Text × Value)} {frames : List Frame}
    (h : AwaitsKey members frames b) (k : Option Text) :
    b.step (.string k) = some (colon members k frames) := by
  cases h <;> rfl

end Builder

/-! ## Rows of parts -/

/-- How the parts between two brackets are read, one after the other. Arrays and objects differ in
what their parts are and in what is known while they are read. -/
structure Row (α : Type) where
  /-- The texts that stand for a part. -/
  shows : Text → α → Prop
  /-- What has read the opening bracket. -/
  start : Builder
  /-- What has some parts behind it, the last one first, and waits for another one. -/
  awaits : List α → Builder → Prop
  /-- What has read a part behind some others. -/
  holds : α → List α → Builder
  /-- What has read the closing bracket. -/
  result : List α → Builder
  closing : Char
  awaits_start : awaits [] start
  read_part {t : Text} {x : α} {done : List α} {b : Builder} {rest : Text} :
    shows t x → awaits done b → Delimited rest → b.read (t ++ rest) = (holds x done).read rest
  exists_comma (x : α) (done : List α) :
    ∃ b, (holds x done).step .comma = some b ∧ awaits (x :: done) b
  read_closing (x : α) (done : List α) (rest : Text) :
    (holds x done).read (closing :: rest) = (result (x :: done)).read rest
  read_empty (rest : Text) : start.read (closing :: rest) = (result []).read rest

namespace Row

open Builder

variable {α : Type} (row : Row α) {texts : List Text} {parts : List α}

/-- Parts on lines of their own are read up to the bracket that closes the row. -/
theorem read_lines (h : List.Forall₂ row.shows texts parts) (hne : texts ≠ []) {done : List α}
    {b : Builder} (hb : row.awaits done b) (inner outer : Nat) (rest : Text) :
    b.read (List.intercalate ",\n".toList (texts.map (indent inner ++ ·)) ++
        '\n' :: (indent outer ++ row.closing :: rest)) =
      (row.result (parts.reverse ++ done)).read rest := by
  induction h generalizing done b with
  | nil => exact absurd rfl hne
  | @cons t x texts parts hx hrest ih =>
    cases hrest with
    | nil =>
      simp only [List.map_cons, List.map_nil, List.intercalate_singleton, List.append_assoc,
        read_indent]
      rw [row.read_part hx hb (delimited_newline _), read_space rfl, read_indent,
        row.read_closing]
      rfl
    | @cons t' x' texts parts hx' hrest =>
      obtain ⟨b', hstep, hb'⟩ := row.exists_comma x done
      have hlater := ih (by simp) hb'
      have hcomma (after : Text) : b.read (t ++ ',' :: '\n' :: after) = b'.read after := by
        rw [row.read_part hx hb (delimited_comma _), read_of_next? rfl hstep, read_space rfl]
      have hsep : ",\n".toList = [',', '\n'] := rfl
      rw [List.map_cons, List.map_cons, List.intercalate_cons_cons, ← List.map_cons, hsep]
      simp only [List.append_assoc, read_indent, List.cons_append, List.nil_append, hcomma]
      rw [← hsep, hlater]
      simp

/-- A row is read, whether it is empty or has its parts on lines of their own. -/
theorem read_block {b : Builder} {opening : Char}
    (hopen : ∀ rest, b.read (opening :: rest) = row.start.read rest)
    (h : List.Forall₂ row.shows texts parts) (depth : Nat) (rest : Text) :
    b.read (block opening row.closing depth texts ++ rest) =
      (row.result parts.reverse).read rest := by
  cases h with
  | nil => simp [block, hopen, row.read_empty]
  | cons hx hrest =>
    have hlines := row.read_lines (.cons hx hrest) (by simp) row.awaits_start
      (depth + 1) depth rest
    simp only [block, List.isEmpty_cons, Bool.false_eq_true, ↓reduceIte, List.cons_append,
      List.append_assoc, List.nil_append, hopen]
    rw [read_space rfl, hlines, List.append_nil]

end Row

/-! ## Shown values -/

/-- The text stands for the value: whoever waits for a value, within whatever frames, has this one
behind the text, if what follows does not continue it. -/
def Shows (t : Text) (v : Value) : Prop :=
  ∀ ⦃frames b rest⦄, Builder.Awaits frames b → Delimited rest →
    b.read (t ++ rest) = (Builder.complete v frames).read rest

/-- A key and a text stand for a member of an object. -/
def ShowsMember (m : Text × Text) (member : Option Text × Value) : Prop :=
  member.1 = some m.1 ∧ Shows m.2 member.2

/-- A text that is one symbol shows the value that the symbol is. -/
theorem shows_of_next? {t : Text} {s : Symbol} {v : Value}
    (hnext : ∀ ⦃rest⦄, Delimited rest → Symbol.next? (t ++ rest) = some (s, rest))
    (hbegin : ∀ frames, Builder.begin frames s = some (.complete v frames)) : Shows t v :=
  fun _ _ _ hb hrest => Builder.read_of_next? (hnext hrest) (hb.step (hbegin _))

theorem shows_quote (t : Text) : Shows (quote t) (.string (some t)) :=
  shows_of_next? (fun rest _ => Symbol.next?_quote t rest) fun _ => rfl

theorem shows_decimal (n : Nat) : Shows (Text.decimal n) (.natural n) :=
  shows_of_next? (fun _ hrest => Symbol.next?_decimal n hrest) fun _ => rfl

/-- The items of an array. -/
def arrayRow (frames : List Frame) : Row Value where
  shows := Shows
  start := .arrayStart frames
  awaits done := Builder.Awaits (.array done :: frames)
  holds v done := .complete v (.array done :: frames)
  result done := .complete (.array done.reverse) frames
  closing := ']'
  awaits_start := .arrayStart frames
  read_part hv hb hrest := hv hb hrest
  exists_comma _ _ := ⟨_, rfl, .value _⟩
  read_closing _ _ _ := Builder.read_of_next? rfl rfl
  read_empty _ := Builder.read_of_next? rfl rfl

/-- A member of an object is read: its key, the colon behind the key and its value. -/
theorem read_member {m : Text × Text} {member : Option Text × Value} (h : ShowsMember m member)
    {members : List (Option Text × Value)} {frames : List Frame} {b : Builder}
    (hb : Builder.AwaitsKey members frames b) {rest : Text} (hrest : Delimited rest) :
    b.read (quote m.1 ++ ": ".toList ++ m.2 ++ rest) =
      (Builder.complete member.2 (.object members member.1 :: frames)).read rest := by
  obtain ⟨hkey, hvalue⟩ := h
  rw [List.append_assoc, List.append_assoc, hkey,
    Builder.read_of_next? (Symbol.next?_quote m.1 _) (hb.step _)]
  have hcolon : ": ".toList ++ (m.2 ++ rest) = ':' :: ' ' :: (m.2 ++ rest) := rfl
  rw [hcolon, Builder.read_of_next? rfl rfl, Builder.read_space rfl, hvalue (.value _) hrest]

/-- The members of an object. -/
def objectRow (frames : List Frame) : Row (Option Text × Value) where
  shows t member := ∃ m, t = quote m.1 ++ ": ".toList ++ m.2 ∧ ShowsMember m member
  start := .objectStart frames
  awaits done := Builder.AwaitsKey done frames
  holds member done := .complete member.2 (.object done member.1 :: frames)
  result done := .complete (.object done.reverse) frames
  closing := '}'
  awaits_start := .objectStart frames
  read_part h hb hrest := by
    obtain ⟨m, rfl, hm⟩ := h
    exact read_member hm hb hrest
  exists_comma member done := ⟨_, rfl, .key (member :: done) frames⟩
  read_closing _ _ _ := Builder.read_of_next? rfl rfl
  read_empty _ := Builder.read_of_next? rfl rfl

theorem shows_array {texts : List Text} {items : List Value} (h : List.Forall₂ Shows texts items)
    (depth : Nat) : Shows (array depth texts) (.array items) := by
  intro frames b rest hb _
  have hopen (rest : Text) : b.read ('[' :: rest) = (arrayRow frames).start.read rest :=
    Builder.read_of_next? rfl (hb.step rfl)
  have hread : b.read (array depth texts ++ rest) =
      (Builder.complete (.array items.reverse.reverse) frames).read rest :=
    (arrayRow frames).read_block hopen h depth rest
  rwa [List.reverse_reverse] at hread

theorem shows_object {members : List (Text × Text)} {values : List (Option Text × Value)}
    (h : List.Forall₂ ShowsMember members values) (depth : Nat) :
    Shows (object depth members) (.object values) := by
  intro frames b rest hb _
  have hopen (rest : Text) : b.read ('{' :: rest) = (objectRow frames).start.read rest :=
    Builder.read_of_next? rfl (hb.step rfl)
  have hparts : List.Forall₂ (objectRow frames).shows
      (members.map fun m => quote m.1 ++ ": ".toList ++ m.2) values :=
    List.forall₂_map_left_iff.mpr (h.imp fun m _ hm => ⟨m, rfl, hm⟩)
  have hread : b.read (object depth members ++ rest) =
      (Builder.complete (.object values.reverse.reverse) frames).read rest :=
    (objectRow frames).read_block hopen hparts depth rest
  rwa [List.reverse_reverse] at hread

/-- A text that shows a value is the text of this value. -/
theorem Shows.ofText? {t : Text} {v : Value} (h : Shows t v) : Value.ofText? t = some v := by
  have hread := h (.value []) delimited_nil
  rw [List.append_nil, Builder.read_nil] at hread
  obtain ⟨symbols, hsymbols, hsteps⟩ := Option.bind_eq_some_iff.mp hread
  simp [Value.ofText?, Value.ofSymbols?, hsymbols, hsteps]

/-- A text shows one value at most. -/
theorem Shows.unique {t : Text} {v w : Value} (hv : Shows t v) (hw : Shows t w) : v = w := by
  simpa [hv.ofText?] using hw.ofText?

end FilterQuery.Json
