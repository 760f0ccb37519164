import FilterQuery.Proofs.Json.Layout
import FilterQuery.Token.Json

/-!
# Tokens read back from JSON

The text written for tokens shows one JSON value, the value shows the tokens one by one, and reading
each of them gives it back: its kind by name, its value and its characters whatever they are, and
the offsets of its span as far as such numbers are read at all, which is below `2 ^ 64`.

## Contents

* `Span.jsonValue`, `Token.jsonValue`: the JSON values that spans and tokens are written as
* `Token.token?_jsonValue`: reading such a value
* `json_gives_tokens_back`: reading what has been written for tokens
-/

namespace FilterQuery

/-! ## Values that are written -/

/-- A span as a JSON value. -/
def Span.jsonValue (s : Span) : Json.Value :=
  .object [(some "start".toList, .natural s.start), (some "end".toList, .natural s.stop)]

/-- A token as a JSON value. -/
def Token.jsonValue (t : Token) : Json.Value :=
  .object [(some "kind".toList, .string (some t.kind.name)),
    (some "value".toList, .string (some t.value)), (some "raw".toList, .string (some t.raw)),
    (some "span".toList, t.span.jsonValue)]

theorem Span.shows_json (depth : Nat) (s : Span) : Json.Shows (s.json depth) s.jsonValue :=
  Json.shows_object
    (.cons ⟨rfl, Json.shows_decimal s.start⟩ (.cons ⟨rfl, Json.shows_decimal s.stop⟩ .nil)) depth

theorem Token.shows_json (depth : Nat) (t : Token) : Json.Shows (t.json depth) t.jsonValue :=
  Json.shows_object
    (.cons ⟨rfl, Json.shows_quote t.kind.name⟩ (.cons ⟨rfl, Json.shows_quote t.value⟩
      (.cons ⟨rfl, Json.shows_quote t.raw⟩ (.cons ⟨rfl, t.span.shows_json (depth + 1)⟩ .nil))))
    depth

theorem shows_jsonOfTokens (tokens : List Token) :
    Json.Shows (jsonOfTokens tokens) (.array (tokens.map Token.jsonValue)) := by
  refine Json.shows_array ?_ 0
  rw [List.forall₂_map_left_iff, List.forall₂_map_right_iff, List.forall₂_same]
  exact fun t _ => t.shows_json 1

/-! ## Texts told apart -/

theorem Span.jsonValue_injective {s r : Span} (h : s.jsonValue = r.jsonValue) : s = r := by
  cases s
  cases r
  simpa [Span.jsonValue] using h

theorem Token.jsonValue_injective {t u : Token} (h : t.jsonValue = u.jsonValue) : t = u := by
  cases t
  cases u
  simp only [Token.jsonValue, Json.Value.object.injEq, List.cons.injEq, Prod.mk.injEq,
    Json.Value.string.injEq, Option.some.injEq, true_and, and_true] at h
  obtain ⟨hkind, rfl, rfl, hspan⟩ := h
  obtain rfl := Kind.name_injective hkind
  obtain rfl := Span.jsonValue_injective hspan
  rfl

theorem Token.json_injective {depth : Nat} {t u : Token} (h : t.json depth = u.json depth) :
    t = u := by
  have hu := u.shows_json depth
  rw [← h] at hu
  exact Token.jsonValue_injective ((t.shows_json depth).unique hu)

theorem jsonOfTokens_injective {ts us : List Token} (h : jsonOfTokens ts = jsonOfTokens us) :
    ts = us := by
  have hus := shows_jsonOfTokens us
  rw [← h] at hus
  have hvalues : ts.map Token.jsonValue = us.map Token.jsonValue := by
    simpa using (shows_jsonOfTokens ts).unique hus
  exact List.map_injective_iff.mpr (fun _ _ => Token.jsonValue_injective) hvalues

/-! ## Values read -/

theorem Json.Value.kind?_name (k : Kind) : (string (some k.name)).kind? = some k := by
  simp [kind?, choice?, Kind.ofName?_name]

/-- Offsets below `2 ^ 64` are read back. -/
theorem Span.span?_jsonValue {s : Span} (hstart : s.start < UInt64.size)
    (hstop : s.stop < UInt64.size) : s.jsonValue.span? = some s := by
  have hfields : s.jsonValue.fields? ["start".toList, "end".toList] =
      some [some (.natural s.start), some (.natural s.stop)] := rfl
  have hnatural {n : Nat} (hn : n < UInt64.size) : (Json.Value.natural n).natural? = some n :=
    if_pos hn
  rw [Json.Value.span?, hfields]
  simp [hnatural hstart, hnatural hstop]

theorem Token.token?_jsonValue {t : Token} (hstart : t.span.start < UInt64.size)
    (hstop : t.span.stop < UInt64.size) : t.jsonValue.token? = some t := by
  have hfields : t.jsonValue.fields?
      ["kind".toList, "value".toList, "raw".toList, "span".toList] =
      some [some (.string (some t.kind.name)), some (.string (some t.value)),
        some (.string (some t.raw)), some t.span.jsonValue] := rfl
  rw [Json.Value.token?, hfields]
  simp [Json.Value.kind?_name, Json.Value.text?, Span.span?_jsonValue hstart hstop]

/-! ## The way there and back -/

/-- What is written for tokens is an array whose items, read one by one, are the tokens in their
order. Every kind is read back from its name alone, and neither two tokens nor two lists of tokens
are written alike. -/
theorem json_gives_tokens_back {tokens : List Token}
    (hspans : ∀ t ∈ tokens, t.span.start < UInt64.size ∧ t.span.stop < UInt64.size) :
    (∃ items, Json.Value.ofText? (jsonOfTokens tokens) = some (.array items) ∧
      items.map Json.Value.token? = tokens.map some) ∧
    (∀ k : Kind, (Json.Value.ofText? (Json.quote k.name)).bind Json.Value.kind? = some k) ∧
    (∀ (t u : Token) (depth : Nat), t.json depth = u.json depth → t = u) ∧
    ∀ others, jsonOfTokens others = jsonOfTokens tokens → others = tokens := by
  have hitems : (tokens.map Token.jsonValue).map Json.Value.token? = tokens.map some := by
    rw [List.map_map]
    refine List.map_congr_left fun t ht => ?_
    obtain ⟨hstart, hstop⟩ := hspans t ht
    exact Token.token?_jsonValue hstart hstop
  refine ⟨⟨_, (shows_jsonOfTokens tokens).ofText?, hitems⟩, fun k => ?_,
    fun t u depth h => Token.json_injective h, fun others h => jsonOfTokens_injective h⟩
  rw [(Json.shows_quote k.name).ofText?]
  exact Json.Value.kind?_name k

/-- Marks, backslashes, control characters and characters beyond the first plane come back, and so
do the greatest offsets that a span may have. -/
theorem json_gives_tokens_back_of_characters :
    let tokens : List Token :=
      [{ kind := .relation, value := ['"', '\\', '/', '\x00', '\n', '\x1f', '\x7f'],
         raw := ['\u2028', '\ufffd', Char.ofNat 0x1f600],
         span := { start := UInt64.size - 1, stop := UInt64.size - 2 } }]
    (∀ t ∈ tokens, t.span.start < UInt64.size ∧ t.span.stop < UInt64.size) ∧
    ∃ items, Json.Value.ofText? (jsonOfTokens tokens) = some (.array items) ∧
      items.map Json.Value.token? = tokens.map some := by
  intro tokens
  have hspans : ∀ t ∈ tokens, t.span.start < UInt64.size ∧ t.span.stop < UInt64.size := by decide
  exact ⟨hspans, (json_gives_tokens_back hspans).1⟩

end FilterQuery
