import FilterQuery.Json.Symbol

/-!
# JSON values

A value is put together from the symbols of a text, one after the other. What has been read so far
is a `Builder`: it says what may come next and which arrays and objects are still open. Every symbol
either takes the builder one step further or shows that the text is no JSON.

Members of an object stay in their order, and a key may occur more than once: what to make of that
is for the reader of the value to decide.

## Contents

* `Value`: a JSON value
* `Frame`: an array or object that is still open
* `Builder.step`: the effect of one symbol
* `Value.ofText?`: the value of a text
-/

namespace FilterQuery.Json

/-- A JSON value, as far as anything asks for it: see `Symbol` for numbers and strings. -/
inductive Value where
  | null
  | bool (value : Bool)
  | natural (value : Nat)
  | otherNumber
  | string (text : Option Text)
  | array (items : List Value)
  | object (members : List (Option Text × Value))

/-- An array or object that is not complete. Its parts are kept with the last one first. -/
inductive Frame where
  | array (items : List Value)
  /-- An object in which the value for a key comes next. -/
  | object (members : List (Option Text × Value)) (key : Option Text)

/-- What has been read of a JSON text: what may come next, within which frames. -/
inductive Builder where
  /-- A value has to come. -/
  | value (frames : List Frame)
  /-- An array has been opened: a value or its end has to come. -/
  | arrayStart (frames : List Frame)
  /-- An object has been opened: a key or its end has to come. -/
  | objectStart (frames : List Frame)
  /-- A key has to come. -/
  | key (members : List (Option Text × Value)) (frames : List Frame)
  /-- A colon has to come. -/
  | colon (members : List (Option Text × Value)) (key : Option Text) (frames : List Frame)
  /-- A value is complete: a comma or the end of the innermost frame has to come. -/
  | complete (value : Value) (frames : List Frame)

namespace Builder

/-- The effect of a symbol that a value starts with. -/
def begin (frames : List Frame) : Symbol → Option Builder
  | .openArray => some (arrayStart frames)
  | .openObject => some (objectStart frames)
  | .null => some (complete .null frames)
  | .bool b => some (complete (.bool b) frames)
  | .natural n => some (complete (.natural n) frames)
  | .otherNumber => some (complete .otherNumber frames)
  | .string t => some (complete (.string t) frames)
  | _ => none

/-- The effect of a symbol, if it may come next. -/
def step : Builder → Symbol → Option Builder
  | value frames, s => begin frames s
  | arrayStart frames, .closeArray => some (complete (.array []) frames)
  | arrayStart frames, s => begin (.array [] :: frames) s
  | objectStart frames, .closeObject => some (complete (.object []) frames)
  | objectStart frames, .string k => some (colon [] k frames)
  | key members frames, .string k => some (colon members k frames)
  | colon members k frames, .colon => some (value (.object members k :: frames))
  | complete v (.array items :: frames), .comma => some (value (.array (v :: items) :: frames))
  | complete v (.array items :: frames), .closeArray =>
    some (complete (.array (v :: items).reverse) frames)
  | complete v (.object members k :: frames), .comma => some (key ((k, v) :: members) frames)
  | complete v (.object members k :: frames), .closeObject =>
    some (complete (.object ((k, v) :: members).reverse) frames)
  | _, _ => none

/-- The effect of some symbols, one after the other. -/
def steps (b : Builder) (symbols : List Symbol) : Option Builder := symbols.foldlM step b

end Builder

namespace Value

/-- The value that some symbols make up. -/
def ofSymbols? (symbols : List Symbol) : Option Value :=
  match (Builder.value []).steps symbols with
  | some (.complete v []) => some v
  | _ => none

/-- The value of a text. -/
def ofText? (t : Text) : Option Value := (Symbol.ofText? t).bind ofSymbols?

/-! ## Reading values -/

/-- The text that a value is. -/
def text? : Value → Option Text
  | string t => t
  | _ => none

/-- The number that a value is, if it is natural and fits in 64 bits. -/
def natural? : Value → Option Nat
  | natural n => if n < UInt64.size then some n else none
  | _ => none

/-- The value for one key among the members of an object: nothing if the key is absent, and no
answer at all if it occurs more than once. -/
def member? (members : List (Option Text × Value)) (key : Text) : Option (Option Value) :=
  match members.filter fun (k, _) => k = some key with
  | [] => some none
  | [(_, v)] => some (some v)
  | _ => none

/-- The values for the fields of a record. An object gives them by key, and its other members do not
matter. An array gives them by place, and may end early. -/
def fields? (names : List Text) : Value → Option (List (Option Value))
  | object members =>
    if members.all fun (k, _) => k.isSome then names.mapM (member? members) else none
  | array items =>
    if items.length ≤ names.length then
      some (items.map some ++ List.replicate (names.length - items.length) none)
    else none
  | _ => none

/-- The choice among some named ones: the name as a string, or as the only key of an object with the
value null. -/
def choice? : Value → Option Text
  | string t => t
  | object [(k, null)] => k
  | _ => none

end Value
end FilterQuery.Json
