import FilterQuery.Json.Quoted

/-!
# Laying out JSON texts

A JSON text is laid out with every item of an array and every member of an object on a line of its
own, two spaces further in than the brackets around it. A bracket pair with nothing in it stays on
one line. The parts are texts already laid out for their depth.
-/

namespace FilterQuery.Json

/-- The spaces in front of a line at a given depth. -/
def indent (depth : Nat) : Text := List.replicate (2 * depth) ' '

/-- Items between brackets, where the closing bracket stands at the given depth. -/
def block (opening closing : Char) (depth : Nat) (items : List Text) : Text :=
  if items.isEmpty then [opening, closing]
  else
    opening :: '\n' :: List.intercalate ",\n".toList (items.map (indent (depth + 1) ++ ·))
      ++ '\n' :: indent depth ++ [closing]

/-- An array at a given depth. -/
def array (depth : Nat) (items : List Text) : Text := block '[' ']' depth items

/-- An object at a given depth. -/
def object (depth : Nat) (members : List (Text × Text)) : Text :=
  block '{' '}' depth (members.map fun (key, value) => quote key ++ ": ".toList ++ value)

end FilterQuery.Json
