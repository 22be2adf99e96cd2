import MessageFlow.Json.Basic

/-!
JSON text as it is written. A tree keeps the members of objects in their order, repeated names
included. Strings and numerals that are well formed but denote no value (an unpaired surrogate, a number
beyond the finite range) are kept as `none`: a reader may skip over them, but cannot take their value.
-/

namespace MessageFlow.Json

inductive Tree where
  | null
  | bool (b : Bool)
  | number (n : Option Number)
  | string (s : Option String)
  | array (items : List Tree)
  | object (members : List (Option String × Tree))
deriving Inhabited

namespace Tree

/-- How deeply arrays and objects may stand inside each other, counted as remaining levels. -/
def depthLimit : Nat := 128

/-- The level inside an array or object, unless the levels are used up. -/
def enter? (depth : Nat) : Option Nat := if depth ≤ 1 then none else some (depth - 1)

mutual

/-- The value of a tree. Of two members under one name the later counts. -/
def value? (depth : Nat) : Tree → Option Json
  | .null => some .null
  | .bool b => some (.bool b)
  | .number n => n.map .number
  | .string s => s.map .string
  | .array xs =>
    match enter? depth with
    | some d => (valueItems? d xs).map .array
    | none => none
  | .object xs =>
    match enter? depth with
    | some d => (valueMembers? d xs).map Json.ofMembers
    | none => none

def valueItems? (depth : Nat) : List Tree → Option (List Json)
  | [] => some []
  | x :: xs => do
    let v ← value? depth x
    let vs ← valueItems? depth xs
    return v :: vs

def valueMembers? (depth : Nat) : List (Option String × Tree) → Option (List (String × Json))
  | [] => some []
  | (k, x) :: xs => do
    let name ← k
    let v ← value? depth x
    let vs ← valueMembers? depth xs
    return (name, v) :: vs

end

end Tree
end MessageFlow.Json
