import MessageFlow.Dict
import MessageFlow.Number.Binary64

/-!
JSON values as messages, headers and parameters hold them.

Integers and binary64 numbers are different values even where they are numerically equal. Objects list
their members; the values that readers build list them in order of their names (`Json.ofDict`).
-/

namespace MessageFlow

/-- A JSON number: an integer of 64 bits, or a finite binary64 number. -/
inductive Number where
  | int (n : Int)
  | float (x : Binary64)
deriving DecidableEq, Inhabited

namespace Number

/-- The binary64 number next to a number. -/
def toBinary64 : Number → Binary64
  | .int n => .ofInt n
  | .float x => x

/-- Equality of numbers of one kind; the two zeros of binary64 are equal. -/
def same : Number → Number → Bool
  | .int m, .int n => m == n
  | .float x, .float y => x.value == y.value
  | _, _ => false

instance : BEq Number := ⟨same⟩

theorem same_refl (n : Number) : same n n = true := by
  cases n <;> simp [same]

theorem same_comm (m n : Number) : same m n = same n m := by
  cases m <;> cases n <;> simp [same, Bool.beq_comm]

end Number

inductive Json where
  | null
  | bool (b : Bool)
  | number (n : Number)
  | string (s : String)
  | array (items : List Json)
  | object (members : List (String × Json))
deriving Inhabited

namespace Json

def ofDict (d : Dict Json) : Json := .object d.entries

/-- An object from members in any order; of two under one name the later stays. -/
def ofMembers (members : List (String × Json)) : Json := ofDict (Dict.ofList members)

def int (n : Int) : Json := .number (.int n)
def nat (n : Nat) : Json := .number (.int n)

mutual

/-- Equality of values, with equality of numbers as `Number.same`. -/
def same : Json → Json → Bool
  | .null, .null => true
  | .bool a, .bool b => a == b
  | .number m, .number n => m.same n
  | .string s, .string t => s == t
  | .array xs, .array ys => sameItems xs ys
  | .object xs, .object ys => sameMembers xs ys
  | _, _ => false

def sameItems : List Json → List Json → Bool
  | [], [] => true
  | x :: xs, y :: ys => x.same y && sameItems xs ys
  | _, _ => false

def sameMembers : List (String × Json) → List (String × Json) → Bool
  | [], [] => true
  | (k, x) :: xs, (l, y) :: ys => k == l && x.same y && sameMembers xs ys
  | _, _ => false

end

instance : BEq Json := ⟨same⟩

mutual

theorem same_refl : (v : Json) → same v v = true
  | .null => rfl
  | .bool b => by simp [same]
  | .number n => by simp [same, Number.same_refl]
  | .string s => by simp [same]
  | .array xs => by simp [same, sameItems_refl xs]
  | .object xs => by simp [same, sameMembers_refl xs]

theorem sameItems_refl : (xs : List Json) → sameItems xs xs = true
  | [] => rfl
  | x :: xs => by simp [sameItems, same_refl x, sameItems_refl xs]

theorem sameMembers_refl : (xs : List (String × Json)) → sameMembers xs xs = true
  | [] => rfl
  | (k, x) :: xs => by simp [sameMembers, same_refl x, sameMembers_refl xs]

end

mutual

theorem same_comm (v w : Json) : v.same w = w.same v := by
  cases v with
  | array xs =>
    cases w with
    | array ys => exact sameItems_comm xs ys
    | _ => rfl
  | object xs =>
    cases w with
    | object ys => exact sameMembers_comm xs ys
    | _ => rfl
  | number m => cases w <;> simp [same, Number.same_comm m]
  | _ => cases w <;> simp [same, Bool.beq_comm]

theorem sameItems_comm (xs ys : List Json) : sameItems xs ys = sameItems ys xs := by
  cases xs with
  | nil => cases ys <;> rfl
  | cons x xs =>
    cases ys with
    | nil => rfl
    | cons y ys => simp only [sameItems, same_comm x y, sameItems_comm xs ys]

theorem sameMembers_comm (xs ys : List (String × Json)) : sameMembers xs ys = sameMembers ys xs := by
  cases xs with
  | nil => cases ys <;> rfl
  | cons x xs =>
    cases ys with
    | nil => rfl
    | cons y ys =>
      obtain ⟨k, v⟩ := x
      obtain ⟨l, w⟩ := y
      simp only [sameMembers, same_comm v w, sameMembers_comm xs ys, Bool.beq_comm (a := k)]

end

theorem beq_comm (v w : Json) : (v == w) = (w == v) := same_comm v w

def string? : Json → Option String
  | .string s => some s
  | _ => none

def bool? : Json → Option Bool
  | .bool b => some b
  | _ => none

def number? : Json → Option Number
  | .number n => some n
  | _ => none

/-- The member of an object under a name. -/
def member? (name : String) : Json → Option Json
  | .object members => Dict.find name members
  | _ => none

mutual

/-- The same value with every object's members in order of their names, one for each name. -/
def sorted : Json → Json
  | .array xs => .array (sortedItems xs)
  | .object xs => ofMembers (sortedMembers xs)
  | v => v

def sortedItems : List Json → List Json
  | [] => []
  | x :: xs => x.sorted :: sortedItems xs

def sortedMembers : List (String × Json) → List (String × Json)
  | [] => []
  | (k, x) :: xs => (k, x.sorted) :: sortedMembers xs

end

end Json
end MessageFlow
