import MessageFlow.Condition.Reader
import MessageFlow.Json.Printer
import MessageFlow.Message.Basic

/-!
Deciding conditions on a message. A missing value counts as null. Equality and `contains` never fail; an
ordered comparison fails unless its literal is a number and its path leads to a number, null or nothing.
-/

namespace MessageFlow

namespace Number

/-- Whether two numbers differ by less than the gap between 1 and the next number. -/
def near (n : Number) : LiteralNumber → Bool
  | .finite y => n.toBinary64.distance y < Binary64.epsilon
  | .infinite _ | .nan => false

/-- Whether `n` stands to a literal as the operator says; only ordered operators compare. -/
def ordered (n : Number) (op : CompareOp) : LiteralNumber → Bool
  | .finite y =>
    let a := n.toBinary64.value
    let b := y.value
    match op with
    | .greater => b < a
    | .greaterEq => b ≤ a
    | .less => a < b
    | .lessEq => a ≤ b
    | _ => false
  | .infinite negative =>
    match op with
    | .greater | .greaterEq => negative
    | .less | .lessEq => !negative
    | _ => false
  | .nan => false

end Number

namespace Expression

/-- Equality of a value with a literal; values of different kinds differ. -/
def valueEq : Option Json → Literal → Bool
  | none, .null => true
  | some .null, .null => true
  | some (.string s), .string t => s == t
  | some (.number n), .number x => n.near x
  | some (.bool a), .boolean b => a == b
  | _, _ => false

/-- Whether the characters of `needle` stand one after the other somewhere in a text. -/
def isInside (needle : List Char) : List Char → Bool
  | [] => needle.isEmpty
  | c :: rest => needle.isPrefixOf (c :: rest) || isInside needle rest

/-- A text contains its parts, an array its items, an object its names. -/
def containsLiteral : Option Json → Literal → Bool
  | some (.string s), .string t => isInside t.toList s.toList
  | some (.array items), .string t => items.any (fun v => v.string? == some t)
  | some (.array items), .number x => items.any (fun v => v.number?.any (·.near x))
  | some (.array items), .boolean b => items.any (fun v => v.bool? == some b)
  | some (.object members), .string name => (Dict.find name members).isSome
  | _, _ => false

/-- Ordered comparison; a missing or null value stands in no order to a number. -/
def compareOrdered (path : String) (op : CompareOp) (right : Literal) (left : Option Json) :
    Except PredicateError Bool :=
  match right with
  | .number x =>
    match left with
    | none | some .null => .ok false
    | some (.number n) => .ok (n.ordered op x)
    | some v => .error (.typeMismatch path op right.text v.compact)
  | _ => .error (.typeMismatch path op right.text ("non-numeric literal " ++ right.text))

def evalCompare (path : String) (op : CompareOp) (right : Literal) (left : Option Json) :
    Except PredicateError Bool :=
  match op with
  | .eq => .ok (valueEq left right)
  | .notEq => .ok (!valueEq left right)
  | .contains => .ok (containsLiteral left right)
  | .greater | .greaterEq | .less | .lessEq => compareOrdered path op right left

/-- The truth of a condition, from left to right; the right side is asked only if the left leaves the
answer open. -/
def eval (m : Message) : Expression → Except PredicateError Bool
  | .always => .ok true
  | .never => .ok false
  | .compare path op right => evalCompare path op right (m.resolve? path)
  | .conj left right =>
    match eval m left with
    | .ok true => eval m right
    | other => other
  | .disj left right =>
    match eval m left with
    | .ok false => eval m right
    | other => other
  | .neg inner => (eval m inner).map (!·)

end Expression
end MessageFlow
