import MessageFlow.Number.Shortest

/-!
Conditions on messages: comparisons of a message path with a literal, combined by `and`, `or` and `not`,
and the causes for which reading or evaluating one fails.
-/

namespace MessageFlow

/-- A number as a condition may spell it; not every one is finite. -/
inductive LiteralNumber where
  | finite (x : Binary64)
  | infinite (negative : Bool)
  | nan
deriving DecidableEq, Inhabited

inductive Literal where
  | string (s : String)
  | number (n : LiteralNumber)
  | boolean (b : Bool)
  | null
deriving DecidableEq, Inhabited

inductive CompareOp where
  | eq
  | notEq
  | greater
  | greaterEq
  | less
  | lessEq
  | contains
deriving DecidableEq, Inhabited

inductive Expression where
  | always
  | never
  | compare (path : String) (op : CompareOp) (right : Literal)
  | conj (left right : Expression)
  | disj (left right : Expression)
  | neg (inner : Expression)
deriving DecidableEq, Inhabited

namespace LiteralNumber

/-- Always positional, never with a superfluous point. -/
def text : LiteralNumber → String
  | .finite x => x.text Binary64.plainLayout
  | .infinite negative => if negative then "-inf" else "inf"
  | .nan => "NaN"

end LiteralNumber

def Literal.text : Literal → String
  | .string s => "'" ++ s ++ "'"
  | .number n => n.text
  | .boolean b => if b then "true" else "false"
  | .null => "null"

def CompareOp.text : CompareOp → String
  | .eq => "=="
  | .notEq => "!="
  | .greater => ">"
  | .greaterEq => ">="
  | .less => "<"
  | .lessEq => "<="
  | .contains => "contains"

/-- Why a condition could not be read or could not be decided. -/
inductive PredicateError where
  /-- The text is no `what`. -/
  | parse (what input : String)
  /-- An ordered comparison met something other than two numbers. -/
  | typeMismatch (path : String) (op : CompareOp) (expected found : String)
  /-- A cause of another predicate language. -/
  | evaluation (text : String)
deriving DecidableEq, Inhabited

def PredicateError.message : PredicateError → String
  | .parse what input => "Could not parse " ++ what ++ ": " ++ input
  | .typeMismatch path op expected found =>
    "Cannot compare '" ++ path ++ "' (" ++ found ++ ") with " ++ op.text ++ " " ++ expected
  | .evaluation text => text

end MessageFlow
