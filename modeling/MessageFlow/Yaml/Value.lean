import MessageFlow.Number.Decimal
import MessageFlow.Yaml.Node

/-!
What scalars mean as JSON. A plain scalar without a tag may be null, a boolean or a number, by its text;
other scalars are strings, unless a tag names one of these types.
-/

namespace MessageFlow.Yaml

def isNullText (s : String) : Bool := ["null", "Null", "NULL", "~"].contains s

def booleanOf? (s : String) : Option Bool :=
  if ["true", "True", "TRUE"].contains s then some true
  else if ["false", "False", "FALSE"].contains s then some false
  else none

/-- The value of a digit of some base. -/
def digitOf? (base : Nat) (c : Char) : Option Nat := (Json.hexValue? c).filter (· < base)

/-- The number of a run of digits of some base. -/
def digitsOf? (base : Nat) (s : List Char) : Option Nat :=
  if s.isEmpty then none
  else s.foldlM (fun n c => (digitOf? base c).map (n * base + ·)) 0

/-- An optional sign, and the text behind it. -/
def signOf : List Char → Bool × List Char
  | '-' :: rest => (true, rest)
  | '+' :: rest => (false, rest)
  | rest => (false, rest)

/-- Digits behind a leading zero, as in codes of a fixed width; they are no number. -/
def isCode (s : List Char) : Bool :=
  match (signOf s).2 with
  | '0' :: d :: rest => (d :: rest).all Text.isDigit
  | _ => false

/-- The sign and magnitude of an integer, in base 16, 8, 2 or 10. -/
def integerOf? (s : List Char) : Option (Bool × Nat) :=
  let (negative, digits) := signOf s
  let magnitude := match digits with
    | '0' :: 'x' :: rest => digitsOf? 16 rest
    | '0' :: 'o' :: rest => digitsOf? 8 rest
    | '0' :: 'b' :: rest => digitsOf? 2 rest
    | _ => if isCode s then none else digitsOf? 10 digits
  magnitude.map (fun n => (negative, n))

/-- How an integer can be held. -/
inductive IntegerRange where
  /-- In 64 bits. -/
  | small
  /-- In 128 bits only; such a number is refused. -/
  | large
  /-- Not at all. -/
  | outside
deriving DecidableEq

def rangeOf (negative : Bool) (n : Nat) : IntegerRange :=
  if negative then
    if n ≤ Nat.pow 2 63 then .small else if n ≤ Nat.pow 2 127 then .large else .outside
  else if n < Nat.pow 2 64 then .small
  else if n < Nat.pow 2 128 then .large
  else .outside

/-- An infinity or the number that is none. -/
def isSpecialFloat (s : String) : Bool :=
  [".inf", ".Inf", ".INF", "+.inf", "+.Inf", "+.INF", "-.inf", "-.Inf", "-.INF", ".nan", ".NaN",
    ".NAN"].contains s

/-- The value of a text as a binary64 number. JSON has no infinities, so they become null. -/
def floatOf? (s : String) : Option Json :=
  if isSpecialFloat s then some .null
  else
    let (negative, digits) := signOf s.toList
    ((Decimal.read? digits).bind (Decimal.toBinary64? negative)).map (fun x => .number (.float x))

/-- The integer of a text. The second answer is a number too large to hold; the last one no integer. -/
def integerValue? (s : String) : Option (Option Json) :=
  match integerOf? s.toList with
  | some (negative, n) =>
    match rangeOf negative n with
    | .small => some (some (.int (if negative then -n else n)))
    | .large => some none
    | .outside => none
  | none => none

/-- The value of a plain scalar; none for a number too large to hold. -/
def plainValue? (s : String) : Option Json :=
  if s = "" || isNullText s then some .null
  else
    match booleanOf? s with
    | some b => some (.bool b)
    | none =>
      match integerValue? s with
      | some v => v
      | none =>
        match if isCode s.toList then none else floatOf? s with
        | some v => some v
        | none => some (.string s)

/-- The value of a scalar under its tag. A local tag that names something has no value. -/
def scalarValue? (tag : Option Tag) (s : String) (plain : Bool) : Option Json :=
  match tag with
  | none => if plain then plainValue? s else some (.string s)
  | some tag =>
    if tag.localName?.isSome then none
    else if tag = .core "bool" then (booleanOf? s).map .bool
    else if tag = .core "int" then (integerValue? s).join
    else if tag = .core "float" then floatOf? s
    else if tag = .core "null" then if isNullText s then some .null else none
    else if tag.isLocal && plain then plainValue? s
    else some (.string s)

end MessageFlow.Yaml
