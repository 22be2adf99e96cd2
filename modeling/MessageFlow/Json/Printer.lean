import MessageFlow.Json.Basic
import MessageFlow.Number.Shortest

/-!
JSON text of values: compact on one line, or indented by two spaces.
-/

namespace MessageFlow.Json

def hexDigits4 (n : Nat) : List Char :=
  let ds := Nat.toDigits 16 n
  List.replicate (4 - ds.length) '0' ++ ds

/-- One character inside a JSON string: only quotes, backslashes and controls are escaped. -/
def escapedChar (c : Char) : List Char :=
  if c = '"' then ['\\', '"']
  else if c = '\\' then ['\\', '\\']
  else if c = '\n' then ['\\', 'n']
  else if c = '\r' then ['\\', 'r']
  else if c = '\t' then ['\\', 't']
  else if c.toNat = 8 then ['\\', 'b']
  else if c.toNat = 12 then ['\\', 'f']
  else if c.toNat < 0x20 then '\\' :: 'u' :: hexDigits4 c.toNat
  else [c]

/-- A JSON string with its quotes. -/
def stringText (s : String) : String :=
  "\"" ++ String.ofList (s.toList.flatMap escapedChar) ++ "\""

def numberText : Number → String
  | .int n => toString n
  | .float x => x.text Binary64.jsonLayout

mutual

/-- Text without spaces or line breaks. -/
def compact : Json → String
  | .null => "null"
  | .bool b => if b then "true" else "false"
  | .number n => numberText n
  | .string s => stringText s
  | .array xs => "[" ++ compactItems xs ++ "]"
  | .object xs => "\x7b" ++ compactMembers xs ++ "\x7d"

def compactItems : List Json → String
  | [] => ""
  | [x] => compact x
  | x :: y :: rest => compact x ++ "," ++ compactItems (y :: rest)

def compactMembers : List (String × Json) → String
  | [] => ""
  | [(k, x)] => stringText k ++ ":" ++ compact x
  | (k, x) :: y :: rest => stringText k ++ ":" ++ compact x ++ "," ++ compactMembers (y :: rest)

end

/-- A new line at a depth of indentation. -/
def lineBreak (depth : Nat) : String := String.ofList ('\n' :: List.replicate (2 * depth) ' ')

mutual

/-- Text with one item or member a line; empty arrays and objects stay on theirs. -/
def pretty (depth : Nat) : Json → String
  | .array [] => "[]"
  | .array (x :: xs) => "[" ++ prettyItems (depth + 1) (x :: xs) ++ lineBreak depth ++ "]"
  | .object [] => "\x7b\x7d"
  | .object (x :: xs) => "\x7b" ++ prettyMembers (depth + 1) (x :: xs) ++ lineBreak depth ++ "\x7d"
  | .null => "null"
  | .bool b => if b then "true" else "false"
  | .number n => numberText n
  | .string s => stringText s

def prettyItems (depth : Nat) : List Json → String
  | [] => ""
  | [x] => lineBreak depth ++ pretty depth x
  | x :: y :: rest => lineBreak depth ++ pretty depth x ++ "," ++ prettyItems depth (y :: rest)

def prettyMembers (depth : Nat) : List (String × Json) → String
  | [] => ""
  | [(k, x)] => lineBreak depth ++ stringText k ++ ": " ++ pretty depth x
  | (k, x) :: y :: rest =>
    lineBreak depth ++ stringText k ++ ": " ++ pretty depth x ++ "," ++ prettyMembers depth (y :: rest)

end

end MessageFlow.Json
