import MessageFlow.Json.Reader

/-!
Characters of YAML text, and places in it. Line breaks are unified first, so that a line feed stands for
every break but the separators U+2028 and U+2029, which keep their own shape.
-/

namespace MessageFlow.Yaml

/-- Characters that a text may hold. -/
def isAllowed (c : Char) : Bool :=
  let n := c.toNat
  n == 9 || n == 10 || n == 13 || (0x20 ≤ n && n ≤ 0x7E) || n == 0x85 || (0xA0 ≤ n && n ≤ 0xD7FF) ||
    (0xE000 ≤ n && n ≤ 0xFFFD) || 0x10000 ≤ n

/-- Write each carriage return, with or without a line feed, and each next-line as a line feed. -/
def unifyBreaks : List Char → List Char
  | [] => []
  | '\r' :: '\n' :: rest => '\n' :: unifyBreaks rest
  | c :: rest => (if c = '\r' ∨ c.toNat = 0x85 then '\n' else c) :: unifyBreaks rest

def isBreak (c : Char) : Bool := c == '\n' || c.toNat == 0x2028 || c.toNat == 0x2029

def isBlank (c : Char) : Bool := c == ' ' || c == '\t'

/-- Characters of names: of anchors, of directives, and of handles of tags. -/
def isWordChar (c : Char) : Bool :=
  ('0' ≤ c && c ≤ '9') || ('A' ≤ c && c ≤ 'Z') || ('a' ≤ c && c ≤ 'z') || c == '_' || c == '-'

/-- A text that goes on with a blank or a break, or not at all. -/
def endsWord : List Char → Bool
  | [] => true
  | c :: _ => isBlank c || isBreak c

/-- Three dashes or three points on their own, which mark where documents begin and end. -/
def startsMark : List Char → Bool
  | '-' :: '-' :: '-' :: rest => endsWord rest
  | '.' :: '.' :: '.' :: rest => endsWord rest
  | _ => false

/-- How many bytes a text takes in UTF-8. -/
def byteLength (s : List Char) : Nat := s.foldl (fun n c => n + c.utf8Size) 0

/-- A place in a text: what follows, and the line and column. -/
structure Cursor where
  rest : List Char
  line : Nat := 0
  column : Nat := 0

namespace Cursor

/-- Go on to a later place of the same line. -/
def skipTo (c : Cursor) (rest : List Char) : Cursor :=
  { c with rest, column := c.column + (c.rest.length - rest.length) }

/-- Go on behind the next `n` characters, all on the same line. -/
def skip (c : Cursor) (n : Nat) : Cursor := { c with rest := c.rest.drop n, column := c.column + n }

/-- Go on behind the leading characters of a kind, all on the same line. -/
def skipWhile (c : Cursor) (p : Char → Bool) : Cursor := c.skipTo (c.rest.dropWhile p)

/-- Go on behind a line break, if there is one. -/
def skipBreak (c : Cursor) : Cursor :=
  match c.rest with
  | x :: rest => if isBreak x then { rest, line := c.line + 1, column := 0 } else c
  | [] => c

end Cursor
end MessageFlow.Yaml
