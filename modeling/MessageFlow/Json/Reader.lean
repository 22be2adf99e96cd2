import MessageFlow.Json.Numeral
import MessageFlow.Json.Tree

/-!
Reading JSON text into a tree. The grammar is strict: no comments, no trailing commas, no leading zeros,
no controls inside strings, and nothing but blanks after the value.
-/

namespace MessageFlow.Json

def isSpace (c : Char) : Bool := c == ' ' || c == '\n' || c == '\t' || c == '\r'

def skipSpace (s : List Char) : List Char := s.dropWhile isSpace

def hexValue? (c : Char) : Option Nat :=
  if '0' ≤ c ∧ c ≤ '9' then some (c.toNat - '0'.toNat)
  else if 'a' ≤ c ∧ c ≤ 'f' then some (c.toNat - 'a'.toNat + 10)
  else if 'A' ≤ c ∧ c ≤ 'F' then some (c.toNat - 'A'.toNat + 10)
  else none

/-- The 16-bit unit that four hexadecimal digits spell. -/
def unit? (a b c d : Char) : Option Nat := do
  let a ← hexValue? a
  let b ← hexValue? b
  let c ← hexValue? c
  let d ← hexValue? d
  return ((a * 16 + b) * 16 + c) * 16 + d

/-- The character behind a backslash, except for code units. -/
def escaped? : Char → Option Char
  | '"' => some '"'
  | '\\' => some '\\'
  | '/' => some '/'
  | 'b' => some (Char.ofNat 8)
  | 'f' => some (Char.ofNat 12)
  | 'n' => some '\n'
  | 'r' => some '\r'
  | 't' => some '\t'
  | _ => none

/-- The characters of a string behind its opening quote, as code points; an escaped code unit may be a
surrogate. `acc` holds what was read before, last first. -/
def stringPoints (acc : List Nat) : List Char → Option (List Nat × List Char)
  | [] => none
  | '"' :: rest => some (acc.reverse, rest)
  | '\\' :: 'u' :: a :: b :: c :: d :: rest =>
    match unit? a b c d with
    | some u => stringPoints (u :: acc) rest
    | none => none
  | '\\' :: e :: rest =>
    match escaped? e with
    | some c => stringPoints (c.toNat :: acc) rest
    | none => none
  | c :: rest => if c = '\\' ∨ c.toNat < 0x20 then none else stringPoints (c.toNat :: acc) rest

def isLeading (u : Nat) : Bool := 0xD800 ≤ u && u < 0xDC00

def isTrailing (u : Nat) : Bool := 0xDC00 ≤ u && u < 0xE000

/-- Join surrogate pairs; a surrogate without its partner spells no text. -/
def joinPoints (acc : List Char) : List Nat → Option (List Char)
  | [] => some acc.reverse
  | [u] => if isLeading u || isTrailing u then none else some (Char.ofNat u :: acc).reverse
  | u :: v :: rest =>
    if isLeading u then
      if isTrailing v then
        joinPoints (Char.ofNat ((u - 0xD800) * 0x400 + (v - 0xDC00) + 0x10000) :: acc) rest
      else none
    else if isTrailing u then none
    else joinPoints (Char.ofNat u :: acc) (v :: rest)

/-- A string behind its opening quote. -/
def stringRest (s : List Char) : Option (Option String × List Char) :=
  (stringPoints [] s).map (fun p => ((joinPoints [] p.1).map String.ofList, p.2))

/-- At least one digit. -/
def digits? (s : List Char) : Option (List Char × List Char) :=
  let ds := s.takeWhile Text.isDigit
  if ds.isEmpty then none else some (ds, s.dropWhile Text.isDigit)

/-- The part of a numeral behind its point, if it has one. -/
def fraction? : List Char → Option (Option (List Char) × List Char)
  | '.' :: rest => (digits? rest).map (fun p => (some p.1, p.2))
  | s => some (none, s)

/-- The exponent of a numeral, if it has one. -/
def exponent? : List Char → Option (Option Int × List Char)
  | c :: rest =>
    if c = 'e' ∨ c = 'E' then
      let (negative, rest) := match rest with
        | '-' :: t => (true, t)
        | '+' :: t => (false, t)
        | t => (false, t)
      (digits? rest).map (fun p =>
        let n : Int := Text.digitsValue p.1 0
        (some (if negative then -n else n), p.2))
    else some (none, c :: rest)
  | [] => some (none, [])

/-- A numeral: no superfluous leading zero, digits on both sides of a point. -/
def numeral? (s : List Char) : Option (Option Number × List Char) := do
  let (negative, s) := match s with
    | '-' :: rest => (true, rest)
    | _ => (false, s)
  let (whole, rest) ← digits? s
  guard (whole.length = 1 ∨ whole.head? ≠ some '0')
  let (fraction, rest) ← fraction? rest
  let (exponent, rest) ← exponent? rest
  return ((Numeral.mk negative whole fraction exponent).value?, rest)

mutual

/-- A value and what stands behind it. The fuel bounds the number of nested and successive calls; twice
the length of the text is enough. -/
def valueAt : (fuel : Nat) → List Char → Option (Tree × List Char)
  | 0, _ => none
  | fuel + 1, s =>
    match skipSpace s with
    | 'n' :: 'u' :: 'l' :: 'l' :: rest => some (.null, rest)
    | 't' :: 'r' :: 'u' :: 'e' :: rest => some (.bool true, rest)
    | 'f' :: 'a' :: 'l' :: 's' :: 'e' :: rest => some (.bool false, rest)
    | '"' :: rest => (stringRest rest).map (fun p => (.string p.1, p.2))
    | '[' :: rest =>
      match skipSpace rest with
      | ']' :: rest => some (.array [], rest)
      | rest => (itemsAt fuel rest).map (fun p => (.array p.1, p.2))
    | '\x7b' :: rest =>
      match skipSpace rest with
      | '\x7d' :: rest => some (.object [], rest)
      | rest => (membersAt fuel rest).map (fun p => (.object p.1, p.2))
    | rest => (numeral? rest).map (fun p => (.number p.1, p.2))

/-- The items of an array that has at least one more, up to its closing bracket. -/
def itemsAt : (fuel : Nat) → List Char → Option (List Tree × List Char)
  | 0, _ => none
  | fuel + 1, s => do
    let (x, rest) ← valueAt fuel s
    match skipSpace rest with
    | ',' :: rest =>
      let (xs, rest) ← itemsAt fuel rest
      return (x :: xs, rest)
    | ']' :: rest => return ([x], rest)
    | _ => none

/-- The members of an object that has at least one more, up to its closing brace. -/
def membersAt : (fuel : Nat) → List Char → Option (List (Option String × Tree) × List Char)
  | 0, _ => none
  | fuel + 1, s =>
    match skipSpace s with
    | '"' :: rest => do
      let (name, rest) ← stringRest rest
      match skipSpace rest with
      | ':' :: rest =>
        let (x, rest) ← valueAt fuel rest
        match skipSpace rest with
        | ',' :: rest =>
          let (xs, rest) ← membersAt fuel rest
          return ((name, x) :: xs, rest)
        | '\x7d' :: rest => return ([(name, x)], rest)
        | _ => none
      | _ => none
    | _ => none

end

/-- The tree of a whole text. -/
def Tree.read? (text : String) : Option Tree :=
  let s := text.toList
  match valueAt (2 * s.length + 2) s with
  | some (t, rest) => if (skipSpace rest).isEmpty then some t else none
  | none => none

/-- The value of a whole text. -/
def read? (text : String) : Option Json := (Tree.read? text).bind (Tree.value? Tree.depthLimit)

end MessageFlow.Json
