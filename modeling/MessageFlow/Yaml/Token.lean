import MessageFlow.Yaml.Scalar
import MessageFlow.Yaml.Tag

/-!
Tokens of YAML. Indentation is turned into tokens that open and close blocks. A simple key is known as a
key only when its colon is reached; its tokens are then put in at the place where it started.
-/

namespace MessageFlow.Yaml

inductive Token where
  | versionDirective (major minor : Nat)
  | tagDirective (handle : String) (start : Tag)
  | documentStart
  | documentEnd
  | blockSequenceStart
  | blockMappingStart
  | blockEnd
  | flowSequenceStart
  | flowSequenceEnd
  | flowMappingStart
  | flowMappingEnd
  | blockEntry
  | flowEntry
  | key
  | value
  | alias (name : String)
  | anchor (name : String)
  | tag (t : TagText)
  | scalar (text : String) (plain : Bool)
deriving DecidableEq, Inhabited

/-! Words of directives and anchors -/

/-- A number of a version, with nine digits at most. -/
def versionNumber? (s : List Char) : Option (Nat × List Char) :=
  let ds := s.takeWhile Text.isDigit
  if ds.isEmpty ∨ 9 < ds.length then none
  else some (Text.digitsValue ds 0, s.dropWhile Text.isDigit)

def versionDirective? (s : List Char) : Option (Token × List Char) := do
  let (major, rest) ← versionNumber? (s.dropWhile isBlank)
  match rest with
  | '.' :: rest =>
    let (minor, rest) ← versionNumber? rest
    return (.versionDirective major minor, rest)
  | _ => none

def tagDirective? (s : List Char) : Option (Token × List Char) := do
  let (handle, rest) ← tagHandle? (s.dropWhile isBlank)
  guard (isFullHandle handle ∨ handle = ['!'])
  guard (rest.head?.any isBlank)
  let (start, rest) ← tagOf? true (rest.dropWhile isBlank)
  guard (endsWord rest)
  return (.tagDirective (String.ofList handle) start, rest)

/-- A directive, from behind its percent sign on. -/
def directive? (s : List Char) : Option (Token × List Char) :=
  let rest := s.dropWhile isWordChar
  if !endsWord rest then none
  else
    match String.ofList (s.takeWhile isWordChar) with
    | "YAML" => versionDirective? rest
    | "TAG" => tagDirective? rest
    | _ => none

/-- The name of an anchor or alias, and what follows it. -/
def anchorName? (s : List Char) : Option (String × List Char) :=
  let name := s.takeWhile isWordChar
  let rest := s.dropWhile isWordChar
  let ended := endsWord rest || rest.head?.any ['?', ':', ',', ']', '}', '%', '@', '\x60'].contains
  if name.isEmpty || !ended then none else some (String.ofList name, rest)

/-! The scanner -/

/-- A place where a simple key may have started: the number of its first token, and whether the text
cannot go on without a key there. -/
structure KeyStart where
  token : Nat
  required : Bool
  place : Cursor

/-- A simple key stands on one line and has 1024 bytes at most. -/
def KeyStart.reaches (k : KeyStart) (c : Cursor) : Bool :=
  k.place.line == c.line && byteLength (k.place.rest.take (c.column - k.place.column)) ≤ 1024

/-- The state of a scanner. The columns of open blocks and the possible keys of open brackets stand with
the innermost first; the last entry of `keys` belongs to the text outside all brackets. -/
structure Scanner where
  cursor : Cursor
  blocks : List Nat := []
  keys : List (Option KeyStart) := [none]
  keyAllowed : Bool := true
  tokens : Array Token := #[]

namespace Scanner

def inFlow (s : Scanner) : Bool := 1 < s.keys.length

/-- The least column of content inside the innermost block. -/
def inner (s : Scanner) : Nat :=
  match s.blocks with
  | [] => 0
  | column :: _ => column + 1

def emit (s : Scanner) (t : Token) : Scanner := { s with tokens := s.tokens.push t }

/-- Put in a token in front of the token of a number. -/
def emitAt (s : Scanner) (n : Nat) (t : Token) : Scanner :=
  { s with tokens := s.tokens.insertIdxIfInBounds n t }

def allowKey (s : Scanner) (b : Bool) : Scanner := { s with keyAllowed := b }

/-- Skip blanks, comments and line breaks, and a byte order mark at the start of a line. Behind a line
break outside brackets a key may start; where a key may start outside brackets no tab is skipped. -/
def skipIgnored (inFlow : Bool) : List Char → (line column : Nat) → (keyAllowed inComment : Bool) →
    Cursor × Bool
  | [], line, column, keyAllowed, _ => (⟨[], line, column⟩, keyAllowed)
  | c :: rest, line, column, keyAllowed, inComment =>
    if isBreak c then skipIgnored inFlow rest (line + 1) 0 (keyAllowed || !inFlow) false
    else if inComment || c == ' ' || (c == '\t' && (inFlow || !keyAllowed)) ||
        (c == '\ufeff' && column == 0) then
      skipIgnored inFlow rest line (column + 1) keyAllowed inComment
    else if c = '#' then skipIgnored inFlow rest line (column + 1) keyAllowed true
    else (⟨c :: rest, line, column⟩, keyAllowed)

/-- Forget a possible key that is out of reach, unless it is needed. -/
def dropStale (c : Cursor) : Option KeyStart → Option (Option KeyStart)
  | none => some none
  | some k => if k.reaches c then some (some k) else if k.required then none else some none

/-- Give up the possible key of the innermost brackets. -/
def removeKey (s : Scanner) : Option Scanner :=
  match s.keys with
  | some k :: outer => if k.required then none else some { s with keys := none :: outer }
  | _ => some s

/-- Note that a simple key may start here. Where a block continues, something else cannot start. -/
def saveKey (s : Scanner) : Option Scanner :=
  if s.keyAllowed then do
    let s ← s.removeKey
    let required := !s.inFlow && s.blocks.head? == some s.cursor.column
    return { s with keys := some ⟨s.tokens.size, required, s.cursor⟩ :: s.keys.drop 1 }
  else some s

/-- Close all blocks whose column is not left of a column. -/
def unroll (s : Scanner) (keep : Nat → Bool) : Scanner :=
  if s.inFlow then s
  else
    let closed := s.blocks.takeWhile (fun column => !keep column)
    { s with
      blocks := s.blocks.dropWhile (fun column => !keep column)
      tokens := s.tokens ++ (closed.map (fun _ => Token.blockEnd)).toArray }

/-- Open a block at a column, unless it is open. Its token goes in front of the token of a number. -/
def roll (s : Scanner) (column number : Nat) (t : Token) : Scanner :=
  if s.inFlow || column < s.inner then s
  else { s.emitAt number t with blocks := column :: s.blocks }

/-- Go to the next token: skip what is between tokens, forget keys that are out of reach, and close the
blocks that end here. -/
def advance (s : Scanner) : Option Scanner := do
  let (cursor, keyAllowed) :=
    skipIgnored s.inFlow s.cursor.rest s.cursor.line s.cursor.column s.keyAllowed false
  let keys ← s.keys.mapM (dropStale cursor)
  return { s with cursor, keyAllowed, keys }.unroll (· ≤ cursor.column)

/-- Take an indicator of `n` characters. -/
def take (s : Scanner) (n : Nat) (t : Token) : Scanner :=
  { s.emit t with cursor := s.cursor.skip n }

/-- A directive or document mark ends everything before it. -/
def closeAll (s : Scanner) : Option Scanner := do
  return (← (s.unroll (fun _ => false)).removeKey).allowKey false

def directive (s : Scanner) : Option Scanner := do
  let s ← s.closeAll
  let (t, rest) ← directive? (s.cursor.rest.drop 1)
  return { s.emit t with cursor := ← lineEnd? (s.cursor.skipTo rest) }

def documentMark (s : Scanner) (t : Token) : Option Scanner := do
  return (← s.closeAll).take 3 t

def openFlow (s : Scanner) (t : Token) : Option Scanner := do
  let s ← s.saveKey
  return ({ s with keys := none :: s.keys }.allowKey true).take 1 t

def closeFlow (s : Scanner) (t : Token) : Option Scanner := do
  let s ← s.removeKey
  let keys := if s.inFlow then s.keys.drop 1 else s.keys
  return ({ s with keys }.allowKey false).take 1 t

def flowEntry (s : Scanner) : Option Scanner := do
  return ((← s.removeKey).allowKey true).take 1 .flowEntry

/-- An indicator of a block, which must not stand behind other content of its line. -/
def blockIndicator (s : Scanner) (opener : Token) : Option Scanner := do
  guard (s.inFlow || s.keyAllowed)
  return s.roll s.cursor.column s.tokens.size opener

def blockEntry (s : Scanner) : Option Scanner := do
  let s ← s.blockIndicator .blockSequenceStart
  return ((← s.removeKey).allowKey true).take 1 .blockEntry

def explicitKey (s : Scanner) : Option Scanner := do
  let s ← s.blockIndicator .blockMappingStart
  return ((← s.removeKey).allowKey !s.inFlow).take 1 .key

/-- A colon: the tokens of the simple key before it are put in, or it follows an explicit key. -/
def value (s : Scanner) : Option Scanner :=
  match s.keys with
  | some k :: outer =>
    let s := { s with keys := none :: outer }.emitAt k.token .key
    some (((s.roll k.place.column k.token .blockMappingStart).allowKey false).take 1 .value)
  | _ => do
    let s ← s.blockIndicator .blockMappingStart
    return (s.allowKey !s.inFlow).take 1 .value

/-- A token behind which no key may start, although it may start one itself. -/
def keyed (s : Scanner) (read : List Char → Option (Token × List Char)) : Option Scanner := do
  let s ← s.saveKey
  let (t, rest) ← read s.cursor.rest
  return { s.emit t with cursor := s.cursor.skipTo rest, keyAllowed := false }

def anchorToken (make : String → Token) (s : List Char) : Option (Token × List Char) :=
  (anchorName? (s.drop 1)).map (fun p => (make p.1, p.2))

/-- A tag ends at a blank or break, and inside brackets also at a comma. -/
def tagToken (inFlow : Bool) (s : List Char) : Option (Token × List Char) := do
  let (t, rest) ← tagText? s
  guard (endsWord rest || (inFlow && rest.head? == some ','))
  return (.tag t, rest)

def blockScalar (s : Scanner) (folded : Bool) : Option Scanner := do
  let s ← s.removeKey
  let r ← scanBlockScalar folded s.inner (s.cursor.skip 1)
  return { s.emit (.scalar r.text false) with cursor := r.next, keyAllowed := true }

def quotedScalar (s : Scanner)
    (scan : List Char → (line column : Nat) → Option Scanned) : Option Scanner := do
  let s ← s.saveKey
  let r ← scan (s.cursor.rest.drop 1) s.cursor.line (s.cursor.column + 1)
  return { s.emit (.scalar r.text false) with cursor := r.next, keyAllowed := false }

/-- A plain scalar. If a line break follows it a key may start there. -/
def plainScalar (s : Scanner) : Option Scanner := do
  let s ← s.saveKey
  let r ← scanPlain s.inFlow s.inner s.cursor.rest s.cursor.line s.cursor.column (.blanks []) []
  return { s.emit (.scalar r.text true) with cursor := r.next, keyAllowed := r.broken }

/-- Characters that start no plain scalar. Some of them do in front of a non-blank character. -/
def startsPlain (inFlow : Bool) (c : Char) (rest : List Char) : Bool :=
  if c = '-' then !rest.head?.any isBlank
  else if c = '?' || c = ':' then !inFlow && !endsWord rest
  else !isBlank c && !isBreak c && !",[]{}#&*!|>'\"%@\x60".toList.contains c

/-- The next token, which starts with the character at the cursor. -/
def token (s : Scanner) (c : Char) (rest : List Char) : Option Scanner :=
  let atStart := s.cursor.column = 0
  if atStart && c = '%' then s.directive
  else if atStart && startsMark (c :: rest) then
    s.documentMark (if c = '-' then .documentStart else .documentEnd)
  else
    match c with
    | '[' => s.openFlow .flowSequenceStart
    | '\x7b' => s.openFlow .flowMappingStart
    | ']' => s.closeFlow .flowSequenceEnd
    | '\x7d' => s.closeFlow .flowMappingEnd
    | ',' => s.flowEntry
    | _ =>
      if c = '-' && endsWord rest then s.blockEntry
      else if c = '?' && (s.inFlow || endsWord rest) then s.explicitKey
      else if c = ':' && (s.inFlow || endsWord rest) then s.value
      else if c = '*' then s.keyed (anchorToken .alias)
      else if c = '&' then s.keyed (anchorToken .anchor)
      else if c = '!' then s.keyed (tagToken s.inFlow)
      else if c = '|' && !s.inFlow then s.blockScalar false
      else if c = '>' && !s.inFlow then s.blockScalar true
      else if c = '\'' then
        s.quotedScalar (fun t line column => scanSingle t line column (.blanks []) [])
      else if c = '"' then
        s.quotedScalar (fun t line column => scanDouble t line column .outside (.blanks []) [])
      else if startsPlain s.inFlow c rest then s.plainScalar
      else none

/-- All tokens. Each but the last step takes a character at least, so the characters bound the steps. -/
def tokens? : (steps : Nat) → Scanner → Option (List Token)
  | 0, _ => none
  | steps + 1, s => do
    let s ← s.advance
    match s.cursor.rest with
    | [] => return (← s.closeAll).tokens.toList
    | c :: rest => (← s.token c rest).tokens? steps

end Scanner

/-- The tokens of a text. -/
def tokens? (s : String) : Option (List Token) :=
  let text := s.toList
  if text.all isAllowed then
    Scanner.tokens? (text.length + 1) { cursor := { rest := unifyBreaks text } }
  else none

end MessageFlow.Yaml
