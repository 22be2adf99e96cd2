import MessageFlow.Yaml.Character

/-!
Scalars in their five styles: plain, in single quotes, in double quotes, and literal or folded blocks.
The scanners here start behind the mark that opens a scalar and give its text.
-/

namespace MessageFlow.Yaml

/-- What stands between two words of a scalar, the last first: blanks on one line, or line breaks. The
first break is kept apart; it is missing where the break was escaped. -/
inductive Gap where
  | blanks (cs : List Char)
  | breaks (first : Option Char) (others : List Char)

namespace Gap

def isEmpty : Gap → Bool
  | .blanks cs => cs.isEmpty
  | .breaks _ _ => false

def isBroken : Gap → Bool
  | .blanks _ => false
  | .breaks _ _ => true

/-- Blanks next to a line break do not count. -/
def addBlank (g : Gap) (c : Char) : Gap :=
  match g with
  | .blanks cs => .blanks (c :: cs)
  | .breaks _ _ => g

def addBreak (g : Gap) (c : Char) : Gap :=
  match g with
  | .blanks _ => .breaks (some c) []
  | .breaks first cs => .breaks first (c :: cs)

/-- Put the gap behind a text, both with the last character first. A single line feed is folded to a
space, and of several the first is dropped. -/
def close (g : Gap) (text : List Char) : List Char :=
  match g with
  | .blanks cs => cs ++ text
  | .breaks (some '\n') [] => ' ' :: text
  | .breaks (some '\n') cs => cs ++ text
  | .breaks first cs => cs ++ first.toList ++ text

end Gap

/-- A scalar that has been scanned, and whether a line break follows its last word. -/
structure Scanned where
  text : String
  next : Cursor
  broken : Bool := false

/-- Inside brackets and braces a colon in front of one of these characters has no meaning. -/
def isMisplacedColon (inFlow : Bool) (c : Char) (rest : List Char) : Bool :=
  inFlow && c == ':' &&
    match rest with
    | d :: _ => [',', '?', '[', ']', '{', '}'].contains d
    | [] => false

/-- Whether a plain scalar ends in front of a character: at a colon that separates, and inside brackets
and braces at their indicators. -/
def endsPlain (inFlow : Bool) (c : Char) (rest : List Char) : Bool :=
  (c == ':' && endsWord rest) || (inFlow && [',', '[', ']', '{', '}'].contains c)

/-- Whether a plain scalar ends in front of a new word: at a comment, at a line that is not indented
enough, and at a document mark. -/
def endsBeforeWord (inFlow : Bool) (indent column : Nat) (g : Gap) (s : List Char) : Bool :=
  (!g.isEmpty && (s.head? == some '#' || (!inFlow && column < indent))) ||
    (column == 0 && startsMark s)

/-- A plain scalar; its lines behind the first are indented by `indent` at least. -/
def scanPlain (inFlow : Bool) (indent : Nat) (s : List Char) (line column : Nat) (g : Gap)
    (text : List Char) : Option Scanned :=
  let stop (rest : List Char) : Scanned :=
    ⟨String.ofList text.reverse, ⟨rest, line, column⟩, g.isBroken⟩
  match s with
  | [] => some (stop [])
  | c :: rest =>
    if isBreak c then scanPlain inFlow indent rest (line + 1) 0 (g.addBreak c) text
    else if isBlank c then
      if g.isBroken && c == '\t' && column < indent then none
      else scanPlain inFlow indent rest line (column + 1) (g.addBlank c) text
    else if endsBeforeWord inFlow indent column g (c :: rest) then some (stop (c :: rest))
    else if isMisplacedColon inFlow c rest then none
    else if endsPlain inFlow c rest then some (stop (c :: rest))
    else scanPlain inFlow indent rest line (column + 1) (.blanks []) (c :: g.close text)

/-- A scalar in single quotes, in which a quote is written twice. -/
def scanSingle (s : List Char) (line column : Nat) (g : Gap) (text : List Char) : Option Scanned :=
  match s with
  | [] => none
  | '\'' :: '\'' :: rest => scanSingle rest line (column + 2) (.blanks []) ('\'' :: g.close text)
  | '\'' :: rest => some ⟨String.ofList (g.close text).reverse, ⟨rest, line, column + 1⟩, false⟩
  | c :: rest =>
    if isBreak c then scanSingle rest (line + 1) 0 (g.addBreak c) text
    else if isBlank c then scanSingle rest line (column + 1) (g.addBlank c) text
    else if column = 0 && startsMark (c :: rest) then none
    else scanSingle rest line (column + 1) (.blanks []) (c :: g.close text)

/-- Where a scanner stands inside an escape: nowhere, behind the backslash, or among hexadecimal digits
of which so many are missing. -/
inductive EscapeState where
  | outside
  | opened
  | digits (missing value : Nat)

/-- The character that an escape of one letter means. -/
def escapedChar? : Char → Option Char
  | '0' => some (Char.ofNat 0)
  | 'a' => some (Char.ofNat 7)
  | 'b' => some (Char.ofNat 8)
  | 't' => some '\t'
  | '\t' => some '\t'
  | 'n' => some '\n'
  | 'v' => some (Char.ofNat 11)
  | 'f' => some (Char.ofNat 12)
  | 'r' => some '\r'
  | 'e' => some (Char.ofNat 27)
  | ' ' => some ' '
  | '"' => some '"'
  | '/' => some '/'
  | '\\' => some '\\'
  | 'N' => some (Char.ofNat 0x85)
  | '_' => some (Char.ofNat 0xA0)
  | 'L' => some (Char.ofNat 0x2028)
  | 'P' => some (Char.ofNat 0x2029)
  | _ => none

/-- How many hexadecimal digits follow a letter. -/
def digitCount? : Char → Option Nat
  | 'x' => some 2
  | 'u' => some 4
  | 'U' => some 8
  | _ => none

/-- The character of a code point; surrogates and numbers beyond the last one have none. -/
def charOf? (n : Nat) : Option Char := if n.isValidChar then some (Char.ofNat n) else none

/-- A scalar in double quotes, with escapes behind backslashes. An escaped line break joins two lines. -/
def scanDouble (s : List Char) (line column : Nat) (e : EscapeState) (g : Gap) (text : List Char) :
    Option Scanned :=
  match s with
  | [] => none
  | c :: rest =>
    match e with
    | .outside =>
      if isBreak c then scanDouble rest (line + 1) 0 .outside (g.addBreak c) text
      else if isBlank c then scanDouble rest line (column + 1) .outside (g.addBlank c) text
      else if column = 0 && startsMark (c :: rest) then none
      else if c = '"' then some ⟨String.ofList (g.close text).reverse, ⟨rest, line, column + 1⟩, false⟩
      else if c = '\\' then scanDouble rest line (column + 1) .opened (.blanks []) (g.close text)
      else scanDouble rest line (column + 1) .outside (.blanks []) (c :: g.close text)
    | .opened =>
      if isBreak c then scanDouble rest (line + 1) 0 .outside (.breaks none []) text
      else
        match digitCount? c, escapedChar? c with
        | some n, _ => scanDouble rest line (column + 1) (.digits n 0) g text
        | none, some d => scanDouble rest line (column + 1) .outside g (d :: text)
        | none, none => none
    | .digits missing value =>
      match Json.hexValue? c with
      | none => none
      | some d =>
        let value := value * 16 + d
        if missing ≤ 1 then
          match charOf? value with
          | some x => scanDouble rest line (column + 1) .outside g (x :: text)
          | none => none
        else scanDouble rest line (column + 1) (.digits (missing - 1) value) g text

/-! Blocks -/

/-- What becomes of the line breaks at the end of a block. -/
inductive Chomping where
  | strip
  | clip
  | keep
deriving DecidableEq

/-- The head of a block: how it ends, and by how much it is indented if that is written. -/
structure BlockHead where
  chomping : Chomping := .clip
  indent : Option Nat := none

def chompingOf? : Char → Option Chomping
  | '+' => some .keep
  | '-' => some .strip
  | _ => none

/-- The digit of an indentation; zero is none. -/
def indentDigit? (c : Char) : Option Nat :=
  if Text.isDigit c && c != '0' then some (Text.digitValue c) else none

/-- The indicators of a block in either order, and what follows them; a zero stays and is refused with
all else that is no end of a line. -/
def blockHead (s : List Char) : BlockHead × List Char :=
  match s with
  | c :: rest =>
    match chompingOf? c, indentDigit? c with
    | some ch, _ =>
      match rest with
      | d :: rest' =>
        match indentDigit? d with
        | some n => ({ chomping := ch, indent := some n }, rest')
        | none => ({ chomping := ch }, rest)
      | [] => ({ chomping := ch }, [])
    | none, some n =>
      match rest with
      | d :: rest' =>
        match chompingOf? d with
        | some ch => ({ chomping := ch, indent := some n }, rest')
        | none => ({ indent := some n }, rest)
      | [] => ({ indent := some n }, [])
    | none, none => ({}, s)
  | [] => ({}, [])

/-- The column at which the first line with content starts, or the largest one before if that is larger.
A tab in front of the content is refused. -/
def detectIndent : List Char → (column widest : Nat) → Option Nat
  | [], column, widest => some (max column widest)
  | c :: rest, column, widest =>
    if c = ' ' then detectIndent rest (column + 1) widest
    else if c = '\t' then none
    else if isBreak c then detectIndent rest 0 (max column widest)
    else some (max column widest)

/-- The lines of a block read so far, everything with the last character first: the text, the break
behind its last line, the breaks of the empty lines after that, and whether the last line starts with a
blank. -/
structure BlockLines where
  text : List Char := []
  last : List Char := []
  empty : List Char := []
  blank : Bool := false

namespace BlockLines

/-- Start a new line of content with a character. In a folded block the break between two lines becomes
a space, unless one of them starts with a blank or empty lines stand between. -/
def startLine (b : BlockLines) (folded : Bool) (c : Char) : BlockLines :=
  let joint :=
    if folded && b.last == ['\n'] && !b.blank && !isBlank c then
      if b.empty.isEmpty then [' '] else []
    else b.last
  { text := c :: (b.empty ++ joint ++ b.text), blank := isBlank c }

def finish (b : BlockLines) : Chomping → String
  | .strip => String.ofList b.text.reverse
  | .clip => String.ofList (b.last ++ b.text).reverse
  | .keep => String.ofList (b.empty ++ b.last ++ b.text).reverse

end BlockLines

/-- The lines of a block that is indented by `indent`. The block ends in front of the first line that is
indented less; a tab in the place of an indentation is refused. -/
def scanBlock (folded : Bool) (indent : Nat) (s : List Char) (line column : Nat) (inLine : Bool)
    (b : BlockLines) : Option (BlockLines × Cursor) :=
  match s with
  | [] => some (b, ⟨[], line, column⟩)
  | c :: rest =>
    if inLine then
      if isBreak c then scanBlock folded indent rest (line + 1) 0 false { b with last := [c] }
      else scanBlock folded indent rest line (column + 1) true { b with text := c :: b.text }
    else if c = ' ' ∧ column < indent then scanBlock folded indent rest line (column + 1) false b
    else if c = '\t' ∧ column < indent then none
    else if isBreak c then
      scanBlock folded indent rest (line + 1) 0 false { b with empty := c :: b.empty }
    else if column < indent then some (b, ⟨c :: rest, line, column⟩)
    else scanBlock folded indent rest line (column + 1) true (b.startLine folded c)

/-- Behind blanks and a comment, at the end of the line. -/
def lineEnd? (c : Cursor) : Option Cursor :=
  let c := c.skipWhile isBlank
  let c := match c.rest with
    | '#' :: _ => c.skipWhile (fun x => !isBreak x)
    | _ => c
  match c.rest with
  | [] => some c
  | x :: _ => if isBreak x then some c.skipBreak else none

/-- A block from behind its indicator on, inside blocks whose content is indented by `outer` at least. -/
def scanBlockScalar (folded : Bool) (outer : Nat) (c : Cursor) : Option Scanned := do
  let (head, rest) := blockHead c.rest
  let start ← lineEnd? (c.skipTo rest)
  let indent ← match head.indent with
    | some n => some (outer - 1 + n)
    | none => (detectIndent start.rest 0 0).map (fun n => max n (max outer 1))
  let (b, next) ← scanBlock folded indent start.rest start.line 0 false {}
  return { text := b.finish head.chomping, next }

end MessageFlow.Yaml
