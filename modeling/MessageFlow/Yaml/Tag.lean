import MessageFlow.Yaml.Character

/-!
Tags, which name the types of nodes. In the text of a tag a percent sign and two hexadecimal digits
stand for a byte. The bytes have the shape of UTF-8 but need not be text, and a zero byte ends a tag.
-/

namespace MessageFlow.Yaml

structure Tag where
  bytes : List UInt8
deriving DecidableEq, Inhabited

namespace Tag

def ofString (s : String) : Tag := ⟨s.toUTF8.toList⟩

/-- The tag of some bytes, which goes up to the first zero byte. -/
def ofBytes (bytes : List UInt8) : Tag := ⟨bytes.takeWhile (· ≠ 0)⟩

def append (t u : Tag) : Tag := ⟨t.bytes ++ u.bytes⟩

/-- How the tags of the types known to all start. -/
def coreStart : Tag := ofString "tag:yaml.org,2002:"

def core (name : String) : Tag := coreStart.append (ofString name)

/-- Whether a tag is meant for one document or one reader; it starts with an exclamation mark. -/
def isLocal (t : Tag) : Bool := t.bytes.head? == some 0x21

/-- The name of a local tag behind its exclamation mark, which alone is its own name. Bytes that are no
text name nothing. -/
def localName? (t : Tag) : Option String :=
  if !t.isLocal then none
  else match t.bytes.drop 1 with
    | [] => some "!"
    | name => String.fromUTF8? ⟨name.toArray⟩

end Tag

/-! Tags as they are written -/

/-- A handle of a tag and what stands behind it; without a handle that is the tag itself. -/
structure TagText where
  handle : String
  suffix : Tag
deriving DecidableEq, Inhabited

/-- Characters of a tag besides those of names. The last three may only stand between angle brackets. -/
def isTagChar (verbatim : Bool) (c : Char) : Bool :=
  isWordChar c || ";/?:@&=+$.!~*'()".toList.contains c || (verbatim && [',', '[', ']'].contains c)

/-- How many bytes follow the first byte of a character. -/
def continuation? (b : Nat) : Option Nat :=
  if b < 0x80 then some 0
  else if 0xC0 ≤ b ∧ b < 0xE0 then some 1
  else if 0xE0 ≤ b ∧ b < 0xF0 then some 2
  else if 0xF0 ≤ b ∧ b < 0xF8 then some 3
  else none

/-- The bytes of a tag behind `bytes`, which stand with the last first; `missing` bytes of a character
are still to come. -/
def tagBytes (verbatim : Bool) (s : List Char) (missing : Nat) (bytes : List UInt8) :
    Option (List UInt8 × List Char) :=
  match s with
  | '%' :: a :: b :: rest =>
    match Json.hexValue? a, Json.hexValue? b with
    | some a, some b =>
      let byte := a * 16 + b
      match missing with
      | 0 =>
        match continuation? byte with
        | some more => tagBytes verbatim rest more (byte.toUInt8 :: bytes)
        | none => none
      | more + 1 =>
        if byte < 0x80 ∨ 0xC0 ≤ byte then none
        else tagBytes verbatim rest more (byte.toUInt8 :: bytes)
    | _, _ => none
  | c :: rest =>
    if missing ≠ 0 ∨ c = '%' then none
    else if isTagChar verbatim c then tagBytes verbatim rest 0 (c.toNat.toUInt8 :: bytes)
    else some (bytes.reverse, c :: rest)
  | [] => if missing = 0 then some (bytes.reverse, []) else none

/-- A tag of one character at least. -/
def tagOf? (verbatim : Bool) (s : List Char) : Option (Tag × List Char) := do
  let (bytes, rest) ← tagBytes verbatim s 0 []
  guard (rest.length < s.length)
  return (.ofBytes bytes, rest)

/-- A handle: an exclamation mark, a word, and possibly another exclamation mark. -/
def tagHandle? : List Char → Option (List Char × List Char)
  | '!' :: rest =>
    let word := rest.takeWhile isWordChar
    match rest.dropWhile isWordChar with
    | '!' :: rest => some ('!' :: word ++ ['!'], rest)
    | rest => some ('!' :: word, rest)
  | _ => none

/-- Whether a handle has both its exclamation marks. -/
def isFullHandle (h : List Char) : Bool := 1 < h.length && h.getLast? == some '!'

/-- A tag, from its exclamation mark on: verbatim in angle brackets, or a handle and a suffix. A tag with
no second exclamation mark is a suffix of the handle `!`; the mark alone has no handle. -/
def tagText? (s : List Char) : Option (TagText × List Char) := do
  match s with
  | '!' :: '<' :: rest =>
    match ← tagOf? true rest with
    | (suffix, '>' :: rest) => return (⟨"", suffix⟩, rest)
    | _ => none
  | _ =>
    let (handle, rest) ← tagHandle? s
    if isFullHandle handle then
      let (suffix, rest) ← tagOf? false rest
      return (⟨String.ofList handle, suffix⟩, rest)
    else
      let word := (handle.drop 1).map (fun c => c.toNat.toUInt8)
      let (bytes, rest) ← tagBytes false rest 0 word.reverse
      let suffix := Tag.ofBytes bytes
      return (if suffix.bytes.isEmpty then ⟨"", .ofString "!"⟩ else ⟨"!", suffix⟩, rest)

end MessageFlow.Yaml
