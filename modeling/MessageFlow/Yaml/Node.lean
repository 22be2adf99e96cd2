import MessageFlow.Yaml.Token

/-!
Trees of YAML documents. A tree is built from tokens with anchors and aliases by name; linking replaces
the names by numbers.
-/

namespace MessageFlow.Yaml

/-- What may stand in front of a node. -/
structure Properties (α : Type) where
  tag : Option Tag := none
  anchor : Option α := none
deriving DecidableEq, Inhabited

/-- A node whose anchors and aliases are of type `α`. -/
inductive Node (α : Type) where
  | alias (target : α)
  | scalar (p : Properties α) (text : String) (plain : Bool)
  | sequence (p : Properties α) (items : List (Node α))
  | mapping (p : Properties α) (entries : List (Node α × Node α))
deriving Inhabited

namespace Node
variable {α : Type}

/-- A node that is left out. -/
def empty : Node α := .scalar {} "" true

/-! From tokens to trees -/

/-- Handles of tags and what they stand for. -/
abbrev Handles := List (String × Tag)

def standardHandles : Handles := [("!", .ofString "!"), ("!!", .coreStart)]

/-- The tag of its text. -/
def fullTag? (handles : Handles) (t : TagText) : Option Tag :=
  if t.handle = "" then some t.suffix else (Dict.find t.handle handles).map (·.append t.suffix)

/-- An anchor and a tag, in either order, and what follows them. -/
def properties? (handles : Handles) :
    List Token → Option (Properties String × List Token)
  | .anchor a :: .tag t :: rest => do return (⟨some (← fullTag? handles t), some a⟩, rest)
  | .anchor a :: rest => some (⟨none, some a⟩, rest)
  | .tag t :: .anchor a :: rest => do return (⟨some (← fullTag? handles t), some a⟩, rest)
  | .tag t :: rest => do return (⟨some (← fullTag? handles t), none⟩, rest)
  | rest => some ({}, rest)

/-- Whether the next token is one of some kinds. -/
def nextIn (kinds : List Token) (ts : List Token) : Bool := ts.head?.any kinds.contains

/-- Where a node may stand: blocks may start there, and sequences that are not indented. -/
structure Context where
  block : Bool
  indentless : Bool

def Context.flow : Context := ⟨false, false⟩
def Context.item : Context := ⟨true, false⟩
def Context.entry : Context := ⟨true, true⟩

mutual

/-- A node, in a number of steps. -/
def read? (handles : Handles) (steps : Nat) (c : Context) (ts : List Token) :
    Option (Node String × List Token) :=
  match steps with
  | 0 => none
  | steps + 1 =>
    match ts with
    | .alias a :: rest => some (.alias a, rest)
    | _ => do
      let (p, ts) ← properties? handles ts
      match ts with
      | .scalar text plain :: rest => return (.scalar p text plain, rest)
      | .flowSequenceStart :: rest =>
        let (items, rest) ← flowItems? handles steps true rest
        return (.sequence p items, rest)
      | .flowMappingStart :: rest =>
        let (entries, rest) ← flowEntries? handles steps true rest
        return (.mapping p entries, rest)
      | _ =>
        match c, ts with
        | ⟨_, true⟩, .blockEntry :: _ =>
          let (items, rest) ← indentlessItems? handles steps ts
          return (.sequence p items, rest)
        | ⟨true, _⟩, .blockSequenceStart :: rest =>
          let (items, rest) ← blockItems? handles steps rest
          return (.sequence p items, rest)
        | ⟨true, _⟩, .blockMappingStart :: rest =>
          let (entries, rest) ← blockEntries? handles steps rest
          return (.mapping p entries, rest)
        | _, _ => if p = {} then none else return (.scalar p "" true, ts)

/-- A node, or an empty one in front of tokens that cannot start a node. -/
def readOr? (handles : Handles) (steps : Nat) (c : Context) (stops : List Token) (ts : List Token) :
    Option (Node String × List Token) :=
  match steps with
  | 0 => none
  | steps + 1 => if nextIn stops ts then some (empty, ts) else read? handles steps c ts

/-- The items of a sequence in a block of its own. -/
def blockItems? (handles : Handles) (steps : Nat) (ts : List Token) :
    Option (List (Node String) × List Token) :=
  match steps, ts with
  | steps + 1, .blockEntry :: rest => do
    let (x, rest) ← readOr? handles steps .item [.blockEntry, .blockEnd] rest
    let (xs, rest) ← blockItems? handles steps rest
    return (x :: xs, rest)
  | _, .blockEnd :: rest => some ([], rest)
  | _, _ => none

/-- The items of a sequence that stands in a mapping without indentation of its own. -/
def indentlessItems? (handles : Handles) (steps : Nat) (ts : List Token) :
    Option (List (Node String) × List Token) :=
  match steps, ts with
  | steps + 1, .blockEntry :: rest => do
    let (x, rest) ← readOr? handles steps .item [.blockEntry, .key, .value, .blockEnd] rest
    let (xs, rest) ← indentlessItems? handles steps rest
    return (x :: xs, rest)
  | 0, _ => none
  | _, ts => some ([], ts)

/-- The entries of a mapping in a block. A value may be left out. -/
def blockEntries? (handles : Handles) (steps : Nat) (ts : List Token) :
    Option (List (Node String × Node String) × List Token) :=
  match steps, ts with
  | steps + 1, .key :: rest => do
    let (k, rest) ← readOr? handles steps .entry [.key, .value, .blockEnd] rest
    let (v, rest) ← match rest with
      | .value :: rest => readOr? handles steps .entry [.key, .value, .blockEnd] rest
      | rest => some (empty, rest)
    let (es, rest) ← blockEntries? handles steps rest
    return ((k, v) :: es, rest)
  | _, .blockEnd :: rest => some ([], rest)
  | _, _ => none

/-- The items of a sequence in brackets. An item with a key is a mapping of one entry; where the key is
left out, the token in its place is passed over. -/
def flowItems? (handles : Handles) (steps : Nat) (first : Bool) (ts : List Token) :
    Option (List (Node String) × List Token) :=
  match steps with
  | 0 => none
  | steps + 1 =>
    match first, ts with
    | _, .flowSequenceEnd :: rest => some ([], rest)
    | false, .flowEntry :: .flowSequenceEnd :: rest => some ([], rest)
    | true, ts => flowItem? handles steps ts
    | false, .flowEntry :: rest => flowItem? handles steps rest
    | false, _ => none

/-- One item of a sequence in brackets, and those behind it. -/
def flowItem? (handles : Handles) (steps : Nat) (ts : List Token) :
    Option (List (Node String) × List Token) :=
  match steps, ts with
  | 0, _ => none
  | steps + 1, .key :: rest => do
    let (k, rest) ←
      if nextIn [.value, .flowEntry, .flowSequenceEnd] rest then some (empty, rest.drop 1)
      else read? handles steps .flow rest
    let (v, rest) ← match rest with
      | .value :: rest => readOr? handles steps .flow [.flowEntry, .flowSequenceEnd] rest
      | rest => some (empty, rest)
    let (xs, rest) ← flowItems? handles steps false rest
    return (.mapping {} [(k, v)] :: xs, rest)
  | steps + 1, ts => do
    let (x, rest) ← read? handles steps .flow ts
    let (xs, rest) ← flowItems? handles steps false rest
    return (x :: xs, rest)

/-- The entries of a mapping in braces. -/
def flowEntries? (handles : Handles) (steps : Nat) (first : Bool) (ts : List Token) :
    Option (List (Node String × Node String) × List Token) :=
  match steps with
  | 0 => none
  | steps + 1 =>
    match first, ts with
    | _, .flowMappingEnd :: rest => some ([], rest)
    | false, .flowEntry :: .flowMappingEnd :: rest => some ([], rest)
    | true, ts => flowPair? handles steps ts
    | false, .flowEntry :: rest => flowPair? handles steps rest
    | false, _ => none

/-- One entry of a mapping in braces, and those behind it. A node without a key mark has no value. -/
def flowPair? (handles : Handles) (steps : Nat) (ts : List Token) :
    Option (List (Node String × Node String) × List Token) :=
  match steps, ts with
  | 0, _ => none
  | steps + 1, .key :: rest => do
    let (k, rest) ← readOr? handles steps .flow [.value, .flowEntry, .flowMappingEnd] rest
    let (v, rest) ← match rest with
      | .value :: rest => readOr? handles steps .flow [.flowEntry, .flowMappingEnd] rest
      | rest => some (empty, rest)
    let (es, rest) ← flowEntries? handles steps false rest
    return ((k, v) :: es, rest)
  | steps + 1, ts => do
    let (k, rest) ← read? handles steps .flow ts
    let (es, rest) ← flowEntries? handles steps false rest
    return ((k, empty) :: es, rest)

end

/-! Documents -/

/-- The directives in front of a document: at most one version, which is 1.1 or 1.2, and no handle
twice. -/
def directives? (version : Bool) (handles : Handles) : List Token → Option (Handles × List Token)
  | .versionDirective major minor :: rest =>
    if version || major != 1 || !(minor = 1 || minor = 2) then none else directives? true handles rest
  | .tagDirective handle start :: rest =>
    if (Dict.find handle handles).isSome then none
    else directives? version (handles ++ [(handle, start)]) rest
  | rest => some (handles ++ standardHandles, rest)

/-- A node of the outermost level. Every token gives rise to a few steps only. -/
def root? (handles : Handles) (ts : List Token) : Option (Node String × List Token) :=
  read? handles (4 * ts.length + 4) .item ts

def isDirective : Token → Bool
  | .versionDirective _ _ | .tagDirective _ _ => true
  | _ => false

/-- Whether a document that is opened by a mark holds nothing. -/
def isBare : List Token → Bool
  | [] => true
  | t :: _ => isDirective t || t == .documentStart || t == .documentEnd

/-- The first document, and what follows it. -/
def document? (ts : List Token) : Option (Node String × List Token) :=
  if nextIn [.documentStart] ts || ts.head?.any isDirective then do
    let (handles, rest) ← directives? false [] ts
    match rest with
    | .documentStart :: rest => if isBare rest then return (empty, rest) else root? handles rest
    | _ => none
  else if ts.isEmpty then none
  else root? standardHandles ts

/-- The tree of a text with one document. -/
def ofText? (s : String) : Option (Node String) := do
  let (n, rest) ← document? (← tokens? s)
  guard (rest.all (· == .documentEnd))
  return n

/-! Linking -/

/-- The anchors seen so far, the latest first, each with its number. -/
abbrev Anchors := List (String × Nat)

/-- Number an anchor by how many names are in use before it; a name used again counts itself. -/
def linkProperties (known : Anchors) (p : Properties String) : Properties Nat × Anchors :=
  match p.anchor with
  | none => (⟨p.tag, none⟩, known)
  | some a =>
    let n := (known.map (·.1)).eraseDups.length
    (⟨p.tag, some n⟩, (a, n) :: known)

mutual

/-- Replace names by numbers, in the order of the text. An alias needs an anchor before it. -/
def link? (known : Anchors) : Node String → Option (Node Nat × Anchors)
  | .alias a => (Dict.find a known).map (fun n => (.alias n, known))
  | .scalar p text plain =>
    let (p, known) := linkProperties known p
    some (.scalar p text plain, known)
  | .sequence p items =>
    let (p, known) := linkProperties known p
    (linkItems? known items).map (fun r => (.sequence p r.1, r.2))
  | .mapping p entries =>
    let (p, known) := linkProperties known p
    (linkEntries? known entries).map (fun r => (.mapping p r.1, r.2))

def linkItems? (known : Anchors) : List (Node String) → Option (List (Node Nat) × Anchors)
  | [] => some ([], known)
  | x :: xs => do
    let (x, known) ← link? known x
    let (xs, known) ← linkItems? known xs
    return (x :: xs, known)

def linkEntries? (known : Anchors) :
    List (Node String × Node String) → Option (List (Node Nat × Node Nat) × Anchors)
  | [] => some ([], known)
  | (k, v) :: es => do
    let (k, known) ← link? known k
    let (v, known) ← link? known v
    let (es, known) ← linkEntries? known es
    return ((k, v) :: es, known)

end

def properties : Node α → Properties α
  | .alias _ => {}
  | .scalar p _ _ | .sequence p _ | .mapping p _ => p

mutual

/-- The nodes with anchors, in the order of the text. -/
def anchored (n : Node α) : List (α × Node α) :=
  (n.properties.anchor.map (fun a => (a, n))).toList ++
    match n with
    | .sequence _ items => anchoredItems items
    | .mapping _ entries => anchoredEntries entries
    | _ => []

def anchoredItems : List (Node α) → List (α × Node α)
  | [] => []
  | x :: xs => x.anchored ++ anchoredItems xs

def anchoredEntries : List (Node α × Node α) → List (α × Node α)
  | [] => []
  | (k, v) :: es => k.anchored ++ v.anchored ++ anchoredEntries es

end

mutual

/-- How much of a text a node takes: one for a scalar or alias, and two more for each collection. -/
def weight : Node α → Nat
  | .alias _ | .scalar _ _ _ => 1
  | .sequence _ items => weightItems items + 2
  | .mapping _ entries => weightEntries entries + 2

def weightItems : List (Node α) → Nat
  | [] => 0
  | x :: xs => x.weight + weightItems xs

def weightEntries : List (Node α × Node α) → Nat
  | [] => 0
  | (k, v) :: es => k.weight + v.weight + weightEntries es

end

end Node
end MessageFlow.Yaml
