import MessageFlow.DocumentNode
import MessageFlow.Yaml.Value

/-!
Reading records from YAML documents. Aliases are followed where a value is taken, never where it is
passed over, and only so many of them in one document.
-/

namespace MessageFlow.Yaml

/-- A reading, with the number of aliases that may still be followed. -/
abbrev Reading := StateT Nat Option

/-- A place in a document: a node, the nodes with anchors, and the levels of nesting still allowed below
the node. -/
structure Place where
  node : Node Nat
  anchored : List (Nat × Node Nat)
  depth : Nat

namespace Place

def depthLimit : Nat := 128

/-- The node that an alias means; of two under one number the later. -/
def targetOf? (anchored : List (Nat × Node Nat)) (id : Nat) : Option (Node Nat) :=
  (anchored.reverse.find? (fun p => p.1 = id)).map (·.2)

/-- The place itself, or the place that its alias means. -/
def follow (p : Place) : Reading Place :=
  match p.node with
  | .alias id => do
    match ← get with
    | 0 => failure
    | left + 1 =>
      set left
      return { p with node := ← (targetOf? p.anchored id).getM }
  | _ => pure p

def below? (p : Place) : Option Nat :=
  match p.depth with
  | 0 => none
  | depth + 1 => some depth

/-- The raw text of a scalar, whatever its style and tag. -/
def text? (p : Place) : Reading String := do
  match (← p.follow).node with
  | .scalar _ text _ => return text
  | _ => failure

/-- Whether a scalar says that there is nothing. -/
def isAbsent? (props : Properties Nat) (text : String) (plain : Bool) : Option Bool :=
  if !plain then some false
  else
    match props.tag with
    | none => some (text = "" || isNullText text)
    | some tag =>
      if tag = .core "null" then if isNullText text then some true else none
      else some false

def optional? (p : Place) : Reading (Option Place) := do
  let p ← p.follow
  match p.node with
  | .scalar props text plain => return if ← (isAbsent? props text plain).getM then none else some p
  | _ => return some p

/-- The items of a sequence; a value left out is an empty one. -/
def items? (p : Place) : Reading (List Place) := do
  let p ← p.follow
  match p.node with
  | .sequence _ items =>
    let depth ← p.below?.getM
    return items.map (fun node => { p with node, depth })
  | .scalar _ "" true => return []
  | _ => failure

/-- The entries of a mapping under the texts of their keys; a value left out is an empty one. -/
def entries? (p : Place) : Reading (List (String × Place)) := do
  let p ← p.follow
  match p.node with
  | .mapping _ entries =>
    let depth ← p.below?.getM
    entries.mapM (fun e => do
      return (← text? { p with node := e.1 }, { p with node := e.2, depth }))
  | .scalar _ "" true => return []
  | _ => failure

/-- A choice by its name: the local tag of an empty node, or else the text of a scalar. -/
def variant? (p : Place) : Reading String := do
  let p ← p.follow
  match p.node.properties.tag.bind Tag.localName?, p.node with
  | some name, .scalar _ text plain =>
    guard (plain && (text = "" || isNullText text))
    return name
  | none, .scalar _ text _ => return text
  | _, _ => failure

/-- The value of a node, with the values of the nodes inside it given by `inside`. -/
def valueOf (inside : Option (Place → Reading Json)) (p : Place) : Reading Json := do
  let p ← p.follow
  match p.node, inside with
  | .scalar props text plain, _ => (scalarValue? props.tag text plain).getM
  | .sequence props items, some inside =>
    guard (props.tag.bind Tag.localName?).isNone
    return .array (← items.mapM (fun node => inside { p with node }))
  | .mapping props entries, some inside =>
    guard (props.tag.bind Tag.localName?).isNone
    let members ← entries.mapM (fun e => do
      return (← text? { p with node := e.1 }, ← inside { p with node := e.2 }))
    return Json.ofMembers members
  | _, _ => failure

/-- The value of a node, with a number of levels of nesting. -/
def valueWithin : (depth : Nat) → Place → Reading Json
  | 0 => valueOf none
  | depth + 1 => valueOf (some (valueWithin depth))

instance : DocumentNode Reading Place where
  text? := text?
  optional? := optional?
  items? := items?
  fields? _ := entries?
  entries? := entries?
  variant? := variant?
  value? p := valueWithin p.depth p

end Place

/-- What a reader makes of the one document of a text. A hundred aliases may be followed for each part of
the document. -/
def readText? {α : Type} (read : Place → Reading α) (s : String) : Option α := do
  let (node, _) ← Node.link? [] (← Node.ofText? s)
  let p : Place := { node, anchored := node.anchored, depth := Place.depthLimit }
  let (a, _) ← (read p).run (100 * node.weight)
  return a

end MessageFlow.Yaml
