import MessageFlow.Json.Tree

/-!
What a reader of records needs from a document, whatever its format: texts, lists, records and free
values. A record's fields may be spelled by aliases; a field given twice, under whichever names, makes
the record unreadable, and unknown fields are passed over.
-/

namespace MessageFlow

/-- How a document format presents its nodes. Every look at a node may fail, with the effects of `m`. -/
class DocumentNode (m : outParam (Type → Type)) (ν : Type) where
  /-- The text of a node that spells one. -/
  text? : ν → m String
  /-- An optional node: present, or marked as absent. -/
  optional? : ν → m (Option ν)
  items? : ν → m (List ν)
  /-- The fields of a record with the given names, in any order. -/
  fields? : List String → ν → m (List (String × ν))
  entries? : ν → m (List (String × ν))
  /-- The name of a choice among names without content. -/
  variant? : ν → m String
  value? : ν → m Json

/-- A field of a record: its name, and other spellings of it. -/
structure Field where
  name : String
  aliases : List String := []

namespace DocumentNode
variable {m : Type → Type} [Monad m] [MonadExcept Unit m] {ν α : Type} [DocumentNode m ν]

/-- A result if there is one, and a failure without a reason otherwise. -/
def orFail : Option α → m α
  | some a => pure a
  | none => throw ()

/-- The name of the field that a spelling means. -/
def fieldName? (fields : List Field) (spelling : String) : Option String :=
  (fields.find? (fun f => f.name = spelling || f.aliases.contains spelling)).map (·.name)

/-- The known fields of a record, under their names. -/
def record? (fields : List Field) (n : ν) : m (List (String × ν)) := do
  let given ← fields? (fields.map (·.name)) n
  let known := given.filterMap (fun p => (fieldName? fields p.1).map (fun name => (name, p.2)))
  if (known.map (·.1)).Nodup then return known else throw ()

/-- A field that must be there. -/
def required? (read : ν → m α) (name : String) (r : List (String × ν)) : m α := do
  read (← orFail (Dict.find name r))

/-- A field that stands for a default when it is left out. -/
def defaulted? (read : ν → m α) (default : α) (name : String) (r : List (String × ν)) : m α :=
  match Dict.find name r with
  | some n => read n
  | none => pure default

/-- A text that means something. -/
def parsed? (parse : String → Option α) (n : ν) : m α := do orFail (parse (← text? n))

def optionalText? (n : ν) : m (Option String) := do
  match ← optional? n with
  | some present => return some (← text? present)
  | none => return none

def list? (read : ν → m α) (n : ν) : m (List α) := do (← items? n).mapM read

/-- Named values; of two under one name the later counts. -/
def values? (n : ν) : m (Dict Json) := do
  let es ← (← entries? n).mapM (fun p => do return (p.1, ← value? p.2))
  return Dict.ofList es

end DocumentNode

namespace Json

/-- A place in a JSON text, with the levels of nesting still allowed below it. -/
structure Place where
  tree : Tree
  depth : Nat

namespace Place

def root (t : Tree) : Place := ⟨t, Tree.depthLimit⟩

def named? (depth : Nat) (members : List (Option String × Tree)) : Option (List (String × Place)) :=
  members.mapM (fun m => m.1.map (fun name => (name, ⟨m.2, depth⟩)))

def below? (p : Place) : Option Nat := Tree.enter? p.depth

/-- The members of an object. -/
def members? (p : Place) : Option (List (String × Place)) :=
  match p.tree with
  | .object ms => do named? (← p.below?) ms
  | _ => none

/-- A record is an object, or an array of its fields in order with fields left out at the end. -/
def recordFields? (names : List String) (p : Place) : Option (List (String × Place)) :=
  match p.tree with
  | .array xs => do
    let d ← p.below?
    guard (xs.length ≤ names.length)
    return names.zip (xs.map (⟨·, d⟩))
  | _ => p.members?

/-- A choice is its name, or an object whose one member has the name and no content. -/
def choiceName? (p : Place) : Option String :=
  match p.tree with
  | .string s => s
  | .object [(name, .null)] => do
    let _ ← p.below?
    name
  | _ => none

instance : DocumentNode Option Place where
  text? p := match p.tree with
    | .string s => s
    | _ => none
  optional? p := match p.tree with
    | .null => some none
    | _ => some (some p)
  items? p := match p.tree with
    | .array xs => (p.below?).map (fun d => xs.map (⟨·, d⟩))
    | _ => none
  fields? := recordFields?
  entries? := members?
  variant? := choiceName?
  value? p := p.tree.value? p.depth

end Place
end Json
end MessageFlow
