import MessageFlow.DocumentNode
import MessageFlow.Message.Error
import MessageFlow.Message.Timestamp
import MessageFlow.Message.Uuid

/-!
Messages: a body, headers that belong to the stages, properties that belong to the engine, and the last
failure. Of the properties the engine uses one, the choice match: the ids of the stages that the last
choice selected, joined by commas.
-/

namespace MessageFlow

structure Message where
  id : Uuid
  createdAt : Timestamp
  body : Json := .null
  headers : Dict Json := .empty
  properties : Dict Json := .empty
  error : Option ExchangeError := none
deriving Inhabited

/-- The property that holds the choice match. -/
def choiceMatchKey : String := "routeflow.choice-match"

/-- The separator between the ids of a choice match. -/
def matchDelimiter : Char := ','

namespace Message
variable {m : Message} {name key : String} {value : Json}

def header? (m : Message) (name : String) : Option Json := m.headers.get? name

def setHeader (m : Message) (name : String) (value : Json) : Message :=
  { m with headers := m.headers.insert name value }

def property? (m : Message) (name : String) : Option Json := m.properties.get? name

def setProperty (m : Message) (name : String) (value : Json) : Message :=
  { m with properties := m.properties.insert name value }

def removeProperty (m : Message) (name : String) : Message :=
  { m with properties := m.properties.erase name }

def setBody (m : Message) (value : Json) : Message := { m with body := value }

/-- Attach a failure; a later one replaces an earlier one. -/
def setError (m : Message) (e : ExchangeError) : Message := { m with error := some e }

def clearError (m : Message) : Message := { m with error := none }

def isFailed (m : Message) : Bool := m.error.isSome

/-- The choice match, if there is one and it is a text. -/
def choiceMatch? (m : Message) : Option String := (m.property? choiceMatchKey).bind Json.string?

def setChoiceMatch (m : Message) (key : String) : Message := m.setProperty choiceMatchKey (.string key)

def clearChoiceMatch (m : Message) : Message := m.removeProperty choiceMatchKey

/-- The ids of the choice match without the blanks around them; empty ones do not count. -/
def choiceTargets (m : Message) : List String :=
  match m.choiceMatch? with
  | some key => ((Text.split matchDelimiter key).map Text.trimmed).filter (· ≠ "")
  | none => []

/-- One step of a path: an item of an array by its index, a member of anything else by its name. -/
def descend (v : Json) (part : String) : Option Json :=
  match v with
  | .array items => (Text.count? part.toList).bind (fun i => items[i]?)
  | _ => v.member? part

/-- Follow the remaining parts of a path. -/
def follow : Json → List String → Option Json
  | v, [] => some v
  | v, part :: rest => (descend v part).bind (follow · rest)

/-- Look up a value by a path of parts with points between them. After `headers` or `header` comes the
name of a header; `body` is the body; any other first part is a member of the body. -/
def resolve? (m : Message) (path : String) : Option Json :=
  match Text.split '.' path with
  | [] => none
  | first :: rest =>
    if first = "headers" || first = "header" then
      match rest with
      | [] => none
      | name :: rest => (m.header? name).bind (follow · rest)
    else if first = "body" then follow m.body rest
    else (m.body.member? first).bind (follow · rest)

/-- The message as JSON. The failure is not part of it. -/
def toJson (m : Message) : Json :=
  .object [("id", .string m.id.text), ("created_at", .string m.createdAt.text), ("body", m.body),
    ("headers", .ofDict m.headers), ("properties", .ofDict m.properties)]

section Reading
open DocumentNode
variable {m : Type → Type} [Monad m] [MonadExcept Unit m] {ν : Type} [DocumentNode m ν]

def fields : List Field :=
  [⟨"id", []⟩, ⟨"created_at", []⟩, ⟨"body", []⟩, ⟨"headers", []⟩, ⟨"properties", []⟩]

def read? (n : ν) : m Message := do
  let r ← record? fields n
  return {
    id := ← required? (parsed? Uuid.read?) "id" r
    createdAt := ← required? (parsed? Timestamp.read?) "created_at" r
    body := ← required? DocumentNode.value? "body" r
    headers := ← defaulted? values? .empty "headers" r
    properties := ← defaulted? values? .empty "properties" r }

end Reading

@[simp] theorem header?_setHeader {other : String} :
    (m.setHeader name value).header? other = if other = name then some value else m.header? other :=
  Dict.get?_insert

@[simp] theorem property?_setProperty {other : String} :
    (m.setProperty name value).property? other = if other = name then some value else m.property? other :=
  Dict.get?_insert

@[simp] theorem property?_removeProperty {other : String} :
    (m.removeProperty name).property? other = if other = name then none else m.property? other :=
  Dict.get?_erase

@[simp] theorem choiceMatch?_setChoiceMatch : (m.setChoiceMatch key).choiceMatch? = some key := by
  simp [choiceMatch?, setChoiceMatch, Json.string?]

@[simp] theorem choiceMatch?_clearChoiceMatch : m.clearChoiceMatch.choiceMatch? = none := by
  simp [choiceMatch?, clearChoiceMatch]

@[simp] theorem choiceMatch?_setError {failure : ExchangeError} :
    (m.setError failure).choiceMatch? = m.choiceMatch? := rfl

end Message
end MessageFlow
