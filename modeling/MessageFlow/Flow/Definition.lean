import MessageFlow.DocumentNode

/-!
Flows as they are authored: nodes with the components they use, edges between nodes, and the conditions
of choice nodes. Definitions are built here, read from documents, and written as JSON.
-/

namespace MessageFlow

inductive NodeKind where
  | entry
  | step
  | choice
deriving DecidableEq, Inhabited

/-- One conditional branch of a choice node. Without a language the default one is meant. -/
structure WhenClause where
  label : String
  expression : String
  language : Option String := none
deriving DecidableEq, Inhabited

/-- A node; choice nodes use their clauses and no component, other nodes their component. -/
structure Node where
  id : String
  kind : NodeKind := .step
  component : String := ""
  parameters : Dict Json := .empty
  whenClauses : List WhenClause := []
  otherwiseLabel : Option String := none
deriving Inhabited

/-- An edge; its label names the branch of the choice that it leaves. -/
structure Edge where
  source : String
  target : String
  label : Option String := none
deriving DecidableEq, Inhabited

structure FlowDefinition where
  id : String
  name : Option String := none
  nodes : List Node := []
  edges : List Edge := []
deriving Inhabited

/-- A component that nodes refer to by name, and the address its stages are bound to. -/
structure Component where
  name : String
  binding : String
deriving DecidableEq, Inhabited

/-- A flow together with the components it uses. -/
structure FlowDocument where
  flow : FlowDefinition
  components : List Component := []
deriving Inhabited

namespace Node

def entry (id component : String) : Node := { id, kind := .entry, component }
def step (id component : String) : Node := { id, component }
def choice (id : String) : Node := { id, kind := .choice }

def withParameter (n : Node) (name : String) (value : Json) : Node :=
  { n with parameters := n.parameters.insert name value }

/-- One more clause, in the default language. -/
def when (n : Node) (label expression : String) : Node :=
  { n with whenClauses := n.whenClauses ++ [{ label, expression }] }

def otherwise (n : Node) (label : String) : Node := { n with otherwiseLabel := some label }

end Node

/-! Written form -/

def optionalJson : Option String → Json
  | some s => .string s
  | none => .null

def NodeKind.name : NodeKind → String
  | .entry => "entry"
  | .step => "step"
  | .choice => "choice"

def WhenClause.toJson (c : WhenClause) : Json :=
  .object [("label", .string c.label), ("expression", .string c.expression),
    ("language", optionalJson c.language)]

def Node.toJson (n : Node) : Json :=
  .object [("id", .string n.id), ("kind", .string n.kind.name),
    ("component_name", .string n.component), ("parameters", .ofDict n.parameters),
    ("when_clauses", .array (n.whenClauses.map WhenClause.toJson)),
    ("otherwise_label", optionalJson n.otherwiseLabel)]

def Edge.toJson (e : Edge) : Json :=
  .object [("source", .string e.source), ("target", .string e.target),
    ("branch_label", optionalJson e.label)]

def FlowDefinition.toJson (f : FlowDefinition) : Json :=
  .object [("id", .string f.id), ("name", optionalJson f.name),
    ("nodes", .array (f.nodes.map Node.toJson)), ("edges", .array (f.edges.map Edge.toJson))]

def Component.toJson (c : Component) : Json :=
  .object [("name", .string c.name), ("binding", .string c.binding)]

def FlowDocument.toJson (d : FlowDocument) : Json :=
  .object [("flow", d.flow.toJson), ("components", .array (d.components.map Component.toJson))]

/-! Reading -/

section Reading
open DocumentNode
variable {m : Type → Type} [Monad m] [MonadExcept Unit m] {ν : Type} [DocumentNode m ν]

def NodeKind.ofName? (s : String) : Option NodeKind :=
  [NodeKind.entry, .step, .choice].find? (fun k => k.name = s)

def NodeKind.read? (n : ν) : m NodeKind := do orFail (NodeKind.ofName? (← variant? n))

def WhenClause.fields : List Field := [⟨"label", []⟩, ⟨"expression", ["predicate"]⟩, ⟨"language", []⟩]

def WhenClause.read? (n : ν) : m WhenClause := do
  let r ← record? WhenClause.fields n
  return {
    label := ← required? text? "label" r
    expression := ← required? text? "expression" r
    language := ← defaulted? optionalText? none "language" r }

def Node.fields : List Field :=
  [⟨"id", []⟩, ⟨"kind", []⟩, ⟨"component_name", ["componentName", "component"]⟩,
    ⟨"parameters", []⟩, ⟨"when_clauses", ["whenClauses"]⟩, ⟨"otherwise_label", ["otherwiseLabel"]⟩]

def Node.read? (n : ν) : m Node := do
  let r ← record? Node.fields n
  return {
    id := ← required? text? "id" r
    kind := ← defaulted? NodeKind.read? .step "kind" r
    component := ← defaulted? text? "" "component_name" r
    parameters := ← defaulted? values? .empty "parameters" r
    whenClauses := ← defaulted? (list? WhenClause.read?) [] "when_clauses" r
    otherwiseLabel := ← defaulted? optionalText? none "otherwise_label" r }

def Edge.fields : List Field :=
  [⟨"source", []⟩, ⟨"target", []⟩, ⟨"branch_label", ["branchLabel", "sourceHandle"]⟩]

def Edge.read? (n : ν) : m Edge := do
  let r ← record? Edge.fields n
  return {
    source := ← required? text? "source" r
    target := ← required? text? "target" r
    label := ← defaulted? optionalText? none "branch_label" r }

def FlowDefinition.fields : List Field := [⟨"id", []⟩, ⟨"name", []⟩, ⟨"nodes", []⟩, ⟨"edges", []⟩]

def FlowDefinition.read? (n : ν) : m FlowDefinition := do
  let r ← record? FlowDefinition.fields n
  return {
    id := ← required? text? "id" r
    name := ← defaulted? optionalText? none "name" r
    nodes := ← defaulted? (list? Node.read?) [] "nodes" r
    edges := ← defaulted? (list? Edge.read?) [] "edges" r }

def Component.fields : List Field := [⟨"name", []⟩, ⟨"binding", []⟩]

def Component.read? (n : ν) : m Component := do
  let r ← record? Component.fields n
  return { name := ← required? text? "name" r, binding := ← required? text? "binding" r }

def FlowDocument.fields : List Field := [⟨"flow", []⟩, ⟨"components", []⟩]

def FlowDocument.read? (n : ν) : m FlowDocument := do
  let r ← record? FlowDocument.fields n
  return {
    flow := ← required? FlowDefinition.read? "flow" r
    components := ← defaulted? (list? Component.read?) [] "components" r }

end Reading
end MessageFlow
