import MessageFlow.Flow.Definition
import MessageFlow.Graph.Arena
import MessageFlow.Stage.Id

/-!
Compiled flows: the graph of the nodes, the entry, and what each other node does. A compiled flow no
longer changes, and every message that runs through the flow uses the same one.
-/

namespace MessageFlow

/-- The node that messages start from, with its component. -/
structure EntryNode where
  nodeId : String
  component : String
  binding : String
  parameters : Dict Json

/-- The text of a predicate and its language; without a language the default one is meant. -/
structure PredicateText where
  language : Option String
  expression : String
deriving DecidableEq, Inhabited

/-- A node that runs a component. -/
structure StepDefinition where
  component : String
  binding : String
  parameters : Dict Json

/-- One branch of a choice node: the label it has in the flow and the nodes it leads to. -/
structure ChoiceBranch where
  label : String
  targets : List String
  predicate : PredicateText
deriving DecidableEq, Inhabited

/-- A node that chooses among its branches, and the nodes it leads to when no branch is chosen. -/
structure ChoiceDefinition where
  branches : List ChoiceBranch
  otherwise : Option (List String)
deriving DecidableEq, Inhabited

inductive NodeDefinition where
  | step (s : StepDefinition)
  | choice (c : ChoiceDefinition)

/-- A flow ready to run. The list of definitions runs along the vertices; the entry has none. -/
structure CompiledGraph where
  flowId : String
  arena : Arena
  entryNode : Nat
  entry : EntryNode
  definitions : List (Option NodeDefinition)

/-- The choice match of a branch within its flow. -/
def ChoiceBranch.key (b : ChoiceBranch) : String := StageId.join b.targets

def PredicateText.toJson (p : PredicateText) : Json :=
  .object [("language", optionalJson p.language), ("expression", .string p.expression)]

namespace CompiledGraph

def size (g : CompiledGraph) : Nat := g.arena.size

/-- The number of a node. -/
def node? (g : CompiledGraph) (name : String) : Option Nat := g.arena.find? name

def name (g : CompiledGraph) (i : Nat) : String := g.arena.name i

def successors (g : CompiledGraph) (i : Nat) : List Nat := g.arena.successors i

/-- The stage id of a node. -/
def qualified (g : CompiledGraph) (i : Nat) : String := StageId.qualify g.flowId (g.name i)

/-- The node of a stage id, if the id belongs to this flow. -/
def resolve? (g : CompiledGraph) (id : String) : Option Nat :=
  match StageId.split? id with
  | some (flow, node) => if flow = g.flowId then g.node? node else none
  | none => none

/-- The names of the nodes that follow a node, in the order of its edges. -/
def successorNames (g : CompiledGraph) (name : String) : List String :=
  match g.node? name with
  | some i => (g.successors i).map g.name
  | none => []

def definition? (g : CompiledGraph) (i : Nat) : Option NodeDefinition := g.definitions[i]?.join

/-- The nodes that have a definition, in the order of declaration. -/
def defined (g : CompiledGraph) : List (Nat × NodeDefinition) :=
  (List.range g.size).filterMap (fun i => (g.definition? i).map (fun d => (i, d)))

end CompiledGraph
end MessageFlow
