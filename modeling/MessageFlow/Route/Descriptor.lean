import MessageFlow.Graph.Basic
import MessageFlow.Route.Uri

/-!
Route descriptors: what a host needs to know to build the stages of a compiled flow. All ids are stage
ids, so descriptors of several flows can be told apart.
-/

namespace MessageFlow

structure StepDescriptor where
  id : String
  component : String
  uri : String
deriving DecidableEq, Inhabited

/-- A branch: the choice match it sets, the label it has in the flow, and its predicate. -/
structure WhenDescriptor where
  key : String
  label : String
  predicate : PredicateText
deriving DecidableEq, Inhabited

structure ChoiceDescriptor where
  id : String
  whens : List WhenDescriptor
  otherwise : Option String
deriving DecidableEq, Inhabited

inductive StageDescriptor where
  | step (s : StepDescriptor)
  | choice (c : ChoiceDescriptor)
deriving DecidableEq, Inhabited

/-- The descriptors of a flow. The entry is described as a step but gets no stage of its own. -/
structure RouteDescriptors where
  flowId : String
  entry : StepDescriptor
  stages : List StageDescriptor
deriving DecidableEq, Inhabited

def StageDescriptor.id : StageDescriptor → String
  | .step s => s.id
  | .choice c => c.id

namespace RouteDescriptors

/-- The first descriptor with an id. -/
def stage? (r : RouteDescriptors) (id : String) : Option StageDescriptor :=
  r.stages.find? (fun s => s.id = id)

def ofBranch (flow : String) (b : ChoiceBranch) : WhenDescriptor :=
  ⟨StageId.joinQualified flow b.targets, b.label, b.predicate⟩

/-- The descriptor of a node of a flow, under its stage id. -/
def ofDefinition (encoding : ParameterEncoding) (flow id : String) : NodeDefinition → StageDescriptor
  | .step s => .step ⟨id, s.component, renderUri s.binding s.parameters encoding⟩
  | .choice c =>
    .choice ⟨id, c.branches.map (ofBranch flow), c.otherwise.map (StageId.joinQualified flow)⟩

/-- The descriptors of a compiled flow, in the order of its nodes. -/
def ofGraph (encoding : ParameterEncoding) (g : CompiledGraph) : RouteDescriptors where
  flowId := g.flowId
  entry :=
    { id := StageId.qualify g.flowId g.entry.nodeId
      component := g.entry.component
      uri := renderUri g.entry.binding g.entry.parameters encoding }
  stages := g.defined.map (fun p => ofDefinition encoding g.flowId (g.qualified p.1) p.2)

end RouteDescriptors

/-! Written form -/

def StepDescriptor.members (s : StepDescriptor) : List (String × Json) :=
  [("id", .string s.id), ("component", .string s.component), ("uri", .string s.uri)]

def WhenDescriptor.toJson (w : WhenDescriptor) : Json :=
  .object [("key", .string w.key), ("label", .string w.label), ("predicate", w.predicate.toJson)]

def StageDescriptor.toJson : StageDescriptor → Json
  | .step s => .object (("type", .string "step") :: s.members)
  | .choice c =>
    .object [("type", .string "choice"), ("id", .string c.id),
      ("when", .array (c.whens.map WhenDescriptor.toJson)), ("otherwise", optionalJson c.otherwise)]

def RouteDescriptors.toJson (r : RouteDescriptors) : Json :=
  .object [("flow_id", .string r.flowId), ("entry", .object r.entry.members),
    ("stages", .array (r.stages.map StageDescriptor.toJson))]

end MessageFlow
