import MessageFlow.Deployment.Settings
import MessageFlow.Engine.Execution
import MessageFlow.Graph.Compilation
import MessageFlow.Stage.Materialization

/-!
Hosts of flows. A host deploys flows under their ids, keeps their stages in one registry, and hands out
engines. An engine keeps the graph and the stages it was made with, whatever is deployed later.
-/

namespace MessageFlow

structure DeployedFlow where
  graph : CompiledGraph
  descriptors : RouteDescriptors
  stages : StageSet

structure FlowHost where
  components : ComponentLookup
  factory : StepFactory
  languages : PredicateLanguages
  encoding : ParameterEncoding
  options : EngineOptions
  registry : StageRegistry := {}
  flows : Dict DeployedFlow := .empty

/-- Work on a host that may fail; what it has changed by then stays changed. -/
abbrev HostWork := ExceptT FlowError (StateM FlowHost)

namespace HostWork
variable {α β : Type} {h : FlowHost}

theorem run_bind (w : HostWork α) (next : α → HostWork β) : (w >>= next).run.run h =
    match w.run.run h with
    | (.ok a, k) => (next a).run.run k
    | (.error e, k) => (.error e, k) := by
  unfold ExceptT.run StateT.run
  simp only [bind, ExceptT.bind, ExceptT.mk, StateT.bind, ExceptT.bindCont]
  rcases w h with ⟨_ | _, _⟩ <;> rfl

theorem run_pure (a : α) : (pure a : HostWork α).run.run h = (.ok a, h) := rfl

theorem run_throw (e : FlowError) : (throw e : HostWork α).run.run h = (.error e, h) := rfl

theorem run_lift (x : Except FlowError α) : (liftM x : HostWork α).run.run h = (x, h) := rfl

theorem run_get : (get : HostWork FlowHost).run.run h = (.ok h, h) := rfl

theorem run_modify (change : FlowHost → FlowHost) :
    (modify change : HostWork PUnit).run.run h = (.ok (), change h) := rfl

end HostWork

/-- The calls that change a host. -/
inductive HostCall where
  | deploy (f : FlowDefinition)
  | undeploy (id : String)

namespace FlowHost

/-- A host without flows. The default language of the settings must be known. -/
def new (components : ComponentLookup) (factory : StepFactory) (languages : PredicateLanguages)
    (s : Settings) : Except FlowError FlowHost :=
  match languages.setDefault? s.defaultLanguage with
  | some languages => .ok { components, factory, languages, encoding := s.encoding, options := s.engine }
  | none => .error (.deploy (.unknownLanguage s.defaultLanguage))

/-- All that a flow needs to be deployed, without deploying it. -/
def prepare (h : FlowHost) (f : FlowDefinition) : Except FlowError DeployedFlow :=
  match f.compile h.components with
  | .error e => .error (.compile e)
  | .ok graph =>
    let descriptors := RouteDescriptors.ofGraph h.encoding graph
    match StageSet.materialize h.factory h.languages descriptors with
    | .error e => .error (.deploy e)
    | .ok stages => .ok { graph, descriptors, stages }

def flow? (h : FlowHost) (id : String) : Option DeployedFlow := h.flows.get? id

/-- Put the stages of a flow into the registry, in place of those that it had. -/
def registerStages (s : StageSet) : HostWork (Option StageSet) := do
  match (← get).registry.register s with
  | .error e => throw (.deploy e)
  | .ok (previous, registry) =>
    modify (fun h => { h with registry })
    return previous

/-- Deploy a flow, in place of one of the same id. -/
def deploy (f : FlowDefinition) : HostWork DeployedFlow := do
  let deployed ← (← get).prepare f
  let _ ← registerStages deployed.stages
  modify (fun h => { h with flows := h.flows.insert f.id deployed })
  return deployed

/-- Take back a flow and return it. -/
def undeploy (id : String) : HostWork DeployedFlow := do
  match (← get).flow? id with
  | none => throw (.flowNotFound id)
  | some deployed =>
    modify (fun h => { h with flows := h.flows.erase id })
    modify (fun h => { h with registry := (h.registry.remove id).2 })
    return deployed

/-- The answer to a call, and the host behind it. -/
def perform (h : FlowHost) (c : HostCall) : Except FlowError DeployedFlow × FlowHost :=
  let work := match c with
    | .deploy f => deploy f
    | .undeploy id => undeploy id
  work.run.run h

/-- An engine for a flow as it is deployed now. -/
def engine (h : FlowHost) (id : String) : Except FlowError Engine :=
  match h.flow? id with
  | none => .error (.flowNotFound id)
  | some deployed => .ok { graph := deployed.graph, stages := deployed.stages, options := h.options }

/-- The ids of the deployed flows, in order. -/
def flowIds (h : FlowHost) : List String := h.flows.keys

end FlowHost
end MessageFlow
