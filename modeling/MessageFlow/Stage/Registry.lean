import MessageFlow.Stage.Basic

/-!
Sets of stages, one for each flow, and the registry that holds the sets of all deployed flows. No stage
id is in the sets of two flows.
-/

namespace MessageFlow

/-- The stages of a flow by their ids. -/
structure StageSet where
  flowId : String
  stages : Dict Stage := .empty

namespace StageSet

/-- Add a stage under an id that is not taken. -/
def insert (s : StageSet) (id : String) (stage : Stage) : Except DeployError StageSet :=
  if s.stages.contains id then .error (.stageCollision id)
  else .ok { s with stages := s.stages.insert id stage }

def get? (s : StageSet) (id : String) : Option Stage := s.stages.get? id
def contains (s : StageSet) (id : String) : Bool := s.stages.contains id
def ids (s : StageSet) : List String := s.stages.keys
def size (s : StageSet) : Nat := s.stages.size
def isEmpty (s : StageSet) : Bool := s.stages.isEmpty

end StageSet

/-- The stage sets of all flows by the ids of the flows. -/
structure StageRegistry where
  flows : Dict StageSet := .empty

namespace StageRegistry

/-- The first id of a set that belongs to another flow. -/
def collision? (r : StageRegistry) (s : StageSet) : Option String :=
  r.flows.toList.findSome? (fun p =>
    if p.1 = s.flowId then none else s.ids.find? (fun id => p.2.contains id))

/-- Register the stages of a flow in place of those it had, which are returned. -/
def register (r : StageRegistry) (s : StageSet) : Except DeployError (Option StageSet × StageRegistry) :=
  match r.collision? s with
  | some id => .error (.stageCollision id)
  | none => .ok (r.flows.get? s.flowId, ⟨r.flows.insert s.flowId s⟩)

/-- Remove the stages of a flow and return them. -/
def remove (r : StageRegistry) (flowId : String) : Option StageSet × StageRegistry :=
  (r.flows.get? flowId, ⟨r.flows.erase flowId⟩)

def flow? (r : StageRegistry) (flowId : String) : Option StageSet := r.flows.get? flowId

/-- The stage of an id, looked for in the flow that the id names. -/
def get? (r : StageRegistry) (id : String) : Option Stage := do
  let (flow, _) ← StageId.split? id
  (← r.flow? flow).get? id

/-- The number of stages of all flows. -/
def size (r : StageRegistry) : Nat := r.flows.values.foldr (fun s n => s.size + n) 0

def isEmpty (r : StageRegistry) : Bool := r.size = 0

end StageRegistry
end MessageFlow
