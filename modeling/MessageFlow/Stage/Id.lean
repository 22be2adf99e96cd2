import MessageFlow.Message.Basic

/-!
Ids of stages. A stage belongs to a node of a flow; its id is the id of the flow and the id of the node
with a colon between them, so stages of several flows can be kept together.
-/

namespace MessageFlow

/-- The separator between the flow and the node in the id of a stage. -/
def namespaceSeparator : Char := ':'

namespace StageId
variable {flow node : String}

/-- The id of a node's stage. -/
def qualify (flow node : String) : String := flow ++ String.singleton namespaceSeparator ++ node

/-- The flow and the node of an id, parted at the first colon. -/
def split? (id : String) : Option (String × String) := Text.splitOnce namespaceSeparator id

/-- Several ids as one choice match. -/
def join (ids : List String) : String := Text.join (String.singleton matchDelimiter) ids

/-- The choice match of nodes of a flow. -/
def joinQualified (flow : String) (nodes : List String) : String := join (nodes.map (qualify flow))

theorem split?_qualify (h : namespaceSeparator ∉ flow.toList) :
    split? (qualify flow node) = some (flow, node) := by
  simp [split?, qualify, Text.splitOnce, Text.cut_append h]

end StageId
end MessageFlow
