import MessageFlow.Text.Quoted

/-!
What makes a flow unfit to be compiled.
-/

namespace MessageFlow

inductive CompileError where
  /-- Two nodes have one id. -/
  | duplicateNode (id : String)
  /-- An edge names a node that is not declared. -/
  | unknownNode (source target missing : String)
  /-- Every node has an edge that leads to it. -/
  | missingEntry
  /-- More than one node has no edge that leads to it. -/
  | ambiguousEntry (names : List String)
  /-- A node declared as the entry has an edge that leads to it. -/
  | entryNotRoot (id : String)
  /-- A node uses a component that nobody knows. -/
  | unresolvedComponent (node component : String)
  /-- A clause of a choice has a label without edges. -/
  | unreachableBranch (node label : String)
  /-- An edge leaves a choice without a label. -/
  | unlabeledChoiceEdge (node target : String)
  /-- An id holds a separator. -/
  | invalidIdentifier (id : String) (reserved : Char)
  /-- An id is empty or has blanks at an end. -/
  | untrimmedIdentifier (id : String)
deriving DecidableEq

namespace CompileError

def message : CompileError → String
  | .duplicateNode id => "Duplicate node id '" ++ id ++ "'"
  | .unknownNode source target missing =>
    "Edge " ++ source ++ " -> " ++ target ++ " references unknown node '" ++ missing ++ "'"
  | .missingEntry => "Flow has no entry node (every node has an incoming edge)"
  | .ambiguousEntry names => "Flow has multiple entry candidates: " ++ Text.quotedList names
  | .entryNotRoot id => "Node '" ++ id ++ "' is declared as entry but has incoming edges"
  | .unresolvedComponent node component =>
    "Node '" ++ node ++ "' uses unknown component '" ++ component ++ "'"
  | .unreachableBranch node label =>
    "Choice '" ++ node ++ "' branch '" ++ label ++ "' has no outgoing edges"
  | .unlabeledChoiceEdge node target =>
    "Choice '" ++ node ++ "' has an unlabeled edge to '" ++ target ++ "'"
  | .invalidIdentifier id reserved =>
    "Identifier '" ++ id ++ "' must not contain '" ++ String.singleton reserved ++ "'"
  | .untrimmedIdentifier id =>
    "Identifier '" ++ id ++ "' must be non-empty without surrounding whitespace"

end CompileError
end MessageFlow
