import MessageFlow.Flow.Catalog
import MessageFlow.Graph.Basic
import MessageFlow.Graph.BranchTable
import MessageFlow.Graph.Error

/-!
Compilation of flow definitions. Faults are looked for in a fixed order: ids first, then edges, then the
entry, then the nodes one after another; the first fault found is the one reported.
-/

namespace MessageFlow

namespace FlowDefinition

/-- Ids are trimmed when a choice match is split, so a padded id could never be found again, and a
separator inside an id would cut it. -/
def checkIdentifier (id : String) : Except CompileError Unit :=
  if id = "" ∨ Text.trimmed id ≠ id then .error (.untrimmedIdentifier id)
  else if namespaceSeparator ∈ id.toList then .error (.invalidIdentifier id namespaceSeparator)
  else if matchDelimiter ∈ id.toList then .error (.invalidIdentifier id matchDelimiter)
  else .ok ()

/-- The vertices of the nodes, added one by one. -/
def addNodes (a : Arena) : List Node → Except CompileError Arena
  | [] => .ok a
  | n :: rest =>
    match checkIdentifier n.id with
    | .error e => .error e
    | .ok () =>
      match a.insert? n.id with
      | some b => addNodes b rest
      | none => .error (.duplicateNode n.id)

/-- The vertex of one end of an edge. -/
def endpoint (a : Arena) (e : Edge) (id : String) : Except CompileError Nat :=
  match a.find? id with
  | some i => .ok i
  | none => .error (.unknownNode e.source e.target id)

def isChoice (nodes : List Node) (i : Nat) : Bool :=
  match nodes[i]? with
  | some n => n.kind = .choice
  | none => false

/-- The edges of the graph, connected one by one, and the targets under their labels; edges of choices need
labels. -/
def connectEdges (nodes : List Node) (a : Arena) (t : BranchTable) :
    List Edge → Except CompileError (Arena × BranchTable)
  | [] => .ok (a, t)
  | e :: rest =>
    match endpoint a e e.source, endpoint a e e.target with
    | .error err, _ => .error err
    | .ok _, .error err => .error err
    | .ok i, .ok j =>
      match e.label with
      | some label => connectEdges nodes (a.connect i j) (t.note i label e.target) rest
      | none =>
        if isChoice nodes i then .error (.unlabeledChoiceEdge e.source e.target)
        else connectEdges nodes (a.connect i j) t rest

/-- The only vertex without an edge to it. Nodes declared as entries must be that one. -/
def findEntry (nodes : List Node) (a : Arena) : Except CompileError Nat :=
  match a.roots with
  | [] => .error .missingEntry
  | [entry] =>
    match nodes.find? (fun n => n.kind = .entry ∧ a.find? n.id ≠ some entry) with
    | some n => .error (.entryNotRoot n.id)
    | none => .ok entry
  | roots => .error (.ambiguousEntry (roots.map a.name))

def resolveComponent (components : ComponentLookup) (n : Node) : Except CompileError Component :=
  match components n.component with
  | some c => .ok c
  | none => .error (.unresolvedComponent n.id n.component)

/-- A branch of the choice with number `i`. -/
def choiceBranch (t : BranchTable) (i : Nat) (n : Node) (w : WhenClause) : Except CompileError ChoiceBranch :=
  match t.get? i w.label with
  | some targets => .ok { label := w.label, targets, predicate := ⟨w.language, w.expression⟩ }
  | none => .error (.unreachableBranch n.id w.label)

/-- What a choice node does. Its other branch may be without edges: messages end there. -/
def choiceDefinition (t : BranchTable) (i : Nat) (n : Node) : Except CompileError ChoiceDefinition :=
  match n.whenClauses.mapM (choiceBranch t i n) with
  | .ok branches => .ok ⟨branches, n.otherwiseLabel.bind (t.get? i)⟩
  | .error e => .error e

/-- What a node other than the entry does. -/
def nodeDefinition (components : ComponentLookup) (t : BranchTable) (i : Nat) (n : Node) :
    Except CompileError NodeDefinition :=
  match n.kind with
  | .choice => (choiceDefinition t i n).map .choice
  | .step | .entry =>
    (resolveComponent components n).map (fun c => .step ⟨c.name, c.binding, n.parameters⟩)

/-- The definitions along the vertices from number `i` on. -/
def definitions (components : ComponentLookup) (t : BranchTable) (entry i : Nat) :
    List Node → Except CompileError (List (Option NodeDefinition))
  | [] => .ok []
  | n :: rest =>
    if i = entry then (definitions components t entry (i + 1) rest).map (none :: ·)
    else
      match nodeDefinition components t i n with
      | .error e => .error e
      | .ok d => (definitions components t entry (i + 1) rest).map (some d :: ·)

def entryNode (components : ComponentLookup) (n : Node) : Except CompileError EntryNode :=
  (resolveComponent components n).map (fun c => ⟨n.id, c.name, c.binding, n.parameters⟩)

/-- The compiled form of a flow. -/
def compile (components : ComponentLookup) (f : FlowDefinition) : Except CompileError CompiledGraph := do
  checkIdentifier f.id
  let named ← addNodes {} f.nodes
  let (arena, table) ← connectEdges f.nodes named {} f.edges
  let entryIndex ← findEntry f.nodes arena
  let entry ← entryNode components ((f.nodes[entryIndex]?).getD default)
  let definitions ← definitions components table entryIndex 0 f.nodes
  return { flowId := f.id, arena, entryNode := entryIndex, entry, definitions }

end FlowDefinition
end MessageFlow
