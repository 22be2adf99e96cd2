import MessageFlow.Proofs.Namespaces
import MessageFlow.Proofs.Renumbering
import MessageFlow.Proofs.WellFormed

/-!
The order of declarations. A node has its number from its place among the nodes, and its successors stand in the
order of its edges. Two declarations of a flow in which nothing differs but the order of the nodes, and that of
edges with different sources, are compiled to graphs in which the nodes have other numbers; the stages, which go
by their ids, are the same.
-/

namespace MessageFlow

/-- What two compiled flows say alike when nodes are known by their names: which there are, where messages start,
where each node leads, and what it does. -/
structure CompiledGraph.Agrees (g g' : CompiledGraph) : Prop where
  flowId : g'.flowId = g.flowId
  nodes : ∀ name, (g'.node? name).isSome = (g.node? name).isSome
  entryName : g'.name g'.entryNode = g.name g.entryNode
  entry : g'.entry = g.entry
  successors : ∀ name, g'.successorNames name = g.successorNames name
  definitions : ∀ name, (g'.node? name).bind g'.definition? = (g.node? name).bind g.definition?

/-- The number that a node has in another graph. -/
def CompiledGraph.place (g g' : CompiledGraph) (i : Nat) : Nat := (g'.node? (g.name i)).getD i

namespace FlowDefinition

/-- The same nodes and edges in another order, which keeps the order of edges with the same source. -/
structure Reordered (f f' : FlowDefinition) : Prop where
  id : f'.id = f.id
  nodes : f'.nodes.Perm f.nodes
  edges : f'.edges.Perm f.edges
  leaving : ∀ source,
    f'.edges.filter (fun e => e.source = source) = f.edges.filter (fun e => e.source = source)

variable {components : ComponentLookup} {f f' : FlowDefinition} {g g' : CompiledGraph} {n : Node} {i : Nat}
  {encoding : ParameterEncoding} {factory : StepFactory} {ls : PredicateLanguages} {set set' : StageSet}

theorem branchTargets_of_leaving (edges : List Edge) (source label : String) :
    branchTargets edges source label =
      (((edges.filter (fun e => e.source = source)).filter (fun e => e.label = some label)).map
        Edge.target).eraseDups := by
  simp only [branchTargets, List.filter_filter, Bool.decide_and, Bool.and_comm]

namespace Compiled

theorem name_of_none (hc : Compiled components f g) (hn : f.nodes[i]? = none) : g.name i = "" := by
  rw [CompiledGraph.name, Arena.name_eq, hc.names, List.getElem?_map, hn]
  rfl

theorem node?_empty (hc : Compiled components f g) : g.node? "" = none := by
  cases hi : g.node? "" with
  | none => rfl
  | some i =>
    obtain ⟨n, hn, hid⟩ := Option.map_eq_some_iff.1 (hc.node?_eq_some_iff.1 hi)
    exact absurd hid (hc.nodes n (List.mem_of_getElem? hn)).nonempty

/-- A number that belongs to no node stays as it is. -/
theorem place_of_none (hc : Compiled components f g) (hc' : Compiled components f' g')
    (hn : f.nodes[i]? = none) : g.place g' i = i := by
  rw [CompiledGraph.place, hc.name_of_none hn, hc'.node?_empty, Option.getD_none]

end Compiled

namespace Reordered

section Definitions
variable (h : f.Reordered f')
include h

theorem symm : f'.Reordered f :=
  ⟨h.id.symm, h.nodes.symm, h.edges.symm, fun source => (h.leaving source).symm⟩

theorem targetsOf_eq (source : String) : targetsOf f'.edges source = targetsOf f.edges source := by
  rw [targetsOf, targetsOf, h.leaving]

theorem branchTargets_eq (source : String) : branchTargets f'.edges source = branchTargets f.edges source := by
  funext label
  rw [branchTargets_of_leaving, branchTargets_of_leaving, h.leaving]

/-- The nodes become the same. -/
theorem becomes {d : NodeDefinition} (hd : Becomes components f n d) : Becomes components f' n d := by
  have hbranch : f'.branchOf n = f.branchOf n := by
    funext w
    rw [branchOf, branchOf, h.branchTargets_eq]
  have hotherwise : branchTargets? f'.edges n.id = branchTargets? f.edges n.id := by
    funext label
    rw [branchTargets?, branchTargets?, h.branchTargets_eq]
  cases hd with
  | step hk hc => exact .step hk hc
  | choice hk hclauses =>
    rw [← hbranch, ← hotherwise]
    refine .choice hk ?_
    rw [h.branchTargets_eq]
    exact hclauses

theorem untargeted : f'.untargeted.Perm f.untargeted := by
  have hsame : (fun n : Node => decide (∀ e ∈ f'.edges, e.target ≠ n.id)) =
      fun n : Node => decide (∀ e ∈ f.edges, e.target ≠ n.id) := by
    funext n
    simp only [h.edges.mem_iff]
  rw [FlowDefinition.untargeted, FlowDefinition.untargeted, hsame]
  exact h.nodes.filter _

/-- If no edge leads to the entry alone, this is so in both orders. -/
theorem untargeted_eq (hn : f.untargeted = [n]) : f'.untargeted = [n] := by
  have hperm := h.untargeted
  rw [hn] at hperm
  exact List.perm_singleton.1 hperm

theorem startsAt (hstart : f.StartsAt components n) : f'.StartsAt components n where
  root := h.untargeted_eq hstart.root
  kind m hm := hstart.kind m (h.nodes.mem_iff.1 hm)
  component := hstart.component
  steps m hm := hstart.steps m (h.nodes.mem_iff.1 hm)
  clauses m hm hne hk w hw := by
    obtain ⟨e, he, hleaves⟩ := hstart.clauses m (h.nodes.mem_iff.1 hm) hne hk w hw
    exact ⟨e, h.edges.mem_iff.2 he, hleaves⟩

theorem connects {e : Edge} (he : f.Connects e) : f'.Connects e where
  source := ((h.nodes.map Node.id).mem_iff).2 he.source
  target := ((h.nodes.map Node.id).mem_iff).2 he.target
  labelled m hm := he.labelled m (h.nodes.mem_iff.1 hm)

theorem sound (hf : f.Sound) : f'.Sound where
  flow := h.id ▸ hf.flow
  nodes m hm := hf.nodes m (h.nodes.mem_iff.1 hm)
  nodup := ((h.nodes.map Node.id).nodup_iff).2 hf.nodup
  edges e he := h.connects (hf.edges e (h.edges.mem_iff.1 he))

/-- What is compiled in one order is compiled in the other. -/
theorem exists_compiled (hc : Compiled components f g) : ∃ g', Compiled components f' g' := by
  obtain ⟨n, c, hn, -, -⟩ := hc.exists_entry
  have hwell : f'.WellFormed components := ⟨h.sound hc.sound, n, h.startsAt (hc.startsAt hn)⟩
  exact hwell.exists_compiled

end Definitions

section Graphs
variable (h : f.Reordered f') (hc : Compiled components f g) (hc' : Compiled components f' g')
include h hc hc'

/-- The node with the other number is the same node. -/
theorem getElem?_place (i : Nat) : f'.nodes[g.place g' i]? = f.nodes[i]? := by
  cases hn : f.nodes[i]? with
  | none =>
    rw [hc.place_of_none hc' hn]
    rw [List.getElem?_eq_none_iff] at hn ⊢
    rw [h.nodes.length_eq]
    exact hn
  | some n =>
    obtain ⟨j, hj⟩ := List.mem_iff_getElem?.1 (h.nodes.mem_iff.2 (List.mem_of_getElem? hn))
    have hfound : g'.node? n.id = some j := by
      rw [hc'.node?_eq_some_iff, hj, Option.map_some]
    rw [CompiledGraph.place, hc.name hn, hfound, Option.getD_some, hj]

theorem name_place (i : Nat) : g'.name (g.place g' i) = g.name i := by
  rw [CompiledGraph.name, CompiledGraph.name, Arena.name_eq, Arena.name_eq, hc'.names, hc.names,
    List.getElem?_map, List.getElem?_map, h.getElem?_place hc hc']

theorem place_injective : Function.Injective (g.place g') := by
  intro i j hij
  have hnode : f.nodes[i]? = f.nodes[j]? := by
    rw [← h.getElem?_place hc hc' i, ← h.getElem?_place hc hc' j, hij]
  cases hn : f.nodes[i]? with
  | none => rw [← hc.place_of_none hc' hn, hij, hc.place_of_none hc' (hnode ▸ hn)]
  | some n => exact index_inj hc.nodup hn (hnode ▸ hn) rfl

/-- A name stands for the same node. -/
theorem node?_place (name : String) : g'.node? name = (g.node? name).map (g.place g') := by
  cases hi : g.node? name with
  | some i =>
    rw [Option.map_some, hc'.node?_eq_some_iff, h.getElem?_place hc hc']
    exact hc.node?_eq_some_iff.1 hi
  | none =>
    cases hj : g'.node? name with
    | none => rfl
    | some j =>
      obtain ⟨m, hm, hid⟩ := Option.map_eq_some_iff.1 (hc'.node?_eq_some_iff.1 hj)
      obtain ⟨i, hat⟩ := List.mem_iff_getElem?.1 (h.nodes.mem_iff.1 (List.mem_of_getElem? hm))
      have hfound : g.node? name = some i := by
        rw [hc.node?_eq_some_iff, hat, Option.map_some, hid]
      rw [hi] at hfound
      cases hfound

theorem entry_place : g'.entryNode = g.place g' g.entryNode := by
  obtain ⟨n, c, hn, -, -⟩ := hc.exists_entry
  obtain ⟨m, d, hm, -, -⟩ := hc'.exists_entry
  have hroot := h.untargeted_eq (hc.startsAt hn).root
  rw [(hc'.startsAt hm).root, List.singleton_inj] at hroot
  subst hroot
  exact index_inj hc'.nodup hm ((h.getElem?_place hc hc' _).trans hn) rfl

theorem entry_eq : g'.entry = g.entry := by
  obtain ⟨n, c, hn, hcomponent, hentry⟩ := hc.exists_entry
  obtain ⟨m, d, hm, hcomponent', hentry'⟩ := hc'.exists_entry
  rw [h.entry_place hc hc', h.getElem?_place hc hc', hn, Option.some.injEq] at hm
  subst hm
  rw [hcomponent, Option.some.injEq] at hcomponent'
  subst hcomponent'
  rw [hentry, hentry']

theorem successors_place (i : Nat) : g'.successors (g.place g' i) = (g.successors i).map (g.place g') := by
  cases hn : f.nodes[i]? with
  | none =>
    have hnone : g.successors i = [] := hc.successors_of_none hn
    have hnone' : g'.successors (g.place g' i) = [] :=
      hc'.successors_of_none ((h.getElem?_place hc hc' i).trans hn)
    rw [hnone, hnone', List.map_nil]
  | some n =>
    have hn' : f'.nodes[g.place g' i]? = some n := (h.getElem?_place hc hc' i).trans hn
    -- both graphs list the nodes of the same names, so the numbers are compared by way of the names
    have hnode? : g'.node? = fun name => (g.node? name).map (g.place g') := funext (h.node?_place hc hc')
    have hsome : ((g'.successors (g.place g' i)).map some) = ((g.successors i).map (g.place g')).map some := by
      calc (g'.successors (g.place g' i)).map some
        _ = (targetsOf f'.edges n.id).map g'.node? := (hc'.map_node?_targetsOf hn').symm
        _ = ((targetsOf f.edges n.id).map g.node?).map (Option.map (g.place g')) := by
          rw [h.targetsOf_eq, hnode?, List.map_map]
          rfl
        _ = ((g.successors i).map some).map (Option.map (g.place g')) := by rw [hc.map_node?_targetsOf hn]
        _ = ((g.successors i).map (g.place g')).map some := by
          rw [List.map_map, List.map_map]
          rfl
    exact (List.map_inj_right (fun _ _ => Option.some.inj)).1 hsome

theorem qualified_place (i : Nat) : g'.qualified (g.place g' i) = g.qualified i := by
  rw [CompiledGraph.qualified, CompiledGraph.qualified, h.name_place hc hc', hc'.flowId, hc.flowId, h.id]

/-- The graphs differ in the numbers of the nodes. -/
theorem renumbers : CompiledGraph.Renumbers (g.place g') g g' where
  injective := h.place_injective hc hc'
  entry := h.entry_place hc hc'
  qualified := h.qualified_place hc hc'
  successors := h.successors_place hc hc'
  resolve id := by
    unfold CompiledGraph.resolve?
    rw [hc'.flowId, hc.flowId, h.id]
    split
    · split
      · exact h.node?_place hc hc' _
      · rfl
    · rfl

theorem definition?_place (i : Nat) : g'.definition? (g.place g' i) = g.definition? i := by
  have hentry : g.place g' i ≠ g'.entryNode ↔ i ≠ g.entryNode := by
    rw [h.entry_place hc hc', (h.place_injective hc hc').ne_iff]
  apply Option.ext
  intro d
  rw [hc'.definition?_eq_some_iff, hc.definition?_eq_some_iff, h.getElem?_place hc hc']
  simp only [hentry]
  constructor
  · rintro ⟨n, hn, hi, hd⟩
    exact ⟨n, hn, hi, h.symm.becomes hd⟩
  · rintro ⟨n, hn, hi, hd⟩
    exact ⟨n, hn, hi, h.becomes hd⟩

theorem agrees : g.Agrees g' where
  flowId := by rw [hc'.flowId, hc.flowId, h.id]
  nodes name := by rw [h.node?_place hc hc', Option.isSome_map]
  entryName := by rw [h.entry_place hc hc', h.name_place hc hc']
  entry := h.entry_eq hc hc'
  successors name := by
    unfold CompiledGraph.successorNames
    rw [h.node?_place hc hc']
    cases g.node? name with
    | none => rfl
    | some i =>
      have hname : g'.name ∘ g.place g' = g.name := funext (h.name_place hc hc')
      dsimp only [Option.map_some]
      rw [h.successors_place hc hc', List.map_map, hname]
  definitions name := by
    have hdefinition : g'.definition? ∘ g.place g' = g.definition? := funext (h.definition?_place hc hc')
    rw [h.node?_place hc hc', Option.bind_map, hdefinition]

/-- If the stages of one order can be made, so can those of the other. -/
theorem exists_materialize
    (hs : StageSet.materialize factory ls (RouteDescriptors.ofGraph encoding g) = .ok set) :
    ∃ set', StageSet.materialize factory ls (RouteDescriptors.ofGraph encoding g') = .ok set' := by
  rw [StageSet.exists_materialize_iff hc']
  intro j d hd
  -- from the other order back to this one
  have hdef := h.symm.definition?_place hc' hc j
  have hid := h.symm.qualified_place hc' hc j
  obtain ⟨stage, hmade⟩ := (StageSet.exists_materialize_iff hc).1 ⟨set, hs⟩ _ d (hdef.trans hd)
  rw [hid, hc.flowId, ← h.id, ← hc'.flowId] at hmade
  exact ⟨stage, hmade⟩

theorem stage_mem (hs : StageSet.materialize factory ls (RouteDescriptors.ofGraph encoding g) = .ok set)
    (hs' : StageSet.materialize factory ls (RouteDescriptors.ofGraph encoding g') = .ok set') {id : String}
    {stage : Stage} (hstage : set.get? id = some stage) : set'.get? id = some stage := by
  obtain ⟨i, n, d, hn, hi, rfl, hd, hmade⟩ := (stages_iff hc hs).1 hstage
  have hplace : g.place g' i ≠ g'.entryNode := by
    rw [h.entry_place hc hc', (h.place_injective hc hc').ne_iff]
    exact hi
  rw [← h.id] at hmade
  exact (stages_iff hc' hs').2 ⟨g.place g' i, n, d, (h.getElem?_place hc hc' i).trans hn, hplace,
    (h.qualified_place hc hc' i).symm, h.becomes hd, hmade⟩

/-- Both orders give the same stages. -/
theorem stages_eq (hs : StageSet.materialize factory ls (RouteDescriptors.ofGraph encoding g) = .ok set)
    (hs' : StageSet.materialize factory ls (RouteDescriptors.ofGraph encoding g') = .ok set') : set' = set := by
  have hflow : set'.flowId = set.flowId := by
    rw [StageSet.flowId_addStages hs', StageSet.flowId_addStages hs]
    exact (h.agrees hc hc').flowId
  have hstages : set'.stages = set.stages := by
    apply Dict.ext_get?
    intro id
    apply Option.ext
    intro stage
    constructor
    · intro hstage
      exact h.symm.stage_mem hc' hc hs' hs hstage
    · intro hstage
      exact h.stage_mem hc hc' hs hs' hstage
  cases set
  cases set'
  cases hflow
  cases hstages
  rfl

end Graphs
end Reordered

/-- The order in which nodes are declared does not matter, and neither does that of edges with different sources.
A flow is compiled in both orders or in none, and its stages can be made in both or in none. The compiled flows
have the same entry, the same successors of each node, and the same branches and other targets of each choice.
The stages are the same, and each message goes through them in the same way: the same events in the same order,
the same completion, and the same message in the end. -/
theorem reordered_alike (h : f.Reordered f') (components : ComponentLookup) (factory : StepFactory)
    (ls : PredicateLanguages) (encoding : ParameterEncoding) :
    ((∃ g, f.compile components = .ok g) ↔ ∃ g', f'.compile components = .ok g') ∧
      ∀ g g', f.compile components = .ok g → f'.compile components = .ok g' →
        g.Agrees g' ∧
          ((∃ set, StageSet.materialize factory ls (RouteDescriptors.ofGraph encoding g) = .ok set) ↔
            ∃ set', StageSet.materialize factory ls (RouteDescriptors.ofGraph encoding g') = .ok set') ∧
          ∀ set set', StageSet.materialize factory ls (RouteDescriptors.ofGraph encoding g) = .ok set →
            StageSet.materialize factory ls (RouteDescriptors.ofGraph encoding g') = .ok set' →
            set' = set ∧ ∀ options m,
              ({ graph := g', stages := set', options } : Engine).execute m =
                ({ graph := g, stages := set, options } : Engine).execute m := by
  simp only [compile_ok_iff]
  refine ⟨⟨?there, ?back⟩, ?graphs⟩
  case there =>
    rintro ⟨g, hc⟩
    exact h.exists_compiled hc
  case back =>
    rintro ⟨g', hc'⟩
    exact h.symm.exists_compiled hc'
  case graphs =>
    intro g g' hc hc'
    refine ⟨h.agrees hc hc', ⟨?made, ?remade⟩, ?runs⟩
    case made =>
      rintro ⟨set, hs⟩
      exact h.exists_materialize hc hc' hs
    case remade =>
      rintro ⟨set', hs'⟩
      exact h.symm.exists_materialize hc' hc hs'
    case runs =>
      intro set set' hs hs'
      obtain rfl := h.stages_eq hc hc' hs hs'
      refine ⟨rfl, fun options m => ?_⟩
      exact Engine.execute_on (e := { graph := g, stages := set', options }) (h.renumbers hc hc') m

end FlowDefinition

namespace Mail

/-- The flow that sorts mail, with the nodes declared from the last to the first and the first edge at the end. -/
def shuffled : FlowDefinition :=
  { flow with nodes := flow.nodes.reverse, edges := flow.edges.drop 1 ++ flow.edges.take 1 }

theorem reordered : flow.Reordered shuffled where
  id := rfl
  nodes := List.reverse_perm _
  edges := List.perm_append_comm
  leaving source := by
    by_cases hinlet : source = "inlet"
    · subst hinlet
      rfl
    · have hfirst : (flow.edges.take 1).filter (fun e => e.source = source) = [] := by
        simp [flow, Ne.symm hinlet]
      calc shuffled.edges.filter (fun e => e.source = source)
        _ = (flow.edges.drop 1).filter (fun e => e.source = source) ++
            (flow.edges.take 1).filter (fun e => e.source = source) := List.filter_append _ _
        _ = (flow.edges.take 1).filter (fun e => e.source = source) ++
            (flow.edges.drop 1).filter (fun e => e.source = source) := by
          rw [hfirst, List.append_nil, List.nil_append]
        _ = flow.edges.filter (fun e => e.source = source) := (List.filter_append _ _).symm

end Mail

namespace FlowDefinition

/-- The inlet is the last node of the mail flow when it is declared the other way round, and urgent mail still
goes to the same nodes. -/
theorem reordered_alike_mail : Mail.flow.Reordered Mail.shuffled ∧
    ∃ d d', Mail.host.prepare Mail.flow = .ok d ∧ Mail.host.prepare Mail.shuffled = .ok d' ∧
      d.graph.entryNode = 0 ∧ d'.graph.entryNode = 4 ∧ d.graph.Agrees d'.graph ∧
      ((d'.engine { isolation := .snapshot }).execute Mail.express).message.error =
        some (.stage "mail:record" "refused") := by
  obtain ⟨d, hd, hentry, herror⟩ := Mail.prepared
  obtain ⟨d', hd', hentry'⟩ : ∃ d', Mail.host.prepare Mail.shuffled = .ok d' ∧ d'.graph.entryNode = 4 :=
    ⟨_, rfl, rfl⟩
  obtain ⟨hg, hr, hs⟩ := FlowHost.prepare_ok_iff.1 hd
  obtain ⟨hg', hr', hs'⟩ := FlowHost.prepare_ok_iff.1 hd'
  rw [hr] at hs
  rw [hr'] at hs'
  obtain ⟨-, hgraphs⟩ := reordered_alike Mail.reordered Mail.host.components Mail.host.factory
    Mail.host.languages Mail.host.encoding
  obtain ⟨hagrees, -, hruns⟩ := hgraphs _ _ hg hg'
  obtain ⟨-, hexecute⟩ := hruns _ _ hs hs'
  refine ⟨Mail.reordered, d, d', hd, hd', hentry, hentry', hagrees, ?_⟩
  rw [← herror]
  exact congrArg (fun o : Outcome => o.message.error) (hexecute { isolation := .snapshot } Mail.express)

end FlowDefinition
end MessageFlow
