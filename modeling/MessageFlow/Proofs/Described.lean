import MessageFlow.Proofs.Materialized
import MessageFlow.Proofs.WellFormed

/-!
What a compiled flow says of its definition. The graph, the entry and the definitions of the nodes are made in
one pass over the nodes and the edges; each of them is what the declarations say, in the order of declaration.
-/

namespace MessageFlow

/-- A choice has these targets, for a branch or for everything else. -/
def ChoiceDefinition.Offers (c : ChoiceDefinition) (targets : List String) : Prop :=
  targets ∈ c.branches.map ChoiceBranch.targets ∨ c.otherwise = some targets

namespace FlowDefinition
variable {components : ComponentLookup} {f : FlowDefinition} {g : CompiledGraph} {n : Node} {i : Nat}

/-- A choice with the clauses of its node. Each branch leads to the targets of the edges with its label, and so
do messages that no branch is chosen for. -/
structure Chooses (f : FlowDefinition) (n : Node) (c : ChoiceDefinition) : Prop where
  branches : c.branches = n.whenClauses.map (fun w =>
    ⟨w.label, branchTargets f.edges n.id w.label, ⟨w.language, w.expression⟩⟩)
  otherwise : ∀ targets, c.otherwise = some targets ↔
    ∃ label, n.otherwiseLabel = some label ∧ branchTargets f.edges n.id label = targets ∧ targets ≠ []
  reachable : ∀ targets, c.Offers targets → targets ≠ [] ∧ targets.Nodup

/-- The compiled flow has the nodes, the edges and the clauses of the definition. -/
structure Describes (components : ComponentLookup) (f : FlowDefinition) (g : CompiledGraph) : Prop where
  flowId : g.flowId = f.id
  size : g.size = f.nodes.length
  numbered : ∀ i n, f.nodes[i]? = some n → g.node? n.id = some i ∧ g.name i = n.id
  successors : ∀ i n, f.nodes[i]? = some n → (g.successors i).map g.name = targetsOf f.edges n.id
  entry : ∃ n c, f.untargeted = [n] ∧ f.nodes[g.entryNode]? = some n ∧
    components n.component = some c ∧ g.entry = ⟨n.id, c.name, c.binding, n.parameters⟩
  defined : g.defined.map Prod.fst = (List.range f.nodes.length).filter (· ≠ g.entryNode)
  steps : ∀ i n, f.nodes[i]? = some n → i ≠ g.entryNode → n.kind ≠ .choice →
    ∃ c, components n.component = some c ∧ g.definition? i = some (.step ⟨c.name, c.binding, n.parameters⟩)
  choices : ∀ i n, f.nodes[i]? = some n → i ≠ g.entryNode → n.kind = .choice →
    ∃ c, g.definition? i = some (.choice c) ∧ f.Chooses n c ∧
      ∀ targets, c.Offers targets → ∀ id ∈ targets, id ∈ (g.successors i).map g.name

/-- The targets of a choice are those of a label of its node that has edges. -/
theorem exists_label_of_offers {targets : List String}
    (hclauses : ∀ w ∈ n.whenClauses, branchTargets f.edges n.id w.label ≠ [])
    (h : ChoiceDefinition.Offers
      ⟨n.whenClauses.map (f.branchOf n), n.otherwiseLabel.bind (branchTargets? f.edges n.id)⟩ targets) :
    targets ≠ [] ∧ ∃ label, branchTargets f.edges n.id label = targets := by
  rcases h with hbranch | hother
  · rw [List.map_map] at hbranch
    obtain ⟨w, hw, rfl⟩ := List.mem_map.1 hbranch
    exact ⟨hclauses w hw, w.label, rfl⟩
  · obtain ⟨label, -, hlabel⟩ := Option.bind_eq_some_iff.1 hother
    obtain ⟨htargets, hne⟩ := branchTargets?_eq_some_iff.1 hlabel
    exact ⟨hne, label, htargets⟩

theorem chooses (hclauses : ∀ w ∈ n.whenClauses, branchTargets f.edges n.id w.label ≠ []) :
    f.Chooses n ⟨n.whenClauses.map (f.branchOf n), n.otherwiseLabel.bind (branchTargets? f.edges n.id)⟩ where
  branches := rfl
  otherwise targets := by
    rw [Option.bind_eq_some_iff]
    simp only [branchTargets?_eq_some_iff]
  reachable targets h := by
    obtain ⟨hne, label, rfl⟩ := exists_label_of_offers hclauses h
    exact ⟨hne, nodup_eraseDups _⟩

/-- A choice that is not the entry has its definition, and leads nowhere but along edges. -/
theorem Compiled.exists_choice (h : Compiled components f g) (hn : f.nodes[i]? = some n)
    (hi : i ≠ g.entryNode) (hk : n.kind = .choice) :
    ∃ c, g.definition? i = some (.choice c) ∧ f.Chooses n c ∧
      ∀ targets, c.Offers targets → ∀ id ∈ targets, id ∈ (g.successors i).map g.name := by
  obtain ⟨d, hd, hdef⟩ := h.exists_definition hn hi
  cases hd with
  | step hstep _ => exact absurd hk hstep
  | choice _ hclauses =>
    refine ⟨_, hdef, chooses hclauses, fun targets ht id hid => ?_⟩
    obtain ⟨-, label, rfl⟩ := exists_label_of_offers hclauses ht
    rw [h.map_name_successors hn]
    exact mem_targetsOf_of_mem_branchTargets hid

/-- A compiled flow says what its definition says. -/
theorem compile_describes (h : f.compile components = .ok g) : f.Describes components g := by
  have hc : Compiled components f g := compile_ok_iff.1 h
  refine ⟨hc.flowId, hc.size, ?numbered, fun i n hn => hc.map_name_successors hn, ?entry, ?defined, ?steps,
    ?choices⟩
  case numbered =>
    intro i n hn
    refine ⟨hc.node?_eq_some_iff.2 ?_, hc.name hn⟩
    rw [hn, Option.map_some]
  case entry =>
    obtain ⟨n, c, hn, hcomponent, hentry⟩ := hc.exists_entry
    exact ⟨n, c, (hc.startsAt hn).root, hn, hcomponent, hentry⟩
  case defined => rw [hc.map_fst_defined, hc.size]
  case steps =>
    intro i n hn hi hk
    obtain ⟨d, hd, hdef⟩ := hc.exists_definition hn hi
    cases hd with
    | step _ hcomponent => exact ⟨_, hcomponent, hdef⟩
    | choice hchoice _ => exact absurd hchoice hk
  case choices =>
    intro i n hn hi hk
    exact hc.exists_choice hn hi hk

/-- Urgent mail goes to two nodes, although three edges say so. -/
theorem compile_describes_mail : ∃ g, Mail.flow.compile Mail.host.components = .ok g ∧
    Mail.flow.Describes Mail.host.components g ∧
    (g.successors 1).map g.name = ["record", "store", "deliver"] ∧
    g.definition? 1 = some (.choice
      ⟨[⟨"urgent", ["record", "deliver"], ⟨none, "express"⟩⟩], some ["store"]⟩) :=
  ⟨_, rfl, compile_describes rfl, rfl, rfl⟩

end FlowDefinition
end MessageFlow
