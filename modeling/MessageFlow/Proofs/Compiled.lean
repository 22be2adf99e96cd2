import MessageFlow.Proofs.Compilation

/-!
What a compiled flow is made of: the nodes in the order of declaration, what follows each of them along the
edges, the entry, and the definitions of the others.
-/

namespace MessageFlow
namespace FlowDefinition
variable {components : ComponentLookup} {f : FlowDefinition} {g : CompiledGraph} {n : Node} {i j : Nat}

namespace Compiled

variable (h : Compiled components f g)
include h

theorem names : g.arena.names = f.nodes.map Node.id := by
  rw [h.arena, names_linked_named]

theorem size : g.size = f.nodes.length := by
  rw [CompiledGraph.size, ← Arena.length_names, h.names, List.length_map]

theorem lt_size_iff : i < g.size ↔ ∃ n, f.nodes[i]? = some n := by
  rw [h.size, ← Option.isSome_iff_exists, isSome_getElem?]

theorem name (hn : f.nodes[i]? = some n) : g.name i = n.id := by
  rw [CompiledGraph.name, Arena.name_eq, h.names]
  simp [hn]

theorem qualified (hn : f.nodes[i]? = some n) : g.qualified i = StageId.qualify f.id n.id := by
  rw [CompiledGraph.qualified, h.flowId, h.name hn]

/-- A name belongs to the node that was declared with it. -/
theorem node?_eq_some_iff {id : String} : g.node? id = some i ↔ (f.nodes[i]?).map Node.id = some id :=
  find?_eq_some_iff h.nodup h.names

theorem ends_iff {e : Edge} : f.named.Ends e i j ↔ g.node? e.source = some i ∧ g.node? e.target = some j := by
  rw [← Arena.ends_iff_of_names (h.arena ▸ Arena.names_linked f.named f.edges)]
  exact ⟨fun he => ⟨he.source, he.target⟩, fun he => ⟨he.1, he.2⟩⟩

/-- One node follows another if and only if an edge leads there. -/
theorem mem_successors : j ∈ g.successors i ↔
    ∃ e ∈ f.edges, g.node? e.source = some i ∧ g.node? e.target = some j := by
  rw [CompiledGraph.successors, h.arena, Arena.mem_successors_linked]
  simp [named, ← h.ends_iff]

theorem lt_size_of_mem_successors (hj : j ∈ g.successors i) : j < g.size := by
  obtain ⟨edge, -, -, htarget⟩ := h.mem_successors.1 hj
  exact Arena.lt_size_of_find? htarget

/-- No node follows another twice. -/
theorem nodup_successors (i : Nat) : (g.successors i).Nodup := by
  rw [CompiledGraph.successors, h.arena]
  exact Arena.nodup_successors_linked (by simp [named]) f.edges

theorem counted : g.arena.Counted := by
  rw [h.arena]
  exact (Arena.counted_ofNames _).linked f.edges

theorem mem_roots : i ∈ g.arena.roots ↔ i < g.size ∧ ∀ k, i ∉ g.successors k := by
  rw [Arena.roots, List.mem_filter, List.mem_range, decide_eq_true_eq, h.counted.inDegree_eq_zero_iff]
  rfl

theorem entry_root : g.entryNode < g.size ∧ ∀ k, g.entryNode ∉ g.successors k := by
  apply h.mem_roots.1
  rw [h.roots]
  exact List.mem_singleton_self _

/-- No edge leads to the entry. -/
theorem entry_not_successor (i : Nat) : g.entryNode ∉ g.successors i := h.entry_root.2 i

/-- The entry stands for its node and the component of the node. -/
theorem exists_entry : ∃ n c, f.nodes[g.entryNode]? = some n ∧ components n.component = some c ∧
    g.entry = ⟨n.id, c.name, c.binding, n.parameters⟩ := by
  obtain ⟨n, hn⟩ := h.lt_size_iff.1 h.entry_root.1
  have hentry := h.entry
  rw [hn, Option.getD_some] at hentry
  obtain ⟨c, hc, he⟩ := entryNode_ok_iff.1 hentry
  exact ⟨n, c, hn, hc, he.symm⟩

/-- Where the edges of a node lead: one node after another, in the order of the edges. -/
theorem map_name_successors (hn : f.nodes[i]? = some n) :
    (g.successors i).map g.name = targetsOf f.edges n.id := by
  have hi : (f.named.linked f.edges).names[i]? = some n.id := by
    rw [names_linked_named, List.getElem?_map, hn, Option.map_some]
  have hs := congrArg (List.map (fun name : Option String => name.getD ""))
    ((reads_table h.nodup h.fits).successors i n.id hi)
  have hname : g.name = fun j => (g.arena.names[j]?).getD "" := funext g.arena.name_eq
  rw [List.map_map, List.map_map, ← h.arena] at hs
  rw [hname, CompiledGraph.successors]
  exact hs.trans (List.map_id _)

/-- The names of the successors are resolved to the successors. -/
theorem map_node?_targetsOf (hn : f.nodes[i]? = some n) :
    (targetsOf f.edges n.id).map g.node? = (g.successors i).map some := by
  rw [← h.map_name_successors hn, List.map_map]
  apply List.map_congr_left
  intro j hj
  obtain ⟨m, hm⟩ := h.lt_size_iff.1 (h.lt_size_of_mem_successors hj)
  rw [Function.comp_apply, h.name hm, h.node?_eq_some_iff, hm, Option.map_some]

/-- What is not the number of a node has no successors. -/
theorem successors_of_none (hn : f.nodes[i]? = none) : g.successors i = [] := by
  rw [List.eq_nil_iff_forall_not_mem]
  intro j hj
  obtain ⟨e, -, hi, -⟩ := h.mem_successors.1 hj
  have hid := h.node?_eq_some_iff.1 hi
  rw [hn] at hid
  cases hid

/-- Each node but the entry has the definition of what it becomes. -/
theorem exists_definition (hn : f.nodes[i]? = some n) (hi : i ≠ g.entryNode) :
    ∃ d, Becomes components f n d ∧ g.definition? i = some d := by
  obtain ⟨d, hd, hds⟩ := h.definitions.elsewhere i n hn hi
  exact ⟨d, hd, by rw [CompiledGraph.definition?, hds, Option.join_some]⟩

theorem definition?_entry : g.definition? g.entryNode = none := by
  obtain ⟨n, -, hn, -⟩ := h.exists_entry
  rw [CompiledGraph.definition?, h.definitions.atEntry n hn, Option.join_some]

theorem definition?_eq_some_iff {d : NodeDefinition} : g.definition? i = some d ↔
    ∃ n, f.nodes[i]? = some n ∧ i ≠ g.entryNode ∧ Becomes components f n d := by
  constructor
  · intro hd
    have hi : i ≠ g.entryNode := by
      rintro rfl
      cases h.definition?_entry.symm.trans hd
    have hlt : i < f.nodes.length := by
      rw [CompiledGraph.definition?, Option.join_eq_some_iff] at hd
      rw [← h.definitions.length]
      exact (List.getElem?_eq_some_iff.1 hd).1
    have hn : f.nodes[i]? = some f.nodes[i] := List.getElem?_eq_getElem hlt
    obtain ⟨c, hc, hdef⟩ := h.exists_definition hn hi
    exact ⟨f.nodes[i], hn, hi, Option.some.inj (hd.symm.trans hdef) ▸ hc⟩
  · rintro ⟨n, hn, hi, hd⟩
    obtain ⟨c, hc, hdef⟩ := h.exists_definition hn hi
    rw [hdef, hc.unique hd]

/-- All nodes but the entry have a definition. -/
theorem isSome_definition? (hi : i < g.size) : (g.definition? i).isSome ↔ i ≠ g.entryNode := by
  obtain ⟨n, hn⟩ := h.lt_size_iff.1 hi
  constructor
  · rintro hd rfl
    rw [h.definition?_entry] at hd
    cases hd
  · intro hne
    obtain ⟨d, -, hd⟩ := h.exists_definition hn hne
    rw [hd]
    rfl

/-- The definitions stand in the order of the nodes. -/
theorem map_fst_defined : g.defined.map Prod.fst = (List.range g.size).filter (· ≠ g.entryNode) := by
  have hguard : (fun i => ((g.definition? i).map (fun d => (i, d))).map Prod.fst) =
      Option.guard (fun i => (g.definition? i).isSome) := by
    funext i
    cases hd : g.definition? i <;> simp [Option.guard, hd]
  rw [CompiledGraph.defined, List.map_filterMap, hguard, List.filterMap_eq_filter]
  apply List.filter_congr
  intro i hi
  rw [Bool.eq_iff_iff, h.isSome_definition? (List.mem_range.1 hi), decide_eq_true_eq]

theorem mem_defined {d : NodeDefinition} : (i, d) ∈ g.defined ↔ g.definition? i = some d := by
  have hlt (hd : g.definition? i = some d) : i < g.size := by
    obtain ⟨n, hn, -, -⟩ := h.definition?_eq_some_iff.1 hd
    exact h.lt_size_iff.2 ⟨n, hn⟩
  simp only [CompiledGraph.defined, List.mem_filterMap, List.mem_range, Option.map_eq_some_iff,
    Prod.mk.injEq]
  constructor
  · rintro ⟨k, -, c, hc, rfl, rfl⟩
    exact hc
  · intro hd
    exact ⟨i, hlt hd, d, hd, rfl, rfl⟩

end Compiled
end FlowDefinition
end MessageFlow
