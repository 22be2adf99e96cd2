import MessageFlow.Proofs.Except
import MessageFlow.Proofs.Identifier
import MessageFlow.Proofs.Targets

/-!
What compilation accepts. Each part of it is described by what it takes for the part to go well and what it then
builds; together they say what it takes for a flow to be compiled, and what the flow becomes.
-/

namespace MessageFlow

namespace FlowDefinition
variable {a b : Arena} {t : BranchTable} {nodes : List Node} {edges : List Edge}
  {components : ComponentLookup} {f : FlowDefinition} {g : CompiledGraph} {n : Node} {i j : Nat}

/-- Nodes are added when their ids are fit and new. -/
theorem addNodes_ok_iff : addNodes a nodes = .ok b ↔
    (∀ n ∈ nodes, Admitted n.id) ∧ (∀ n ∈ nodes, n.id ∉ a.names) ∧ (nodes.map Node.id).Nodup ∧
      b = ⟨a.vertices ++ (Arena.ofNames (nodes.map Node.id)).vertices⟩ := by
  induction nodes generalizing a with
  | nil =>
    simp [addNodes, Arena.ofNames, eq_comm]
  | cons n rest ih =>
    have hcons : addNodes a (n :: rest) = .ok b ↔ Admitted n.id ∧ n.id ∉ a.names ∧
        addNodes ⟨a.vertices ++ [{ name := n.id }]⟩ rest = .ok b := by
      rw [addNodes, ← checkIdentifier_ok_iff]
      cases hc : checkIdentifier n.id with
      | error err => simp
      | ok u =>
        cases hi : a.insert? n.id with
        | none =>
          have hn : n.id ∈ a.names := by
            false_or_by_contra
            next hn => exact absurd (Arena.insert?_eq_some_iff.2 ⟨hn, rfl⟩) (by simp [hi])
          simp [hn]
        | some c =>
          obtain ⟨hn, rfl⟩ := Arena.insert?_eq_some_iff.1 hi
          simp [hn]
    have hnames : (⟨a.vertices ++ [{ name := n.id }]⟩ : Arena).names = a.names ++ [n.id] := by
      simp [Arena.names]
    rw [hcons, ih, hnames]
    simp only [Arena.ofNames, List.map_cons, List.append_assoc, List.singleton_append, List.mem_append,
      not_or, List.mem_cons, forall_eq_or_imp, List.nodup_cons, List.mem_map]
    grind

/-- An edge that may be connected: both ends are declared, and it has a label if it leaves a choice. -/
structure Fits (nodes : List Node) (a : Arena) (e : Edge) (i j : Nat) : Prop extends a.Ends e i j where
  labelled : ¬ (e.label = none ∧ isChoice nodes i = true)

theorem endpoint_ok_iff {e : Edge} {id : String} : endpoint a e id = .ok i ↔ a.find? id = some i := by
  unfold endpoint
  cases a.find? id <;> simp

theorem connectEdges_cons_ok_iff {e : Edge} {p : Arena × BranchTable} :
    connectEdges nodes a t (e :: edges) = .ok p ↔
      (∃ i j, Fits nodes a e i j) ∧ connectEdges nodes (a.link e) (t.noteEdge a.names e) edges = .ok p := by
  rw [connectEdges]
  cases hs : endpoint a e e.source with
  | error err =>
    have hn : ∀ i j, ¬ Fits nodes a e i j := fun i j h => by
      rw [endpoint_ok_iff.2 h.source] at hs
      cases hs
    simp [hn]
  | ok i =>
    cases ht : endpoint a e e.target with
    | error err =>
      have hn : ∀ i j, ¬ Fits nodes a e i j := fun i j h => by
        rw [endpoint_ok_iff.2 h.target] at ht
        cases ht
      simp [hn]
    | ok j =>
      have hends : a.Ends e i j := ⟨endpoint_ok_iff.1 hs, endpoint_ok_iff.1 ht⟩
      have hfind : a.names.findIdx? (fun name => name = e.source) = some i :=
        Arena.find?_eq_findIdx?.symm.trans hends.source
      rw [Arena.link_of_ends hends, BranchTable.noteEdge, hfind]
      cases hl : e.label with
      | some label =>
        have hfits : ∃ i j, Fits nodes a e i j := ⟨i, j, hends, by simp [hl]⟩
        exact ⟨fun h => ⟨hfits, h⟩, fun h => h.2⟩
      | none =>
        dsimp only
        by_cases hc : isChoice nodes i = true
        · have hn : ∀ k l, ¬ Fits nodes a e k l := fun k l h => by
            obtain ⟨rfl, -⟩ := hends.unique h.toEnds
            exact h.labelled ⟨hl, hc⟩
          simp [hc, hn]
        · have hfits : ∃ i j, Fits nodes a e i j := ⟨i, j, hends, fun h => hc h.2⟩
          rw [if_neg hc]
          exact ⟨fun h => ⟨hfits, h⟩, fun h => h.2⟩

/-- Edges are connected when each of them fits. -/
theorem connectEdges_ok_iff {p : Arena × BranchTable} : connectEdges nodes a t edges = .ok p ↔
    (∀ e ∈ edges, ∃ i j, Fits nodes a e i j) ∧ p = (a.linked edges, t.noted a.names edges) := by
  induction edges generalizing a t with
  | nil => simp [connectEdges, Arena.linked, BranchTable.noted, eq_comm]
  | cons e rest ih =>
    have hfits (d : Edge) (i j : Nat) : Fits nodes (a.link e) d i j ↔ Fits nodes a d i j := by
      have hends := Arena.ends_iff_of_names (e := d) (i := i) (j := j) (a.names_link e)
      exact ⟨fun h => ⟨hends.1 h.toEnds, h.labelled⟩, fun h => ⟨hends.2 h.toEnds, h.labelled⟩⟩
    rw [connectEdges_cons_ok_iff, ih]
    simp only [hfits, Arena.names_link, List.mem_cons, forall_eq_or_imp, and_assoc]
    rfl

/-- The entry is the one root, and no other node is declared as the entry. -/
theorem findEntry_ok_iff : findEntry nodes a = .ok i ↔
    a.roots = [i] ∧ ∀ n ∈ nodes, n.kind = .entry → a.find? n.id = some i := by
  unfold findEntry
  split
  · next h => simp [h]
  · next entry h =>
    cases hf : nodes.find? (fun n => n.kind = .entry ∧ a.find? n.id ≠ some entry) with
    | some n =>
      have hn := List.find?_some hf
      have hm := List.mem_of_find?_eq_some hf
      simp only [ne_eq, decide_eq_true_eq] at hn
      constructor
      · intro hi
        cases hi
      · rintro ⟨hr, ha⟩
        rw [h, List.cons.injEq] at hr
        exact absurd (hr.1 ▸ ha n hm hn.1) hn.2
    | none =>
      rw [List.find?_eq_none] at hf
      simp only [ne_eq, decide_eq_true_eq, not_and, Decidable.not_not] at hf
      rw [h]
      constructor
      · intro hi
        cases hi
        exact ⟨rfl, hf⟩
      · rintro ⟨hr, -⟩
        rw [List.cons.injEq] at hr
        rw [hr.1]
  · next h =>
    constructor
    · intro hi
      cases hi
    · rintro ⟨hr, -⟩
      exact absurd hr (h i)

/-- The branch of a clause: its label, the targets of the edges with this label, and its predicate. -/
def branchOf (f : FlowDefinition) (n : Node) (w : WhenClause) : ChoiceBranch :=
  ⟨w.label, branchTargets f.edges n.id w.label, ⟨w.language, w.expression⟩⟩

/-- What a node other than the entry becomes. A choice has a branch for each clause, none of them without
edges, and the targets of the label for everything else, if that has edges. -/
inductive Becomes (components : ComponentLookup) (f : FlowDefinition) (n : Node) : NodeDefinition → Prop
  | step {c : Component} : n.kind ≠ .choice → components n.component = some c →
      Becomes components f n (.step ⟨c.name, c.binding, n.parameters⟩)
  | choice : n.kind = .choice → (∀ w ∈ n.whenClauses, branchTargets f.edges n.id w.label ≠ []) →
      Becomes components f n (.choice
        ⟨n.whenClauses.map (f.branchOf n), n.otherwiseLabel.bind (branchTargets? f.edges n.id)⟩)

theorem Becomes.unique {c d : NodeDefinition} (hc : Becomes components f n c) (hd : Becomes components f n d) :
    c = d := by
  cases hc with
  | step hstep hc =>
    cases hd with
    | step _ hd => rw [Option.some.inj (hc.symm.trans hd)]
    | choice hchoice _ => exact absurd hchoice hstep
  | choice hchoice _ =>
    cases hd with
    | step hstep _ => exact absurd hchoice hstep
    | choice _ _ => rfl

theorem resolveComponent_ok_iff {c : Component} :
    resolveComponent components n = .ok c ↔ components n.component = some c := by
  unfold resolveComponent
  cases components n.component <;> simp

theorem entryNode_ok_iff {entry : EntryNode} : entryNode components n = .ok entry ↔
    ∃ c, components n.component = some c ∧ ⟨n.id, c.name, c.binding, n.parameters⟩ = entry := by
  rw [entryNode, map_eq_ok_iff]
  simp only [resolveComponent_ok_iff]

section Table
variable (ht : ∀ label, t.get? i label = branchTargets? f.edges n.id label)
include ht

theorem choiceBranch_ok_iff {w : WhenClause} {branch : ChoiceBranch} : choiceBranch t i n w = .ok branch ↔
    branchTargets f.edges n.id w.label ≠ [] ∧ f.branchOf n w = branch := by
  unfold choiceBranch branchOf
  rw [ht]
  cases hb : branchTargets f.edges n.id w.label <;> simp [branchTargets?, hb]

theorem choiceDefinition_ok_iff {c : ChoiceDefinition} : choiceDefinition t i n = .ok c ↔
    (∀ w ∈ n.whenClauses, branchTargets f.edges n.id w.label ≠ []) ∧
      c = ⟨n.whenClauses.map (f.branchOf n), n.otherwiseLabel.bind (branchTargets? f.edges n.id)⟩ := by
  have hotherwise : n.otherwiseLabel.bind (t.get? i) = n.otherwiseLabel.bind (branchTargets? f.edges n.id) := by
    rw [funext ht]
  have hbranches {branches : List ChoiceBranch} : n.whenClauses.mapM (choiceBranch t i n) = .ok branches ↔
      (∀ w ∈ n.whenClauses, branchTargets f.edges n.id w.label ≠ []) ∧
        n.whenClauses.map (f.branchOf n) = branches :=
    mapM_eq_ok_iff.trans (map_eq_map_ok_iff (fun w branch => choiceBranch_ok_iff ht))
  unfold choiceDefinition
  rw [hotherwise]
  cases h : n.whenClauses.mapM (choiceBranch t i n) with
  | error err =>
    have hnot : ¬ ∀ w ∈ n.whenClauses, branchTargets f.edges n.id w.label ≠ [] := fun hall => by
      rw [hbranches.2 ⟨hall, rfl⟩] at h
      cases h
    simp [hnot]
  | ok branches =>
    obtain ⟨hall, rfl⟩ := hbranches.1 h
    simp only [Except.ok.injEq, and_iff_right hall]
    exact eq_comm

/-- Each node gets the definition of what it becomes. -/
theorem nodeDefinition_ok_iff {d : NodeDefinition} :
    nodeDefinition components t i n = .ok d ↔ Becomes components f n d := by
  by_cases hk : n.kind = .choice
  · simp only [nodeDefinition, hk, map_eq_ok_iff, choiceDefinition_ok_iff ht]
    constructor
    · rintro ⟨c, ⟨hall, rfl⟩, rfl⟩
      exact .choice hk hall
    · intro h
      cases h with
      | step hstep _ => exact absurd hk hstep
      | choice _ hall => exact ⟨_, ⟨hall, rfl⟩, rfl⟩
  · have hstep : nodeDefinition components t i n = .ok d ↔
        ∃ c, components n.component = some c ∧ .step ⟨c.name, c.binding, n.parameters⟩ = d := by
      cases hn : n.kind with
      | choice => exact absurd hn hk
      | entry | step => simp only [nodeDefinition, hn, map_eq_ok_iff, resolveComponent_ok_iff]
    rw [hstep]
    constructor
    · rintro ⟨c, hc, rfl⟩
      exact .step hk hc
    · intro h
      cases h with
      | step _ hc => exact ⟨_, hc, rfl⟩
      | choice hchoice _ => exact absurd hchoice hk

end Table

/-- What is put at the place of a node. -/
def definitionAt (components : ComponentLookup) (t : BranchTable) (entry : Nat) (p : Node × Nat) :
    Except CompileError (Option NodeDefinition) :=
  if p.2 = entry then .ok none else (nodeDefinition components t p.2 p.1).map some

theorem definitions_cons_ok_iff {entry : Nat} {ds : List (Option NodeDefinition)} :
    definitions components t entry i (n :: nodes) = .ok ds ↔
      ∃ d es, definitionAt components t entry (n, i) = .ok d ∧
        definitions components t entry (i + 1) nodes = .ok es ∧ d :: es = ds := by
  rw [definitions, definitionAt]
  dsimp only
  split
  · simp [map_eq_ok_iff]
  · cases nodeDefinition components t i n with
    | error err => simp [Except.map]
    | ok d => simp [map_eq_ok_iff]

theorem definitions_ok_iff {entry : Nat} {ds : List (Option NodeDefinition)} :
    definitions components t entry i nodes = .ok ds ↔
      (nodes.zipIdx i).map (definitionAt components t entry) = ds.map .ok := by
  induction nodes generalizing i ds with
  | nil => cases ds <;> simp [definitions]
  | cons n rest ih =>
    rw [definitions_cons_ok_iff, List.zipIdx_cons, List.map_cons]
    constructor
    · rintro ⟨d, es, hd, hes, rfl⟩
      rw [List.map_cons, hd, ih.1 hes]
    · intro h
      cases ds with
      | nil => cases h
      | cons d es =>
        rw [List.map_cons, List.cons.injEq] at h
        exact ⟨d, es, h.1, ih.2 h.2, rfl⟩

/-- The definitions run along the nodes of a flow: the entry has none, and each other node has that of what
it becomes. -/
structure Defines (components : ComponentLookup) (f : FlowDefinition) (entry : Nat)
    (ds : List (Option NodeDefinition)) : Prop where
  length : ds.length = f.nodes.length
  atEntry : ∀ n, f.nodes[entry]? = some n → ds[entry]? = some none
  elsewhere : ∀ i n, f.nodes[i]? = some n → i ≠ entry →
    ∃ d, Becomes components f n d ∧ ds[i]? = some (some d)

/-- The table has for each node what the edges of the node say. -/
def Tabled (f : FlowDefinition) (t : BranchTable) : Prop :=
  ∀ i n, f.nodes[i]? = some n → ∀ label, t.get? i label = branchTargets? f.edges n.id label

theorem definitions_iff_defines (ht : f.Tabled t) {entry : Nat} {ds : List (Option NodeDefinition)} :
    definitions components t entry 0 f.nodes = .ok ds ↔ Defines components f entry ds := by
  have hplace (i : Nat) : ((f.nodes.zipIdx 0).map (definitionAt components t entry))[i]? =
      (f.nodes[i]?).map (fun n => definitionAt components t entry (n, i)) := by
    simp [List.getElem?_map, List.getElem?_zipIdx, Function.comp_def]
  rw [definitions_ok_iff]
  constructor
  · intro h
    have hlength := congrArg List.length h
    simp only [List.length_map, List.length_zipIdx] at hlength
    have hat (i : Nat) (n : Node) (hn : f.nodes[i]? = some n) :
        ∃ d, ds[i]? = some d ∧ definitionAt components t entry (n, i) = .ok d := by
      have hi := hplace i
      rw [h, List.getElem?_map, hn, Option.map_some, Option.map_eq_some_iff] at hi
      obtain ⟨d, hd, he⟩ := hi
      exact ⟨d, hd, he.symm⟩
    refine ⟨hlength.symm, fun n hn => ?_, fun i n hn hi => ?_⟩
    · obtain ⟨d, hd, he⟩ := hat entry n hn
      rw [definitionAt, if_pos rfl] at he
      cases he
      exact hd
    · obtain ⟨d, hd, he⟩ := hat i n hn
      rw [definitionAt, if_neg hi] at he
      obtain ⟨x, hx, rfl⟩ := map_eq_ok_iff.1 he
      exact ⟨x, (nodeDefinition_ok_iff (ht i n hn)).1 hx, hd⟩
  · intro h
    apply List.ext_getElem?
    intro i
    rw [hplace, List.getElem?_map]
    cases hn : f.nodes[i]? with
    | none =>
      have hd : ds[i]? = none := by
        rw [List.getElem?_eq_none_iff] at hn ⊢
        rw [h.length]
        exact hn
      rw [hd, Option.map_none, Option.map_none]
    | some n =>
      rw [Option.map_some, definitionAt]
      by_cases hi : i = entry
      · rw [if_pos hi, hi, h.atEntry n (hi ▸ hn), Option.map_some]
      · obtain ⟨d, hd, hds⟩ := h.elsewhere i n hn hi
        rw [if_neg hi, (nodeDefinition_ok_iff (ht i n hn)).2 hd, hds]
        rfl

/-- Definitions are found if each node but the entry can become something. -/
theorem exists_defines (ht : f.Tabled t) {entry : Nat}
    (hb : ∀ i n, f.nodes[i]? = some n → i ≠ entry → ∃ d, Becomes components f n d) :
    ∃ ds, Defines components f entry ds := by
  have hplaces : ∀ p ∈ f.nodes.zipIdx, ∃ d, definitionAt components t entry p = .ok d := by
    rintro ⟨n, i⟩ hp
    have hn : f.nodes[i]? = some n := List.mk_mem_zipIdx_iff_getElem?.1 hp
    by_cases hi : i = entry
    · exact ⟨none, if_pos hi⟩
    · obtain ⟨d, hd⟩ := hb i n hn hi
      refine ⟨some d, ?_⟩
      rw [definitionAt, if_neg hi, (nodeDefinition_ok_iff (ht i n hn)).2 hd]
      rfl
  obtain ⟨ds, hds⟩ := exists_map_ok_iff.2 hplaces
  exact ⟨ds, (definitions_iff_defines ht).1 (definitions_ok_iff.2 hds)⟩

/-- The vertices of the nodes of a flow, before edges are connected. -/
def named (f : FlowDefinition) : Arena := .ofNames (f.nodes.map Node.id)

theorem names_named (f : FlowDefinition) : f.named.names = f.nodes.map Node.id := Arena.names_ofNames _

theorem addNodes_empty_ok_iff : addNodes {} f.nodes = .ok b ↔
    (∀ n ∈ f.nodes, Admitted n.id) ∧ (f.nodes.map Node.id).Nodup ∧ b = f.named := by
  have hnew : ∀ n ∈ f.nodes, n.id ∉ ({} : Arena).names := fun _ _ hm => List.not_mem_nil hm
  rw [addNodes_ok_iff, and_iff_right hnew]
  rfl

/-- Nodes with one id are the same node, if no id is given twice. -/
theorem index_inj (hn : (f.nodes.map Node.id).Nodup) {m : Node} (hi : f.nodes[i]? = some m)
    (hj : f.nodes[j]? = some n) (hid : m.id = n.id) : i = j := by
  have hlt : i < (f.nodes.map Node.id).length := by
    rw [List.length_map]
    exact (List.getElem?_eq_some_iff.1 hi).1
  apply (List.getElem?_inj hlt hn).1
  rw [List.getElem?_map, List.getElem?_map, hi, hj, Option.map_some, Option.map_some, hid]

/-- Where the vertices are the nodes, a name is found at the node that was declared with it. -/
theorem find?_eq_some_iff (hn : (f.nodes.map Node.id).Nodup) (ha : a.names = f.nodes.map Node.id)
    {id : String} : a.find? id = some i ↔ (f.nodes[i]?).map Node.id = some id := by
  rw [Arena.find?_eq_some_iff (ha ▸ hn), ha, List.getElem?_map]

/-- The table of a flow: the targets of all its edges under their labels. -/
def table (f : FlowDefinition) : BranchTable := ({} : BranchTable).noted f.named.names f.edges

/-- When all edges fit, the graph and the table of a flow say what its edges say. -/
theorem reads_table (hn : (f.nodes.map Node.id).Nodup)
    (hfits : ∀ e ∈ f.edges, ∃ i j, Fits f.nodes f.named e i j) :
    (f.named.linked f.edges).Reads f.table f.edges := by
  have hends : ∀ e ∈ f.edges, ∃ i j, f.named.Ends e i j := fun e he => by
    obtain ⟨i, j, h⟩ := hfits e he
    exact ⟨i, j, h.toEnds⟩
  have hnodup : f.named.names.Nodup := by rwa [names_named]
  exact (Arena.reads_ofNames (f.nodes.map Node.id)).linked hnodup hends

theorem names_linked_named (f : FlowDefinition) : (f.named.linked f.edges).names = f.nodes.map Node.id := by
  rw [Arena.names_linked, names_named]

theorem tabled (hn : (f.nodes.map Node.id).Nodup)
    (hfits : ∀ e ∈ f.edges, ∃ i j, Fits f.nodes f.named e i j) : f.Tabled f.table := by
  intro i n hi label
  apply (reads_table hn hfits).branches
  rw [names_linked_named, List.getElem?_map, hi, Option.map_some]

/-- What it takes for a flow to be compiled, and what it becomes. -/
structure Compiled (components : ComponentLookup) (f : FlowDefinition) (g : CompiledGraph) : Prop where
  flow : Admitted f.id
  nodes : ∀ n ∈ f.nodes, Admitted n.id
  nodup : (f.nodes.map Node.id).Nodup
  fits : ∀ e ∈ f.edges, ∃ i j, Fits f.nodes f.named e i j
  roots : g.arena.roots = [g.entryNode]
  entryKind : ∀ n ∈ f.nodes, n.kind = .entry → g.arena.find? n.id = some g.entryNode
  flowId : g.flowId = f.id
  arena : g.arena = f.named.linked f.edges
  entry : entryNode components ((f.nodes[g.entryNode]?).getD default) = .ok g.entry
  definitions : Defines components f g.entryNode g.definitions

theorem compile_ok_iff : f.compile components = .ok g ↔ Compiled components f g := by
  unfold compile
  constructor
  · intro h
    obtain ⟨u, hflow, h⟩ := bind_eq_ok_iff.1 h
    obtain ⟨named, hnodes, h⟩ := bind_eq_ok_iff.1 h
    obtain ⟨⟨arena, table⟩, hedges, h⟩ := bind_eq_ok_iff.1 h
    obtain ⟨entryIndex, hroot, h⟩ := bind_eq_ok_iff.1 h
    obtain ⟨entry, hentry, h⟩ := bind_eq_ok_iff.1 h
    obtain ⟨ds, hds, h⟩ := bind_eq_ok_iff.1 h
    cases h
    obtain ⟨hfit, hnodup, rfl⟩ := addNodes_empty_ok_iff.1 hnodes
    obtain ⟨hfits, hlinked⟩ := connectEdges_ok_iff.1 hedges
    obtain ⟨harena, rfl⟩ := Prod.mk.inj hlinked
    obtain ⟨hroots, hkind⟩ := findEntry_ok_iff.1 hroot
    have hdefines := (definitions_iff_defines (tabled hnodup hfits)).1 hds
    exact ⟨checkIdentifier_ok_iff.1 hflow, hfit, hnodup, hfits, hroots, hkind, rfl, harena, hentry, hdefines⟩
  · intro h
    refine bind_eq_ok_iff.2 ⟨(), checkIdentifier_ok_iff.2 h.flow, ?_⟩
    refine bind_eq_ok_iff.2 ⟨f.named, addNodes_empty_ok_iff.2 ⟨h.nodes, h.nodup, rfl⟩, ?_⟩
    refine bind_eq_ok_iff.2 ⟨(g.arena, f.table), connectEdges_ok_iff.2 ⟨h.fits, by rw [h.arena, table]⟩, ?_⟩
    refine bind_eq_ok_iff.2 ⟨g.entryNode, findEntry_ok_iff.2 ⟨h.roots, h.entryKind⟩, ?_⟩
    refine bind_eq_ok_iff.2 ⟨g.entry, h.entry, ?_⟩
    refine bind_eq_ok_iff.2
      ⟨g.definitions, (definitions_iff_defines (tabled h.nodup h.fits)).2 h.definitions, ?_⟩
    rw [← h.flowId]
    rfl

end FlowDefinition
end MessageFlow
