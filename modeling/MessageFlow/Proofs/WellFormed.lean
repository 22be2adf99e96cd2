import MessageFlow.Proofs.Compiled

/-!
Which flows are compiled. What makes a flow well-formed is said without the order in which compilation looks
for faults, and without the graph: only the nodes and the edges that are declared count.
-/

namespace MessageFlow
namespace FlowDefinition
variable {components : ComponentLookup} {f : FlowDefinition} {g : CompiledGraph} {n entry : Node} {e : Edge}
  {i j : Nat}

/-- The nodes that no edge leads to, in the order of declaration. -/
def untargeted (f : FlowDefinition) : List Node := f.nodes.filter (fun n => ∀ e ∈ f.edges, e.target ≠ n.id)

/-- An edge between declared nodes; it has a label if it leaves a choice. -/
structure Connects (f : FlowDefinition) (e : Edge) : Prop where
  source : e.source ∈ f.nodes.map Node.id
  target : e.target ∈ f.nodes.map Node.id
  labelled : ∀ n ∈ f.nodes, n.kind = .choice → e.source = n.id → e.label ≠ none

/-- Ids are fit and different, and edges connect nodes. -/
structure Sound (f : FlowDefinition) : Prop where
  flow : Admitted f.id
  nodes : ∀ n ∈ f.nodes, Admitted n.id
  nodup : (f.nodes.map Node.id).Nodup
  edges : ∀ e ∈ f.edges, f.Connects e

/-- A node from which all messages of the flow start: the only one that no edge leads to. Its component and
those of all steps are known, and the clauses of all other choices have edges. -/
structure StartsAt (components : ComponentLookup) (f : FlowDefinition) (entry : Node) : Prop where
  root : f.untargeted = [entry]
  kind : ∀ n ∈ f.nodes, n.kind = .entry → n = entry
  component : ∃ c, components entry.component = some c
  steps : ∀ n ∈ f.nodes, n ≠ entry → n.kind ≠ .choice → ∃ c, components n.component = some c
  clauses : ∀ n ∈ f.nodes, n ≠ entry → n.kind = .choice → ∀ w ∈ n.whenClauses,
    ∃ e ∈ f.edges, e.source = n.id ∧ e.label = some w.label

structure WellFormed (components : ComponentLookup) (f : FlowDefinition) : Prop extends Sound f where
  entry : ∃ entry, f.StartsAt components entry

theorem isChoice_iff {nodes : List Node} :
    isChoice nodes i = true ↔ ∃ n, nodes[i]? = some n ∧ n.kind = .choice := by
  unfold isChoice
  cases nodes[i]? <;> simp

theorem exists_find?_iff {a : Arena} {s : String} : (∃ i, a.find? s = some i) ↔ s ∈ a.names := by
  rw [← Option.isSome_iff_exists, Option.isSome_iff_ne_none, Ne, Arena.find?_eq_none_iff, Decidable.not_not]

/-- An edge fits if and only if it connects two nodes. -/
theorem exists_fits_iff (hn : (f.nodes.map Node.id).Nodup) :
    (∃ i j, Fits f.nodes f.named e i j) ↔ f.Connects e := by
  have hfind {i : Nat} {id : String} : f.named.find? id = some i ↔ (f.nodes[i]?).map Node.id = some id :=
    find?_eq_some_iff hn f.names_named
  constructor
  · rintro ⟨i, j, h⟩
    refine ⟨f.names_named ▸ exists_find?_iff.1 ⟨i, h.source⟩,
      f.names_named ▸ exists_find?_iff.1 ⟨j, h.target⟩, ?_⟩
    intro n hmem hkind hsource hlabel
    obtain ⟨m, hm, hid⟩ := Option.map_eq_some_iff.1 (hfind.1 h.source)
    obtain ⟨k, hk⟩ := List.mem_iff_getElem?.1 hmem
    obtain rfl := index_inj hn hm hk (hid.trans hsource)
    exact h.labelled ⟨hlabel, isChoice_iff.2 ⟨n, hk, hkind⟩⟩
  · intro h
    obtain ⟨i, hi⟩ := exists_find?_iff.2 (f.names_named ▸ h.source)
    obtain ⟨j, hj⟩ := exists_find?_iff.2 (f.names_named ▸ h.target)
    refine ⟨i, j, ⟨hi, hj⟩, ?_⟩
    rintro ⟨hlabel, hchoice⟩
    obtain ⟨n, hat, hkind⟩ := isChoice_iff.1 hchoice
    have hid := hfind.1 hi
    rw [hat, Option.map_some, Option.some.injEq] at hid
    exact h.labelled n (List.mem_of_getElem? hat) hkind hid.symm hlabel

/-- Filtering the numbers of a list is filtering the list. -/
theorem filter_range_map {α : Type} (xs : List α) (p : α → Bool) :
    ((List.range xs.length).filter (fun i => (xs[i]?).any p)).map (fun i => xs[i]?) =
      (xs.filter p).map some := by
  have hall : (List.range xs.length).map (fun i => xs[i]?) = xs.map some := by
    apply List.ext_getElem
    · simp
    · intro i hi hi'
      simp
  have hsome : (fun x : Option α => x.any p) ∘ some = p := rfl
  have hnumbers : (fun i : Nat => (xs[i]?).any p) = (fun x : Option α => x.any p) ∘ (fun i => xs[i]?) :=
    rfl
  rw [hnumbers, ← List.filter_map, hall, List.filter_map, hsome]

/-- A definition can be given to a node if its component is known, or its clauses have edges. -/
theorem exists_becomes_iff : (∃ d, Becomes components f n d) ↔
    (n.kind ≠ .choice → ∃ c, components n.component = some c) ∧
      (n.kind = .choice → ∀ w ∈ n.whenClauses, ∃ e ∈ f.edges, e.source = n.id ∧ e.label = some w.label) := by
  simp only [← branchTargets_ne_nil_iff]
  constructor
  · rintro ⟨d, hd⟩
    cases hd with
    | step hstep hc => exact ⟨fun _ => ⟨_, hc⟩, fun hchoice => absurd hchoice hstep⟩
    | choice hchoice hall => exact ⟨fun hstep => absurd hchoice hstep, fun _ => hall⟩
  · rintro ⟨hcomponent, hclauses⟩
    by_cases hk : n.kind = .choice
    · exact ⟨_, .choice hk (hclauses hk)⟩
    · obtain ⟨c, hc⟩ := hcomponent hk
      exact ⟨_, .step hk hc⟩

namespace Sound
variable (h : f.Sound)
include h

theorem exists_fits : ∀ e ∈ f.edges, ∃ i j, Fits f.nodes f.named e i j :=
  fun e he => (exists_fits_iff h.nodup).2 (h.edges e he)

/-- Nothing leads to a vertex if no edge leads to its node. -/
theorem inDegree_eq_zero_iff (hn : f.nodes[i]? = some n) :
    (f.named.linked f.edges).inDegree i = 0 ↔ ∀ e ∈ f.edges, e.target ≠ n.id := by
  have hcounted : (f.named.linked f.edges).Counted := (Arena.counted_ofNames _).linked f.edges
  have hat {id : String} : f.named.find? id = some i ↔ n.id = id := by
    rw [find?_eq_some_iff h.nodup f.names_named, hn, Option.map_some, Option.some.injEq]
  rw [hcounted.inDegree_eq_zero_iff]
  simp only [Arena.mem_successors_linked, named, Arena.successors_ofNames]
  constructor
  · intro hnone e he htarget
    obtain ⟨k, l, hkl⟩ := h.exists_fits e he
    exact hnone k (.inr ⟨e, he, hkl.source, hat.2 htarget.symm⟩)
  · rintro hall k (hk | ⟨e, he, hends⟩)
    · cases hk
    · exact hall e he (hat.1 hends.target).symm

/-- The roots of the graph are the nodes that no edge leads to. -/
theorem roots_eq : (f.named.linked f.edges).roots.map (fun i => f.nodes[i]?) = f.untargeted.map some := by
  have hsize : (f.named.linked f.edges).size = f.nodes.length := by
    rw [← Arena.length_names, names_linked_named, List.length_map]
  rw [untargeted, ← filter_range_map, Arena.roots, hsize]
  congr 1
  apply List.filter_congr
  intro i hi
  have hn : f.nodes[i]? = some (f.nodes.get ⟨i, List.mem_range.1 hi⟩) := List.getElem?_eq_getElem _
  rw [hn, Option.any_some, Bool.eq_iff_iff, decide_eq_true_eq, decide_eq_true_eq, h.inDegree_eq_zero_iff hn]

theorem roots_singleton_iff (hn : f.nodes[i]? = some n) :
    (f.named.linked f.edges).roots = [i] ↔ f.untargeted = [n] := by
  have hroots := h.roots_eq
  constructor
  · intro hi
    rw [hi, List.map_singleton, hn] at hroots
    obtain ⟨m, hm, hmn⟩ := List.map_eq_singleton_iff.1 hroots.symm
    rw [hm, Option.some.inj hmn]
  · intro hu
    rw [hu, List.map_singleton] at hroots
    obtain ⟨j, hj, hjn⟩ := List.map_eq_singleton_iff.1 hroots
    rw [hj, index_inj h.nodup hjn hn rfl]

/-- The names of the roots. -/
theorem names_roots : (f.named.linked f.edges).roots.map (f.named.linked f.edges).name =
    f.untargeted.map Node.id := by
  have hroots := congrArg (List.map (fun o : Option Node => (o.map Node.id).getD "")) h.roots_eq
  rw [List.map_map, List.map_map] at hroots
  have hname : (f.named.linked f.edges).name = fun i => ((f.nodes[i]?).map Node.id).getD "" := by
    funext i
    rw [Arena.name_eq, names_linked_named, List.getElem?_map]
  rw [hname]
  exact hroots

/-- Whatever keeps the entry from being found keeps the flow from being compiled. -/
theorem compile_error {err : CompileError} (he : findEntry f.nodes (f.named.linked f.edges) = .error err) :
    f.compile components = .error err := by
  have hnodes : addNodes {} f.nodes = .ok f.named := addNodes_empty_ok_iff.2 ⟨h.nodes, h.nodup, rfl⟩
  have hedges : connectEdges f.nodes f.named {} f.edges = .ok (f.named.linked f.edges, f.table) :=
    connectEdges_ok_iff.2 ⟨h.exists_fits, rfl⟩
  unfold compile
  simp only [checkIdentifier_ok_iff.2 h.flow, hnodes, hedges, he, bind, Except.bind]

end Sound

theorem Compiled.sound (h : Compiled components f g) : f.Sound :=
  ⟨h.flow, h.nodes, h.nodup, fun e he => (exists_fits_iff h.nodup).1 (h.fits e he)⟩

/-- The node that messages of a compiled flow start from. -/
theorem Compiled.startsAt (h : Compiled components f g) (hn : f.nodes[g.entryNode]? = some entry) :
    f.StartsAt components entry := by
  -- each other node has become something, so it has what it needs
  have hbecomes : ∀ n ∈ f.nodes, n ≠ entry → ∃ d, Becomes components f n d := by
    intro n hmem hne
    obtain ⟨i, hi⟩ := List.mem_iff_getElem?.1 hmem
    have hentry : i ≠ g.entryNode := by
      rintro rfl
      exact hne (Option.some.inj (hi.symm.trans hn))
    obtain ⟨d, hd, -⟩ := h.exists_definition hi hentry
    exact ⟨d, hd⟩
  refine ⟨?root, ?kind, ?component, ?steps, ?clauses⟩
  case root => exact (h.sound.roots_singleton_iff hn).1 (h.arena ▸ h.roots)
  case kind =>
    intro n hmem hkind
    obtain ⟨i, hi⟩ := List.mem_iff_getElem?.1 hmem
    have hat := (find?_eq_some_iff h.nodup h.names).1 (h.entryKind n hmem hkind)
    rw [hn, Option.map_some, Option.some.injEq] at hat
    obtain rfl := index_inj h.nodup hi hn hat.symm
    exact Option.some.inj (hi.symm.trans hn)
  case component =>
    obtain ⟨m, c, hm, hc, -⟩ := h.exists_entry
    exact ⟨c, Option.some.inj (hm.symm.trans hn) ▸ hc⟩
  case steps =>
    intro n hmem hne
    exact (exists_becomes_iff.1 (hbecomes n hmem hne)).1
  case clauses =>
    intro n hmem hne
    exact (exists_becomes_iff.1 (hbecomes n hmem hne)).2

/-- A well-formed flow is compiled. -/
theorem WellFormed.exists_compiled (h : f.WellFormed components) : ∃ g, Compiled components f g := by
  obtain ⟨entry, hstart⟩ := h.entry
  have hroot : entry ∈ f.untargeted := by rw [hstart.root]; exact List.mem_singleton_self _
  obtain ⟨k, hk⟩ := List.mem_iff_getElem?.1 (List.mem_filter.1 hroot).1
  obtain ⟨c, hc⟩ := hstart.component
  have hbecomes : ∀ i n, f.nodes[i]? = some n → i ≠ k → ∃ d, Becomes components f n d := by
    intro i n hi hik
    have hne : n ≠ entry := by
      rintro rfl
      exact hik (index_inj h.nodup hi hk rfl)
    have hmem := List.mem_of_getElem? hi
    exact exists_becomes_iff.2 ⟨hstart.steps n hmem hne, hstart.clauses n hmem hne⟩
  obtain ⟨ds, hds⟩ := exists_defines (tabled h.nodup h.exists_fits) hbecomes
  refine ⟨⟨f.id, f.named.linked f.edges, k, ⟨entry.id, c.name, c.binding, entry.parameters⟩, ds⟩, ?_⟩
  refine ⟨h.flow, h.nodes, h.nodup, h.exists_fits, ?roots, ?kind, rfl, rfl, ?entry, hds⟩
  case roots => exact (h.roots_singleton_iff hk).2 hstart.root
  case kind =>
    intro n hmem hkind
    rw [hstart.kind n hmem hkind, find?_eq_some_iff h.nodup f.names_linked_named, hk, Option.map_some]
  case entry =>
    rw [hk, Option.getD_some]
    exact entryNode_ok_iff.2 ⟨c, hc, rfl⟩

/-- A flow is compiled if and only if it is well-formed. When all is in order with its ids and edges but there
is more than one node that no edge leads to, these nodes are reported, in the order of declaration. -/
theorem compile_accepts_iff (components : ComponentLookup) (f : FlowDefinition) :
    ((∃ g, f.compile components = .ok g) ↔ f.WellFormed components) ∧
      (f.Sound → 1 < f.untargeted.length →
        f.compile components = .error (.ambiguousEntry (f.untargeted.map Node.id))) := by
  refine ⟨⟨?accepted, ?compiled⟩, ?ambiguous⟩
  case accepted =>
    rintro ⟨g, hg⟩
    have hc : Compiled components f g := compile_ok_iff.1 hg
    obtain ⟨entry, c, hn, -, -⟩ := hc.exists_entry
    exact ⟨hc.sound, entry, hc.startsAt hn⟩
  case compiled =>
    intro h
    obtain ⟨g, hg⟩ := h.exists_compiled
    exact ⟨g, compile_ok_iff.2 hg⟩
  case ambiguous =>
    intro h hmany
    have hlength : (f.named.linked f.edges).roots.length = f.untargeted.length := by
      have hnames := congrArg List.length h.names_roots
      rwa [List.length_map, List.length_map] at hnames
    have hentry : findEntry f.nodes (f.named.linked f.edges) =
        .error (.ambiguousEntry (f.untargeted.map Node.id)) := by
      unfold findEntry
      split
      · next hr =>
        rw [hr, List.length_nil] at hlength
        omega
      · next hr =>
        rw [hr, List.length_singleton] at hlength
        omega
      · rw [h.names_roots]
    exact h.compile_error hentry

/-- Without an edge between them both nodes could be the entry. -/
example (components : ComponentLookup) :
    ({ id := "mail", nodes := [.step "inlet" "pass", .step "store" "pass"] } : FlowDefinition).compile
      components = .error (.ambiguousEntry ["inlet", "store"]) := rfl

end FlowDefinition
end MessageFlow
