import Mathlib.Data.List.Duplicate
import Mathlib.Data.List.Perm.Subperm
import Mathlib.Logic.Relation
import MessageFlow.Graph.Walk
import MessageFlow.Proofs.Materialized

/-!
Which nodes a message can come to. Every node but the entry follows some node, so the way back from a node either
comes to the entry or goes round for ever: a node that the entry does not reach stands on or behind a cycle that
is cut off from the entry.
-/

namespace MessageFlow

/-! Items that come twice -/

theorem split_of_duplicate {α : Type} {x : α} {xs : List α} (h : List.Duplicate x xs) :
    ∃ a b c, xs = a ++ x :: (b ++ x :: c) := by
  induction h with
  | cons_mem hmem =>
    obtain ⟨b, c, rfl⟩ := List.append_of_mem hmem
    exact ⟨[], b, c, rfl⟩
  | cons_duplicate _ ih =>
    obtain ⟨a, b, c, rfl⟩ := ih
    exact ⟨_ :: a, b, c, rfl⟩

/-- Of more numbers than there are below the bound, one comes twice. -/
theorem exists_repetition {bound : Nat} {xs : List Nat} (hlt : ∀ x ∈ xs, x < bound)
    (hlength : bound < xs.length) : ∃ x a b c, xs = a ++ x :: (b ++ x :: c) := by
  have hnot : ¬ xs.Nodup := by
    intro hn
    have hle := (hn.subperm (fun x hx => List.mem_range.2 (hlt x hx))).length_le
    rw [List.length_range] at hle
    omega
  obtain ⟨x, hx⟩ := List.exists_duplicate_iff_not_nodup.2 hnot
  exact ⟨x, split_of_duplicate hx⟩

namespace CompiledGraph

/-- A walk leads from one node to the other. The walk without edges stays where it is. -/
def Reaches (g : CompiledGraph) (i j : Nat) : Prop := ∃ w, g.IsWalk i w ∧ w.getLastD i = j

/-- The nodes that a closed walk comes to, one for each of its edges. -/
def IsCycle (g : CompiledGraph) (w : List Nat) : Prop := ∃ i, w.getLast? = some i ∧ g.IsWalk i w

/-- A cycle that no message comes to. -/
structure CutOff (g : CompiledGraph) (w : List Nat) : Prop where
  cycle : g.IsCycle w
  unreached : ∀ k ∈ w, ¬ g.Reaches g.entryNode k

variable {g : CompiledGraph} {i j k : Nat} {v w rest : List Nat}

theorem Reaches.refl (g : CompiledGraph) (i : Nat) : g.Reaches i i := ⟨[], trivial, rfl⟩

/-- Two walks one after the other end where the second does. -/
theorem getLastD_append (v w : List Nat) (i : Nat) : (v ++ w).getLastD i = w.getLastD (v.getLastD i) := by
  induction v generalizing i with
  | nil => rfl
  | cons first rest ih =>
    rw [List.cons_append, List.getLastD_cons, List.getLastD_cons]
    exact ih first

theorem isWalk_append : g.IsWalk i (v ++ w) ↔ g.IsWalk i v ∧ g.IsWalk (v.getLastD i) w := by
  induction v generalizing i with
  | nil => exact ⟨fun h => ⟨trivial, h⟩, fun h => h.2⟩
  | cons first rest ih =>
    rw [List.getLastD_cons]
    constructor
    · rintro ⟨hfirst, h⟩
      obtain ⟨hrest, hw⟩ := ih.1 h
      exact ⟨⟨hfirst, hrest⟩, hw⟩
    · rintro ⟨⟨hfirst, hrest⟩, hw⟩
      exact ⟨hfirst, ih.2 ⟨hrest, hw⟩⟩

theorem Reaches.step (h : g.Reaches i j) (hk : k ∈ g.successors j) : g.Reaches i k := by
  obtain ⟨w, hw, rfl⟩ := h
  exact ⟨w ++ [k], isWalk_append.2 ⟨hw, hk, trivial⟩, getLastD_append w [k] i⟩

/-- A walk stays among nodes that no edge leads out of. -/
theorem IsWalk.stays {P : Nat → Prop} (hP : ∀ j, P j → ∀ k ∈ g.successors j, P k) (hw : g.IsWalk i w) (hi : P i) :
    P (w.getLastD i) := by
  induction w generalizing i with
  | nil => exact hi
  | cons first rest ih =>
    rw [List.getLastD_cons]
    exact ih hw.2 (hP i hi first hw.1)

/-- From where it comes to a node, a walk goes on to its end. -/
theorem IsWalk.from (hw : g.IsWalk i w) (he : i :: w = v ++ k :: rest) :
    g.IsWalk k rest ∧ rest.getLastD k = w.getLastD i := by
  cases v with
  | nil =>
    obtain ⟨rfl, rfl⟩ := List.cons.inj he
    exact ⟨hw, rfl⟩
  | cons first before =>
    rw [List.cons_append] at he
    obtain ⟨rfl, rfl⟩ := List.cons.inj he
    obtain ⟨-, -, hrest⟩ := isWalk_append.1 hw
    refine ⟨hrest, ?_⟩
    rw [getLastD_append, List.getLastD_cons]

/-- A walk that comes to a node twice goes round a cycle before it comes to its end. -/
theorem IsWalk.exists_cycle (hw : g.IsWalk i w) {a b c : List Nat} (he : i :: w = a ++ k :: (b ++ k :: c)) :
    g.IsCycle (b ++ [k]) ∧ g.Reaches k (w.getLastD i) := by
  obtain ⟨hround, hend⟩ := hw.from he
  obtain ⟨hb, hk, hc⟩ := isWalk_append.1 hround
  rw [getLastD_append, List.getLastD_cons] at hend
  exact ⟨⟨k, List.getLast?_concat, isWalk_append.2 ⟨hb, hk, trivial⟩⟩, c, hc, hend⟩

end CompiledGraph

namespace FlowDefinition
variable {components : ComponentLookup} {f : FlowDefinition} {g : CompiledGraph} {n : Node} {i k : Nat}
  {w : List Nat}

/-- An edge leads from one name to the other. -/
def Precedes (f : FlowDefinition) (a b : String) : Prop := ∃ e ∈ f.edges, e.source = a ∧ e.target = b

/-- The edges form no cycle. -/
def Acyclic (f : FlowDefinition) : Prop := ∀ id, ¬ Relation.TransGen f.Precedes id id

theorem acyclic_of_rank (rank : String → Nat) (hrank : ∀ e ∈ f.edges, rank e.source < rank e.target) :
    f.Acyclic := by
  have hlt : ∀ {a b}, Relation.TransGen f.Precedes a b → rank a < rank b := by
    intro a b hab
    induction hab with
    | single hstep =>
      obtain ⟨e, he, rfl, rfl⟩ := hstep
      exact hrank e he
    | tail _ hstep ih =>
      obtain ⟨e, he, rfl, rfl⟩ := hstep
      exact Nat.lt_trans ih (hrank e he)
  intro id hid
  exact Nat.lt_irrefl _ (hlt hid)

namespace Compiled
variable (h : Compiled components f g)
include h

theorem name_of_node? {id : String} (hi : g.node? id = some i) : g.name i = id := by
  obtain ⟨n, hn, rfl⟩ := Option.map_eq_some_iff.1 (h.node?_eq_some_iff.1 hi)
  exact h.name hn

/-- A node that the entry does not reach follows another such node. -/
theorem exists_unreached_before (hi : i < g.size) (hu : ¬ g.Reaches g.entryNode i) :
    ∃ k, i ∈ g.successors k ∧ k < g.size ∧ ¬ g.Reaches g.entryNode k := by
  have hne : i ≠ g.entryNode := by
    rintro rfl
    exact hu (.refl g _)
  have hroot : i ∉ g.arena.roots := by
    intro hmem
    rw [h.roots] at hmem
    exact hne (List.mem_singleton.1 hmem)
  obtain ⟨k, hk⟩ : ∃ k, i ∈ g.successors k := by
    by_contra hnone
    exact hroot (h.mem_roots.2 ⟨hi, not_exists.1 hnone⟩)
  refine ⟨k, hk, ?_, fun hreach => hu (hreach.step hk)⟩
  obtain ⟨e, -, hsource, -⟩ := h.mem_successors.1 hk
  exact Arena.lt_size_of_find? hsource

/-- The way back among nodes that the entry does not reach is as long as one likes. -/
theorem exists_unreached_walk (hi : i < g.size) (hu : ¬ g.Reaches g.entryNode i) (length : Nat) :
    ∃ k w, w.length = length ∧ g.IsWalk k w ∧ w.getLastD k = i ∧
      ∀ j ∈ k :: w, j < g.size ∧ ¬ g.Reaches g.entryNode j := by
  induction length with
  | zero => exact ⟨i, [], rfl, trivial, rfl, List.forall_mem_singleton.2 ⟨hi, hu⟩⟩
  | succ length ih =>
    obtain ⟨k, w, hlength, hw, hend, hall⟩ := ih
    obtain ⟨hk, hku⟩ := hall k List.mem_cons_self
    obtain ⟨j, hj, hlt, hju⟩ := h.exists_unreached_before hk hku
    refine ⟨j, k :: w, congrArg (· + 1) hlength, ⟨hj, hw⟩, ?_, List.forall_mem_cons.2 ⟨⟨hlt, hju⟩, hall⟩⟩
    rw [List.getLastD_cons, hend]

/-- A node that the entry does not reach stands on or behind a cycle that is cut off. -/
theorem exists_cutOff (hi : i < g.size) (hu : ¬ g.Reaches g.entryNode i) :
    ∃ w, g.CutOff w ∧ ∃ k ∈ w, g.Reaches k i := by
  obtain ⟨j, w, hlength, hw, rfl, hall⟩ := h.exists_unreached_walk hi hu g.size
  have hlong : g.size < (j :: w).length := by
    rw [List.length_cons]
    omega
  obtain ⟨k, a, b, c, he⟩ := exists_repetition (fun x hx => (hall x hx).1) hlong
  obtain ⟨hcycle, hreach⟩ := hw.exists_cycle he
  refine ⟨b ++ [k], ⟨hcycle, ?_⟩, k, by simp, hreach⟩
  intro l hl
  refine (hall l ?_).2
  rw [he]
  simp only [List.mem_append, List.mem_cons] at hl ⊢
  tauto

/-- A walk with edges is a way along the edges of the flow. -/
theorem transGen_of_isWalk (hw : g.IsWalk i w) (hne : w ≠ []) :
    Relation.TransGen f.Precedes (g.name i) (g.name (w.getLastD i)) := by
  induction w generalizing i with
  | nil => exact absurd rfl hne
  | cons k rest ih =>
    obtain ⟨hk, hrest⟩ := hw
    obtain ⟨e, he, hsource, htarget⟩ := h.mem_successors.1 hk
    have hstep : f.Precedes (g.name i) (g.name k) :=
      ⟨e, he, (h.name_of_node? hsource).symm, (h.name_of_node? htarget).symm⟩
    rw [List.getLastD_cons]
    cases rest with
    | nil => exact .single hstep
    | cons l rest => exact .head hstep (ih hrest (List.cons_ne_nil l rest))

/-- Without a cycle of edges there is no cycle of nodes. -/
theorem not_isCycle (hacyclic : f.Acyclic) : ¬ g.IsCycle w := by
  rintro ⟨i, hlast, hw⟩
  have hend : w.getLastD i = i := by rw [List.getLastD_eq_getLast?, hlast, Option.getD_some]
  have hne : w ≠ [] := by
    rintro rfl
    cases hlast
  have hround := h.transGen_of_isWalk hw hne
  rw [hend] at hround
  exact hacyclic _ hround

end Compiled

/-- In a compiled flow the entry reaches each node, unless the node stands on or behind a cycle of which the entry
reaches no node. So it reaches all of them when the edges form no cycle. -/
theorem compile_reaches_nodes (h : f.compile components = .ok g) :
    (∀ n ∈ f.nodes, ∃ i, g.node? n.id = some i ∧
      (g.Reaches g.entryNode i ∨ ∃ w, g.CutOff w ∧ ∃ k ∈ w, g.Reaches k i)) ∧
    (f.Acyclic → ∀ n ∈ f.nodes, ∃ i, g.node? n.id = some i ∧ g.Reaches g.entryNode i) := by
  have hc : Compiled components f g := compile_ok_iff.1 h
  have hnumber : ∀ n ∈ f.nodes, ∃ i, g.node? n.id = some i ∧ i < g.size := by
    intro n hmem
    obtain ⟨i, hi⟩ := List.mem_iff_getElem?.1 hmem
    refine ⟨i, hc.node?_eq_some_iff.2 ?_, hc.lt_size_iff.2 ⟨n, hi⟩⟩
    rw [hi, Option.map_some]
  constructor
  · intro n hmem
    obtain ⟨i, hi, hlt⟩ := hnumber n hmem
    refine ⟨i, hi, ?_⟩
    by_cases hreach : g.Reaches g.entryNode i
    · exact .inl hreach
    · exact .inr (hc.exists_cutOff hlt hreach)
  · intro hacyclic n hmem
    obtain ⟨i, hi, hlt⟩ := hnumber n hmem
    refine ⟨i, hi, ?_⟩
    by_contra hreach
    obtain ⟨w, hw, -⟩ := hc.exists_cutOff hlt hreach
    exact hc.not_isCycle hacyclic hw.cycle

end FlowDefinition

/-! A flow with two nodes that only wait for each other -/

namespace Deadlock

def flow : FlowDefinition where
  id := "deadlock"
  nodes := [{ id := "inlet", kind := .entry, component := "pass" }, { id := "store", component := "pass" },
    { id := "left", component := "pass" }, { id := "right", component := "pass" },
    { id := "behind", component := "pass" }]
  edges := [⟨"inlet", "store", none⟩, ⟨"left", "right", none⟩, ⟨"right", "left", none⟩,
    ⟨"right", "behind", none⟩]

def graph : CompiledGraph where
  flowId := "deadlock"
  arena := ⟨[⟨"inlet", [1], 0⟩, ⟨"store", [], 1⟩, ⟨"left", [3], 1⟩, ⟨"right", [2, 4], 1⟩, ⟨"behind", [], 1⟩]⟩
  entryNode := 0
  entry := ⟨"inlet", "pass", "direct:pass", .empty⟩
  definitions := none :: List.replicate 4 (some (.step ⟨"pass", "direct:pass", .empty⟩))

theorem compiled : flow.compile Mail.host.components = .ok graph := rfl

theorem not_reaches_behind : ¬ graph.Reaches graph.entryNode 4 := by
  rintro ⟨w, hw, hend⟩
  have hclosed : ∀ j, j ≤ 1 → ∀ k ∈ graph.successors j, k ≤ 1 := by decide
  have hle : w.getLastD graph.entryNode ≤ 1 := hw.stays hclosed (by decide)
  omega

end Deadlock

namespace FlowDefinition

/-- The entry does not reach the node behind the deadlock; mail comes to every node. -/
theorem compile_reaches_nodes_deadlock :
    (Deadlock.flow.compile Mail.host.components = .ok Deadlock.graph ∧
      ∃ w, Deadlock.graph.CutOff w ∧ ∃ k ∈ w, Deadlock.graph.Reaches k 4) ∧
    (Mail.flow.Acyclic ∧ ∃ g, Mail.flow.compile Mail.host.components = .ok g ∧
      ∀ n ∈ Mail.flow.nodes, ∃ i, g.node? n.id = some i ∧ g.Reaches g.entryNode i) := by
  constructor
  · obtain ⟨hnodes, -⟩ := compile_reaches_nodes Deadlock.compiled
    obtain ⟨i, hi, hcases⟩ := hnodes { id := "behind", component := "pass" } (by simp [Deadlock.flow])
    obtain rfl : 4 = i := Option.some.inj hi
    exact ⟨Deadlock.compiled, hcases.resolve_left Deadlock.not_reaches_behind⟩
  · have hacyclic : Mail.flow.Acyclic :=
      acyclic_of_rank (fun id => if id = "inlet" then 0 else if id = "sort" then 1 else 2) (by decide)
    obtain ⟨d, hd, -⟩ := Mail.prepared
    obtain ⟨hg, -⟩ := FlowHost.prepare_ok_iff.1 hd
    exact ⟨hacyclic, d.graph, hg, (compile_reaches_nodes hg).2 hacyclic⟩

end FlowDefinition
end MessageFlow
