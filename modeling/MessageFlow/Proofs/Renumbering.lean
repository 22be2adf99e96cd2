import MessageFlow.Proofs.Targets
import MessageFlow.Proofs.Unfolding

/-!
Renumbered graphs. The engine knows nodes by their numbers, but shows only their stage ids. Where the nodes of
two graphs differ in nothing but their numbers, executions go through the same stages: each step of one is a step
of the other at the node with the other number.
-/

namespace MessageFlow
namespace PathTree
variable {place : Nat → Nat}

mutual

/-- The same paths in another graph, where the nodes have other numbers. -/
def renumber (place : Nat → Nat) : PathTree → PathTree
  | .cut node => .cut (place node)
  | .broken node => .broken (place node)
  | .passed node next => .passed (place node) (renumberEach place next)

def renumberEach (place : Nat → Nat) : List PathTree → List PathTree
  | [] => []
  | t :: ts => t.renumber place :: renumberEach place ts

end

mutual

theorem fails_renumber (t : PathTree) : (t.renumber place).fails = t.fails := by
  cases t with
  | cut _ | broken _ => rfl
  | passed node next =>
    rw [renumber, fails, fails]
    exact failsAny_renumberEach next

theorem failsAny_renumberEach (ts : List PathTree) : failsAny (renumberEach place ts) = failsAny ts := by
  cases ts with
  | nil => rfl
  | cons t ts => rw [renumberEach, failsAny, failsAny, t.fails_renumber, failsAny_renumberEach ts]

end

theorem countP_renumberEach (ts : List PathTree) :
    (renumberEach place ts).countP fails = ts.countP fails := by
  induction ts with
  | nil => rfl
  | cons t ts ih => rw [renumberEach, List.countP_cons, List.countP_cons, ih, t.fails_renumber]

end PathTree

/-- The nodes of `g` have other numbers in `g'`, and keep their stage ids and the order of their successors. -/
structure CompiledGraph.Renumbers (place : Nat → Nat) (g g' : CompiledGraph) : Prop where
  injective : Function.Injective place
  entry : g'.entryNode = place g.entryNode
  qualified : ∀ i, g'.qualified (place i) = g.qualified i
  successors : ∀ i, g'.successors (place i) = (g.successors i).map place
  resolve : ∀ id, g'.resolve? id = (g.resolve? id).map place

namespace Engine

/-- The same engine on another graph. -/
def on (e : Engine) (graph : CompiledGraph) : Engine := { e with graph }

variable {e : Engine} {g' : CompiledGraph} {place : Nat → Nat} {hops node : Nat} {p q : Progress} {m : Message}
  {next : Option (List Nat)} {ts : List PathTree} {o : Outcome}

section Renumbered
variable (h : e.graph.Renumbers place g')
include h

/-- A choice match leads to the same nodes. -/
theorem choiceSuccessors_on (m : Message) :
    (e.on g').choiceSuccessors m = (e.choiceSuccessors m).map place := by
  have hresolve : g'.resolve? = fun id => (e.graph.resolve? id).map place := funext h.resolve
  have hfound : m.choiceTargets.filterMap g'.resolve? =
      (m.choiceTargets.filterMap e.graph.resolve?).map place := by
    rw [hresolve, List.map_filterMap]
  have hsuccessors : (e.on g').choiceSuccessors m = (m.choiceTargets.filterMap g'.resolve?).eraseDups := rfl
  -- targets that are named twice are dropped in the same places, since different nodes stay different
  rw [hsuccessors, hfound, eraseDups_map h.injective, choiceSuccessors]

theorem noteUnknownTarget_on (m : Message) : (e.on g').noteUnknownTarget m = e.noteUnknownTarget m := by
  have hunknown : (e.on g').unknownTarget? m = e.unknownTarget? m := by
    unfold unknownTarget?
    congr 1
    funext id
    have hresolve : (e.on g').graph.resolve? id = (e.graph.resolve? id).map place := h.resolve id
    have hnone : (e.on g').graph.resolve? id = none ↔ e.graph.resolve? id = none := by
      rw [hresolve, Option.map_eq_none_iff]
    exact decide_eq_decide.2 hnone
  rw [noteUnknownTarget, noteUnknownTarget, hunknown]

/-- A stage does the same, and the nodes behind it are the same. -/
theorem invoke_on (node : Nat) (p : Progress) : (e.on g').invoke (place node) p =
    ((e.invoke node p).1.map (List.map place), (e.invoke node p).2) := by
  have hid : (e.on g').graph.qualified (place node) = e.graph.qualified node := h.qualified node
  have hstages : (e.on g').stages = e.stages := rfl
  have hnext : (e.on g').graph.successors (place node) = (e.graph.successors node).map place :=
    h.successors node
  unfold invoke
  rw [hid, hstages, hnext]
  dsimp only
  cases e.stages.get? (e.graph.qualified node) with
  | none => rfl
  | some stage =>
    cases stage with
    | step s =>
      dsimp only
      rcases s.process p.message with ⟨m, _ | text⟩
      · rfl
      · rfl
    | choice c =>
      dsimp only
      rcases c.process p.message with ⟨m, _ | failure⟩
      · dsimp only
        rw [choiceSuccessors_on h, noteUnknownTarget_on h]
        rfl
      · rfl

theorem Visits.renumbered (hv : e.Visits hops node p next q) :
    (e.on g').Visits hops (place node) p (next.map (List.map place)) q where
  hop := hv.hop
  visit := hv.visit
  invoked := by rw [invoke_on h, hv.invoked]

end Renumbered

mutual

/-- A walk takes the same way from the node with the other number. -/
theorem Walks.renumbered (h : e.graph.Renumbers place g') {hops depth node : Nat} {p q : Progress}
    {t : PathTree} (hw : e.Walks hops depth node p t q) :
    (e.on g').Walks hops depth (place node) p (t.renumber place) q := by
  -- a failure names the stage of the node, which has the same id in both graphs
  have hid (i : Nat) : (e.on g').graph.qualified (place i) = e.graph.qualified i := h.qualified i
  cases hw with
  | hopLimit hh =>
    rw [← hid]
    exact .hopLimit hh
  | visitBudget hh hv =>
    rw [← hid]
    exact .visitBudget hh hv
  | stops hv => exact .stops (hv.renumbered h)
  | ends hv => exact .ends (hv.renumbered h)
  | continues hv hw => exact .continues (hv.renumbered h) (hw.renumbered h)
  | refused hv hl hr =>
    rw [← hid]
    exact .refused (hv.renumbered h) ((List.length_map place).symm ▸ hl) hr
  | fansOut hv hl hr hw =>
    exact .fansOut (hv.renumbered h) ((List.length_map place).symm ▸ hl) hr (hw.renumbered h)

theorem WalksEach.renumbered (h : e.graph.Renumbers place g') {hops depth : Nat} {base : Message}
    {branches : List Nat} {p r : Progress} {ts : List PathTree} {copies : List Message}
    (hw : e.WalksEach hops depth base branches p ts copies r) :
    (e.on g').WalksEach hops depth base (branches.map place) p (PathTree.renumberEach place ts) copies r := by
  cases hw with
  | nil => exact .nil
  | cons hw hrest => exact .cons (hw.renumbered h) (hrest.renumbered h)

end

/-- An execution takes the same ways, and has the same outcome. -/
theorem Executes.renumbered (h : e.graph.Renumbers place g') (hx : e.Executes m ts o) :
    (e.on g').Executes m (PathTree.renumberEach place ts) o := by
  have hentry : (e.on g').graph.successors (e.on g').graph.entryNode =
      (e.graph.successors e.graph.entryNode).map place := by
    rw [← h.successors, ← h.entry]
    rfl
  cases hx with
  | endsAtEntry hb => exact .endsAtEntry (by rw [hentry, hb, List.map_nil])
  | proceeds hb hw => exact .proceeds (by rw [hentry, hb, List.map_singleton]) (hw.renumbered h)
  | refused hb hl hr hc =>
    have hid : e.graph.qualified e.graph.entryNode = (e.on g').graph.qualified (e.on g').graph.entryNode := by
      rw [← h.qualified, ← h.entry]
      rfl
    rw [hid]
    refine .refused (hentry.trans (congrArg _ hb)) ((List.length_map place).symm ▸ hl) hr ?_
    rw [List.length_map, hc]
  | joins hb hl hr hw hc =>
    refine .joins (hentry.trans (congrArg _ hb)) ((List.length_map place).symm ▸ hl) hr (hw.renumbered h) ?_
    rw [List.length_map, PathTree.countP_renumberEach, hc]

/-- The numbers of the nodes make no difference. -/
theorem execute_on (h : e.graph.Renumbers place g') (m : Message) : (e.on g').execute m = e.execute m := by
  obtain ⟨paths, o, hx⟩ := e.exists_executes m
  rw [← hx.eq_execute, ← (hx.renumbered h).eq_execute]

end Engine
end MessageFlow
