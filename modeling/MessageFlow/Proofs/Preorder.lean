import MessageFlow.Proofs.Namespaces
import MessageFlow.Proofs.Trail
import MessageFlow.Stage.Trace

/-!
Compiled flows of steps that never fail. The steps are invoked in the preorder of what the flow unfolds into,
once for each walk from the entry, and what they do to the message adds up in this order. Where the hop limit cuts
a path, a failure is attached to the message, and the steps behind the cut may read it.
-/

namespace MessageFlow
namespace Engine
variable {e : Engine}

/-! What becomes of the message -/

/-- No step makes a difference between messages that differ in the attached failure alone. -/
def Heedless (e : Engine) : Prop :=
  ∀ id s, e.stages.get? id = some (.step s) → ∀ m n : Message, m.clearError = n.clearError →
    (s.process m).1.clearError = (s.process n).1.clearError

/-- To such steps it makes no difference that failures are attached between them. -/
theorem Heedless.foldl_replay (h : e.Heedless) (log : List Event) {m n : Message}
    (hmn : m.clearError = n.clearError) :
    (log.foldl e.replay m).clearError = ((log.filter Event.invokes).foldl e.replay n).clearError := by
  induction log generalizing m n with
  | nil => exact hmn
  | cons event log ih =>
    cases event with
    | step id =>
      refine ih ?_
      unfold replay
      dsimp only
      cases hs : e.stages.get? id with
      | none => exact hmn
      | some stage =>
        cases stage with
        | step s => exact h id s hs m n hmn
        | choice c => exact hmn
    | choice _ | missing _ | failed _ | signalled _ => exact ih hmn

/-- Where no failure is attached, the steps alone say what becomes of the message. -/
theorem foldl_replay_of_no_failure (log : List Event) (h : ∀ failure, .failed failure ∉ log) (m : Message) :
    log.foldl e.replay m = (log.filter Event.invokes).foldl e.replay m := by
  induction log generalizing m with
  | nil => rfl
  | cons event log ih =>
    have hlog : ∀ failure, .failed failure ∉ log := fun failure hmem => h failure (List.mem_cons_of_mem _ hmem)
    cases event with
    | failed failure => exact absurd List.mem_cons_self (h failure)
    | step _ | choice _ | missing _ | signalled _ => exact ih hlog _

/-- But for the attached failure, the steps alone say what becomes of the message if nothing is cut, or if they
take no notice of what is. -/
theorem clearError_foldl_replay (log : List Event)
    (h : (∀ failure, .failed failure ∉ log) ∨ e.Heedless) (m : Message) :
    (log.foldl e.replay m).clearError = ((log.filter Event.invokes).foldl e.replay m).clearError := by
  rcases h with hnone | hheedless
  · rw [foldl_replay_of_no_failure log hnone]
  · exact hheedless.foldl_replay log rfl

end Engine

namespace FlowDefinition.Compiled
variable {components : ComponentLookup} {f : FlowDefinition} {g : CompiledGraph} {i : Nat}
  (h : Compiled components f g)
include h

theorem lt_size_of_mem_visited {hops start : Nat} (hi : i ∈ PathTree.visitedEach (g.unfoldings hops start)) :
    i < g.size := by
  have hend : some i ∈ (g.walks hops start).map List.getLast? := by
    rw [← Engine.map_visited_unfoldings]
    exact List.mem_map_of_mem hi
  obtain ⟨w, hw, hlast⟩ := List.mem_map.1 hend
  obtain ⟨k, hk⟩ := (CompiledGraph.mem_walks_iff.1 hw).1.exists_mem_successors (List.mem_of_getLast? hlast)
  exact h.lt_size_of_mem_successors hk

/-- The stage of a node stands in the preorder once for each walk to the node. -/
theorem count_unfoldings (hi : i < g.size) (hops start : Nat) :
    ((PathTree.visitedEach (g.unfoldings hops start)).map (fun j => Event.step (g.qualified j))).count
        (.step (g.qualified i)) = (g.walks hops start).countP (fun w => w.getLast? = some i) := by
  have hends := congrArg (List.countP (fun last : Option Nat => last = some i))
    (Engine.map_visited_unfoldings (g := g) hops start)
  rw [List.countP_map, List.countP_map] at hends
  rw [List.count, List.countP_map]
  refine Eq.trans (List.countP_congr fun j hj => ?_) hends
  have hlt := h.lt_size_of_mem_visited hj
  simp only [Function.comp_apply, beq_iff_eq, Event.step.injEq, decide_eq_true_eq, Option.some.injEq]
  exact ⟨h.qualified_inj hlt hi, congrArg g.qualified⟩

end FlowDefinition.Compiled

namespace Engine
variable {e : Engine} {m : Message} {components : ComponentLookup} {f : FlowDefinition}

/-- A compiled flow of steps that never fail goes along every edge. Its execution unfolds as the graph does
below the entry, with the targets of the edges in their order, down to the hop limit; the steps are invoked in
the preorder of this tree, so each of them once for every walk from the entry to its node that has no more
edges than the limit. The limit is exceeded exactly when some walk has more. Where all paths share the
message, the steps in this order say what becomes of it, with the failures that the limit attaches between them
where it cuts a path. For the body, the headers and the properties the steps alone say it, if no path is cut or the
steps take no notice of the failures. -/
theorem execute_preorder (e : Engine) (m : Message) (hc : f.compile components = .ok e.graph)
    (hsteps : ∀ i < e.graph.size, i ≠ e.graph.entryNode → e.Passes i)
    (hb : (PathTree.visitedEach (e.graph.unfoldings e.options.maxHops e.graph.entryNode)).length ≤
      e.options.maxVisits)
    (hd : e.options.isolation = .snapshot → ∀ id limit,
      .failed (.fanOutDepthExceeded id limit) ∉ (e.execute m).events) :
    let g := e.graph
    let o := e.execute m
    let paths := g.unfoldings e.options.maxHops g.entryNode
    let folded := o.invocations.foldl e.replay m
    (∀ i n, f.nodes[i]? = some n → (g.successors i).map g.name = FlowDefinition.targetsOf f.edges n.id) ∧
      e.Executes m paths o ∧
      o.invocations = (PathTree.visitedEach paths).map (fun i => .step (g.qualified i)) ∧
      (∃ walks : List (List Nat), walks.Nodup ∧
        (∀ w, w ∈ walks ↔ g.IsWalk g.entryNode w ∧ 1 ≤ w.length ∧ w.length ≤ e.options.maxHops) ∧
        ∀ i < g.size, o.invocations.count (.step (g.qualified i)) =
          walks.countP (fun w => w.getLast? = some i)) ∧
      ((∃ id limit, .failed (.hopLimitExceeded id limit) ∈ o.events) ↔
        ∃ w, g.IsWalk g.entryNode w ∧ e.options.maxHops < w.length) ∧
      (e.options.isolation = .shared → o.message = (e.trailEach paths).foldl e.replay m ∧
        ((∀ w, g.IsWalk g.entryNode w → w.length ≤ e.options.maxHops) ∨ e.Heedless →
          o.message.body = folded.body ∧ o.message.headers = folded.headers ∧
            o.message.properties = folded.properties)) := by
  intro g o paths folded
  have hcompiled := FlowDefinition.compile_ok_iff.1 hc
  have hpasses : ∀ i, ∀ j ∈ g.successors i, e.Passes j := fun i j hj =>
    hsteps j (hcompiled.lt_size_of_mem_successors hj) fun heq => hcompiled.entry_not_successor i (heq ▸ hj)
  obtain ⟨ts, o', hx⟩ := e.exists_executes m
  obtain rfl : o' = o := hx.eq_execute
  have hdeep : ∀ failure, e.TooDeep failure → .failed failure ∉ o.events := by
    rintro _ ⟨hs, id, limit, rfl⟩
    exact hd hs id limit
  obtain ⟨rfl, hreplay, hframed⟩ := hx.unfolds hpasses hb hdeep
  have hinvocations : o.invocations = (PathTree.visitedEach paths).map (fun i => .step (g.qualified i)) :=
    hframed.invocations.trans (invocations_trailEach paths)
  have hlimit : (∃ id limit, .failed (.hopLimitExceeded id limit) ∈ o.events) ↔
      ∃ w, g.IsWalk g.entryNode w ∧ e.options.maxHops < w.length := by
    simp only [hframed.failed_iff]
    exact hopLimit_mem_trailEach_iff _ _
  refine ⟨fun i n hn => hcompiled.map_name_successors hn, hx, hinvocations, ?walks, hlimit,
    fun hs => ⟨hreplay hs, ?content⟩⟩
  case walks =>
    refine ⟨g.walks e.options.maxHops g.entryNode, CompiledGraph.nodup_walks hcompiled.nodup_successors _ _,
      fun w => CompiledGraph.mem_walks_iff, fun i hi => ?_⟩
    rw [hinvocations]
    exact hcompiled.count_unfoldings hi _ _
  case content =>
    intro hcase
    have huncut (hshort : ∀ w, g.IsWalk g.entryNode w → w.length ≤ e.options.maxHops) :
        ∀ failure, .failed failure ∉ e.trailEach paths := by
      intro failure hmem
      obtain ⟨id, limit, rfl⟩ := failure_of_mem_trailEach paths hmem
      obtain ⟨w, hw, hlong⟩ := (hopLimit_mem_trailEach_iff _ _).1 ⟨id, limit, hmem⟩
      exact Nat.not_lt.2 (hshort w hw) hlong
    have hcontent : o.message.clearError = folded.clearError := by
      have hfolded : folded = ((e.trailEach paths).filter Event.invokes).foldl e.replay m :=
        congrArg (List.foldl e.replay m) hframed.invocations
      rw [hreplay hs, hfolded]
      exact clearError_foldl_replay (e.trailEach paths) (hcase.imp_left huncut) m
    have hbody : o.message.clearError.body = folded.clearError.body := by rw [hcontent]
    have hheaders : o.message.clearError.headers = folded.clearError.headers := by rw [hcontent]
    have hproperties : o.message.clearError.properties = folded.clearError.properties := by rw [hcontent]
    exact ⟨hbody, hheaders, hproperties⟩

end Engine

/-! A flow in which two paths meet, and go round from there -/

namespace Relay

def flow : FlowDefinition where
  id := "relay"
  nodes := [{ id := "inlet", kind := .entry, component := "pass" }, { id := "left", component := "pass" },
    { id := "right", component := "pass" }, { id := "meet", component := "pass" }]
  edges := [⟨"inlet", "left", none⟩, ⟨"inlet", "right", none⟩, ⟨"left", "meet", none⟩,
    ⟨"right", "meet", none⟩, ⟨"meet", "left", none⟩]

def graph : CompiledGraph where
  flowId := "relay"
  arena := ⟨[⟨"inlet", [1, 2], 0⟩, ⟨"left", [3], 2⟩, ⟨"right", [3], 1⟩, ⟨"meet", [1], 2⟩]⟩
  entryNode := 0
  entry := ⟨"inlet", "pass", "direct:pass", .empty⟩
  definitions := none :: List.replicate 3 (some (.step ⟨"pass", "direct:pass", .empty⟩))

/-- The steps note their ids on the message. -/
def engine : Engine where
  graph := graph
  stages := {
    flowId := "relay"
    stages := .ofList [("relay:left", .step (tracer "relay:left")), ("relay:right", .step (tracer "relay:right")),
      ("relay:meet", .step (tracer "relay:meet"))] }
  options := { maxHops := 3, maxVisits := 6 }

theorem compiled : flow.compile Mail.host.components = .ok engine.graph := rfl

theorem passes : ∀ i < engine.graph.size, i ≠ engine.graph.entryNode → engine.Passes i := by
  intro i hi hne
  have hlt : i < 4 := hi
  match i, hlt, hne with
  | 1, _, _ | 2, _, _ | 3, _, _ => exact ⟨_, rfl, fun _ => rfl⟩

theorem eq_tracer {id : String} {s : Processor} (h : engine.stages.get? id = some (.step s)) :
    ∃ name, s = tracer name := by
  by_cases hleft : id = "relay:left"
  · subst hleft
    exact ⟨_, (Stage.step.inj (Option.some.inj h)).symm⟩
  · by_cases hright : id = "relay:right"
    · subst hright
      exact ⟨_, (Stage.step.inj (Option.some.inj h)).symm⟩
    · by_cases hmeet : id = "relay:meet"
      · subst hmeet
        exact ⟨_, (Stage.step.inj (Option.some.inj h)).symm⟩
      · simp [engine, StageSet.get?, Dict.ofList, hleft, hright, hmeet] at h

theorem heedless : engine.Heedless := by
  intro id s hs m n hmn
  obtain ⟨name, rfl⟩ := eq_tracer hs
  show (m.clearError.trace name) = n.clearError.trace name
  rw [hmn]

end Relay

namespace Engine

/-- Both branches come to the node where they meet, and both are cut on their way round. -/
theorem execute_preorder_relay :
    Relay.flow.compile Mail.host.components = .ok Relay.engine.graph ∧
      (∀ i < Relay.engine.graph.size, i ≠ Relay.engine.graph.entryNode → Relay.engine.Passes i) ∧
      (Relay.engine.execute blank).message.visited =
        ["relay:left", "relay:meet", "relay:left", "relay:right", "relay:meet", "relay:left"] ∧
      ∃ id limit, .failed (.hopLimitExceeded id limit) ∈ (Relay.engine.execute blank).events := by
  obtain ⟨-, -, hinvocations, -, hlimit, hshared⟩ :=
    execute_preorder Relay.engine blank Relay.compiled Relay.passes (by decide) (by simp [Relay.engine])
  have hheaders := ((hshared rfl).2 (.inr Relay.heedless)).2.1
  rw [hinvocations] at hheaders
  refine ⟨Relay.compiled, Relay.passes, ?_, hlimit.2 ⟨[1, 3, 1, 3], ?_, by decide⟩⟩
  · rw [Message.visited, Message.traceItems, Message.header?, hheaders]
    rfl
  · simp [CompiledGraph.IsWalk, Relay.engine, Relay.graph, CompiledGraph.successors, Arena.successors]

end Engine

/-! A flow in which a step sees that a path before it was cut -/

/-- Where a host makes no processors that fail, the nodes of a flow without choices never fail. -/
theorem FlowHost.passes_of_prepare {h : FlowHost} {f : FlowDefinition} {d : DeployedFlow}
    (hd : h.prepare f = .ok d) (hsteps : ∀ n ∈ f.nodes, n.kind ≠ .choice)
    (hpass : ∀ s p, h.factory s = .ok p → ∀ m, (p.process m).2 = none) (options : EngineOptions) :
    ∀ i < d.graph.size, i ≠ d.graph.entryNode → (d.engine options).Passes i := by
  obtain ⟨hc, hm⟩ := prepare_ok hd
  intro i hi hne
  obtain ⟨n, hn⟩ := hc.lt_size_iff.1 hi
  obtain ⟨stage, hstage, hof⟩ := FlowDefinition.stage_of_node hc hm hn hne
  cases hof with
  | step p _ =>
    obtain ⟨s, hmade⟩ := FlowDefinition.processor_of_stage hc hm hstage
    exact ⟨p, hstage, hpass s p hmade⟩
  | choice _ hk _ => exact absurd hk (hsteps n (List.mem_of_getElem? hn))

namespace Watch

/-- A step that notes whether its message has failed so far. -/
def observer (id : String) : Processor := ⟨id, fun m => (m.setHeader id (.bool m.isFailed), none)⟩

def host : FlowHost := { Mail.host with factory := fun d => .ok (observer d.id) }

/-- One path goes round for ever; two edges lead to the guard. -/
def flow : FlowDefinition where
  id := "watch"
  nodes := [{ id := "inlet", kind := .entry, component := "pass" }, { id := "first", component := "pass" },
    { id := "ring", component := "pass" }, { id := "guard", component := "pass" }]
  edges := [⟨"inlet", "first", none⟩, ⟨"first", "ring", none⟩, ⟨"ring", "ring", none⟩,
    ⟨"first", "guard", some "day"⟩, ⟨"first", "guard", some "night"⟩]

end Watch

namespace Engine

/-- Steps may read the failure that is attached where a path is cut, so the steps alone do not say what becomes of
a message that all paths share. And two edges with the same ends are one way to go, not two: the guard is run
once. -/
theorem observers_see_cut :
    ∃ d, Watch.host.prepare Watch.flow = .ok d ∧
      let e := d.engine { maxHops := 2 }
      let o := e.execute blank
      (∀ i < e.graph.size, i ≠ e.graph.entryNode → e.Passes i) ∧
        (PathTree.visitedEach (e.graph.unfoldings e.options.maxHops e.graph.entryNode)).length ≤
          e.options.maxVisits ∧
        o.invocations = [.step "watch:first", .step "watch:ring", .step "watch:guard"] ∧
        Watch.flow.edges.countP (fun edge => edge.source = "first" ∧ edge.target = "guard") = 2 ∧
        o.message.header? "watch:guard" = some (.bool true) ∧
        (o.invocations.foldl e.replay blank).header? "watch:guard" = some (.bool false) := by
  refine ⟨_, rfl, ?_⟩
  intro e o
  have hpass : ∀ s p, Watch.host.factory s = .ok p → ∀ m, (p.process m).2 = none := by
    intro s p hmade m
    cases hmade
    rfl
  have hrun : o.invocations = [.step "watch:first", .step "watch:ring", .step "watch:guard"] ∧
      o.message.header? "watch:guard" = some (.bool true) := by
    simp only [o, execute, walkSingle, walkShared_eq_visitEach]
    exact ⟨rfl, rfl⟩
  obtain ⟨hinvocations, hguard⟩ := hrun
  have hpasses : ∀ i < e.graph.size, i ≠ e.graph.entryNode → e.Passes i :=
    FlowHost.passes_of_prepare (h := Watch.host) (f := Watch.flow) rfl (by decide) hpass _
  have hfolded : (o.invocations.foldl e.replay blank).header? "watch:guard" = some (.bool false) := by
    rw [hinvocations]
    rfl
  exact ⟨hpasses, by decide, hinvocations, by decide, hguard, hfolded⟩

end Engine
end MessageFlow
