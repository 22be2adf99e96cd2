import MessageFlow.Proofs.Completion
import MessageFlow.Proofs.Described
import MessageFlow.Proofs.Namespaces

/-!
Where the conditions of choices are asked. A choice has a definition and a stage with all its clauses, and no
path leaves it but by what the clauses decide. The entry is the exception: when it is declared as a choice, it
has neither, and all its edges are followed.
-/

namespace MessageFlow
namespace PathTree

mutual

/-- Each node that paths go on from, with the nodes that they go on to. -/
def leavings : PathTree → List (Nat × List Nat)
  | .cut _ | .broken _ => []
  | .passed node next => (node, next.map PathTree.node) :: leavingsEach next

def leavingsEach : List PathTree → List (Nat × List Nat)
  | [] => []
  | t :: ts => t.leavings ++ leavingsEach ts

end

end PathTree

theorem Progress.Adds.subset {p q : Progress} {log : List Event} (h : p.Adds log q) : p.events ⊆ q.events := by
  rw [h]
  exact List.subset_append_right _ _

namespace Engine
open PathTree
variable {e : Engine}

/-- The stage of a node has run and named these nodes as the next, and all that was noted by then is among
these events. -/
def Led (e : Engine) (events : List Event) (node : Nat) (next : List Nat) : Prop :=
  ∃ p q, e.Invokes node p (some next) q ∧ q.events ⊆ events

theorem Visits.led {hops node : Nat} {next : List Nat} {p q : Progress} {events : List Event}
    (h : e.Visits hops node p (some next) q) (hq : q.events ⊆ events) : e.Led events node next :=
  ⟨_, _, h.invokes, hq⟩

theorem Led.mono {events later : List Event} {node : Nat} {next : List Nat} (h : e.Led events node next)
    (hl : events ⊆ later) : e.Led later node next := by
  obtain ⟨p, q, hi, hq⟩ := h
  exact ⟨p, q, hi, List.Subset.trans hq hl⟩

mutual

/-- Paths go on only where a stage has run, and only to the nodes that it names. -/
theorem Walks.led {hops depth node : Nat} {p q : Progress} {t : PathTree}
    (h : e.Walks hops depth node p t q) : ∀ x ∈ t.leavings, e.Led q.events x.1 x.2 := by
  cases h with
  | hopLimit _ | visitBudget _ _ | stops _ | refused _ _ _ => exact fun x hx => nomatch hx
  | ends hv => exact List.forall_mem_cons.2 ⟨hv.led (List.Subset.refl _), fun x hx => nomatch hx⟩
  | continues hv hw =>
    -- what the stage has noted stays in the log of the rest
    obtain ⟨log, hlog, -⟩ := hw.logged
    rw [leavings, leavingsEach, leavingsEach, List.append_nil, List.map_singleton, hw.node_eq]
    exact List.forall_mem_cons.2 ⟨hv.led hlog.subset, hw.led⟩
  | fansOut hv _ _ hw =>
    obtain ⟨logs, hlogs, -⟩ := hw.logged
    rw [leavings, hw.nodes_eq, events_leaveFanOut]
    exact List.forall_mem_cons.2 ⟨hv.led hlogs.subset, hw.led⟩

theorem WalksEach.led {hops depth : Nat} {branches : List Nat} {base : Message} {p r : Progress}
    {ts : List PathTree} {copies : List Message} (h : e.WalksEach hops depth base branches p ts copies r) :
    ∀ x ∈ leavingsEach ts, e.Led r.events x.1 x.2 := by
  cases h with
  | nil => exact fun x hx => nomatch hx
  | cons hw hrest =>
    obtain ⟨logs, hlogs, -⟩ := hrest.logged
    exact List.forall_mem_append.2 ⟨fun x hx => (hw.led x hx).mono hlogs.subset, hrest.led⟩

end

variable {m : Message} {ts : List PathTree} {o : Outcome}

theorem Executes.led (h : e.Executes m ts o) : ∀ x ∈ leavingsEach ts, e.Led o.events x.1 x.2 := by
  have hout (p : Progress) (completion : Completion) : p.events ⊆ (p.outcome completion).events :=
    fun _ hev => List.mem_reverse.2 hev
  cases h with
  | endsAtEntry _ | refused _ _ _ _ => exact fun x hx => nomatch hx
  | proceeds _ hw =>
    rw [leavingsEach, leavingsEach, List.append_nil]
    exact fun x hx => (hw.led x hx).mono (hout _ _)
  | @joins _ r _ copies completion _ _ _ hw _ =>
    have hsignal : r.events ⊆ ((e.leaveFanOut m copies r).record (.signalled completion)).events := by
      rw [← e.events_leaveFanOut m copies r]
      exact List.subset_cons_self _ _
    exact fun x hx => (hw.led x hx).mono (List.Subset.trans hsignal (hout _ _))

/-- An execution goes on from the entry along all its edges, or does not go on at all. -/
theorem Executes.nodes_eq (h : e.Executes m ts o) :
    ts = [] ∨ ts.map PathTree.node = e.graph.successors e.graph.entryNode := by
  cases h with
  | endsAtEntry _ | refused _ _ _ _ => exact .inl rfl
  | proceeds hb hw => exact .inr (by rw [hb, List.map_singleton, hw.node_eq])
  | joins hb _ _ hw _ => exact .inr (by rw [hb, hw.nodes_eq])

end Engine

/-- Paths go on from a node to these nodes because the choice stage of the node, with all the clauses of the
node, has decided so on some message. -/
def FlowDefinition.Asked (ls : PredicateLanguages) (f : FlowDefinition) (e : Engine) (n : Node) (i : Nat)
    (js : List Nat) : Prop :=
  ∃ c m q, e.stages.get? (e.graph.qualified i) = some (.choice c) ∧ FlowDefinition.ChoiceOf ls f n c ∧
    c.process m = (q, none) ∧ js = e.choiceSuccessors q

/-- A choice has the texts of the clauses of its node, in their order. -/
theorem FlowDefinition.Chooses.texts {f : FlowDefinition} {n : Node} {c : ChoiceDefinition}
    (h : f.Chooses n c) : c.branches.map (fun b => (b.label, b.predicate)) =
      n.whenClauses.map (fun w => (w.label, ⟨w.language, w.expression⟩)) := by
  rw [h.branches, List.map_map]
  rfl

/-- Mail is sorted at the entry: express mail is to be delivered, and other mail to be stored. -/
def Mail.unasked : FlowDefinition where
  id := "mail"
  nodes := [{ Mail.sort with component := "pass" }, { id := "deliver", component := "pass" },
    { id := "store", component := "pass" }]
  edges := [⟨"sort", "deliver", some "urgent"⟩, ⟨"sort", "store", some "rest"⟩]

namespace FlowHost
variable {h : FlowHost} {f : FlowDefinition} {d : DeployedFlow} {options : EngineOptions} {n : Node}
  {i : Nat} {stage : Stage}

section Prepared
variable (hd : h.prepare f = .ok d)
include hd

/-- The stage of a declared node is its own. -/
theorem stageOf_of_get? (hn : f.nodes[i]? = some n) (hs : d.stages.get? (d.graph.qualified i) = some stage) :
    i ≠ d.graph.entryNode ∧ FlowDefinition.StageOf h.languages f n stage := by
  obtain ⟨hc, hm⟩ := prepare_ok hd
  obtain ⟨j, m, hj, hne, hid, hof⟩ := FlowDefinition.node_of_stage hc hm hs
  obtain rfl := hc.qualified_inj (hc.lt_size_iff.2 ⟨n, hn⟩) (hc.lt_size_iff.2 ⟨m, hj⟩) hid
  obtain rfl := Option.some.inj (hn.symm.trans hj)
  exact ⟨hne, hof⟩

theorem get?_entry : d.stages.get? (d.graph.qualified d.graph.entryNode) = none := by
  obtain ⟨hc, -⟩ := prepare_ok hd
  obtain ⟨n, -, hn, -⟩ := hc.exists_entry
  cases hs : d.stages.get? (d.graph.qualified d.graph.entryNode) with
  | none => rfl
  | some stage => exact absurd rfl (stageOf_of_get? hd hn hs).1

/-- Paths that leave a choice have asked it. -/
theorem asked_of_led (hn : f.nodes[i]? = some n) (hk : n.kind = .choice) {js : List Nat} {events : List Event}
    (hl : (d.engine options).Led events i js) :
    i ≠ d.graph.entryNode ∧ .choice (d.graph.qualified i) ∈ events ∧
      f.Asked h.languages (d.engine options) n i js := by
  obtain ⟨p, q, hi, hq⟩ := hl
  cases hi with
  | stepPasses hs _ =>
    -- a step stage belongs to a node of another kind
    obtain ⟨-, hof⟩ := stageOf_of_get? hd hn hs
    cases hof with
    | step _ hstep => exact absurd hk hstep
  | choicePasses hs hp =>
    obtain ⟨hne, hof⟩ := stageOf_of_get? hd hn hs
    cases hof with
    | choice _ _ hof => exact ⟨hne, hq List.mem_cons_self, _, _, _, hs, hof, hp, rfl⟩

end Prepared

/-- Where the conditions of a flow go. A choice has a definition with all its clauses, in their order, unless it
is the entry: then it has none. When the flow is deployed and runs, no path leaves a choice before the stage of
the choice is asked, and then it goes where the stage decides. The entry has no stage to ask: if the execution
goes on from it at all, it goes along all its edges, whatever the entry is declared as. -/
theorem execute_asks_choices (h : FlowHost) (f : FlowDefinition) :
    (∀ g, f.compile h.components = .ok g → ∀ i n, f.nodes[i]? = some n → n.kind = .choice →
      (i = g.entryNode → g.definition? i = none) ∧
      (i ≠ g.entryNode → ∃ c, g.definition? i = some (.choice c) ∧
        c.branches.map (fun b => (b.label, b.predicate)) =
          n.whenClauses.map (fun w => (w.label, ⟨w.language, w.expression⟩)))) ∧
      ∀ d options m, h.prepare f = .ok d →
        let e := d.engine options
        d.stages.get? (d.graph.qualified d.graph.entryNode) = none ∧
        (∃ paths, e.Executes m paths (e.execute m)) ∧
        ∀ paths outcome, e.Executes m paths outcome →
          outcome = e.execute m ∧
          (paths = [] ∨ paths.map PathTree.node = d.graph.successors d.graph.entryNode) ∧
          ∀ i js, (i, js) ∈ PathTree.leavingsEach paths → ∀ n, f.nodes[i]? = some n → n.kind = .choice →
            i ≠ d.graph.entryNode ∧ .choice (d.graph.qualified i) ∈ outcome.events ∧
              f.Asked h.languages e n i js := by
  constructor
  · intro g hg i n hn hk
    have hc : FlowDefinition.Compiled h.components f g := FlowDefinition.compile_ok_iff.1 hg
    refine ⟨?entry, ?other⟩
    case entry =>
      rintro rfl
      exact hc.definition?_entry
    case other =>
      intro hi
      obtain ⟨c, hdef, hchooses, -⟩ := hc.exists_choice hn hi hk
      exact ⟨c, hdef, hchooses.texts⟩
  · intro d options m hd e
    obtain ⟨paths, outcome, hx⟩ := e.exists_executes m
    refine ⟨get?_entry hd, ⟨paths, hx.eq_execute ▸ hx⟩, ?_⟩
    intro paths outcome hx
    refine ⟨hx.eq_execute, hx.nodes_eq, ?_⟩
    intro i js hleft n hn hk
    exact asked_of_led hd hn hk (hx.led _ hleft)

theorem execute_asks_choices_express :
    ∃ d, Mail.host.prepare Mail.flow = .ok d ∧ (∃ c, d.graph.definition? 1 = some (.choice c)) ∧
      ∀ paths outcome, (d.engine {}).Executes Mail.express paths outcome → ∀ js,
        (1, js) ∈ PathTree.leavingsEach paths → .choice "mail:sort" ∈ outcome.events := by
  obtain ⟨hdefined, hruns⟩ := execute_asks_choices Mail.host Mail.flow
  obtain ⟨d, hd, hentry, -⟩ := Mail.prepared
  obtain ⟨hc, -⟩ := prepare_ok hd
  have hn : Mail.flow.nodes[1]? = some Mail.sort := rfl
  have hid : d.graph.qualified 1 = "mail:sort" := hc.qualified hn
  obtain ⟨-, hother⟩ := hdefined d.graph (FlowDefinition.compile_ok_iff.2 hc) 1 Mail.sort hn rfl
  obtain ⟨c, hdef, -⟩ := hother (by rw [hentry]; decide)
  refine ⟨d, hd, ⟨c, hdef⟩, fun paths outcome hx js hleft => ?_⟩
  obtain ⟨-, -, hall⟩ := hruns d {} Mail.express hd
  obtain ⟨-, -, hasked⟩ := hall paths outcome hx
  obtain ⟨-, hevent, -⟩ := hasked 1 js hleft Mail.sort hn rfl
  rwa [hid] at hevent

/-- Where the entry is declared as a choice, its clause is in no definition: express mail is stored as well as
delivered, and the choice is never asked. -/
theorem choice_at_entry_unasked : ∃ d n, Mail.host.prepare Mail.unasked = .ok d ∧
    Mail.unasked.nodes[0]? = some n ∧ n.kind = .choice ∧ n.whenClauses = [⟨"urgent", "express", none⟩] ∧
    d.graph.definition? 0 = none ∧
    ((d.engine { isolation := .snapshot }).execute Mail.express).events =
      [.step "mail:deliver", .step "mail:store", .signalled (.joined 2 0)] :=
  ⟨_, _, rfl, rfl, rfl, rfl, rfl, rfl⟩

end FlowHost
end MessageFlow
