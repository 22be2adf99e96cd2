import MessageFlow.Deployment.Host
import MessageFlow.Proofs.Compiled

/-!
The stages of a flow. Each node but the entry has its stage, and the stage of a choice holds the clauses of
the node, each with the stage ids of its targets and with its predicate compiled.
-/

namespace MessageFlow

/-- Two ways to read a list that agree on each item. -/
theorem map_ok_iff_map_some {ε α β : Type} {f : α → Except ε β} {k : α → Option β}
    (hk : ∀ x y, f x = .ok y ↔ k x = some y) {xs : List α} {ys : List β} :
    xs.map f = ys.map .ok ↔ xs.map k = ys.map some := by
  induction xs generalizing ys with
  | nil => cases ys <;> simp
  | cons x rest ih =>
    cases ys with
    | nil => simp
    | cons y ys => simp only [List.map_cons, List.cons.injEq, hk, ih]

namespace StageSet
variable {factory : StepFactory} {ls : PredicateLanguages} {set final : StageSet} {id : String}
  {stage : Stage} {ds : List StageDescriptor}

theorem insert_ok_iff : set.insert id stage = .ok final ↔
    set.get? id = none ∧ final = { set with stages := set.stages.insert id stage } := by
  unfold StageSet.insert StageSet.get? Dict.contains
  cases set.stages.get? id <;> simp [eq_comm]

/-- When stages are added, none is refused, and nothing else gets into the set. -/
theorem addStages_ok (h : addStages factory ls set ds = .ok final) :
    (∀ d ∈ ds, ∃ stage, makeStage factory ls d = .ok stage) ∧
      ∀ id stage, final.get? id = some stage ↔
        set.get? id = some stage ∨ ∃ d ∈ ds, d.id = id ∧ makeStage factory ls d = .ok stage := by
  induction ds generalizing set with
  | nil =>
    cases h
    simp
  | cons d rest ih =>
    rw [addStages] at h
    split at h
    · cases h
    · next made hmade =>
      split at h
      · cases h
      · next next hnext =>
        obtain ⟨hnew, rfl⟩ := insert_ok_iff.1 hnext
        obtain ⟨hall, hget⟩ := ih h
        refine ⟨List.forall_mem_cons.2 ⟨⟨made, hmade⟩, hall⟩, fun id stage => ?_⟩
        have hset : ({ set with stages := set.stages.insert d.id made } : StageSet).get? id = some stage ↔
            set.get? id = some stage ∨ d.id = id ∧ made = stage := by
          show (set.stages.insert d.id made).get? id = some stage ↔ _
          rw [Dict.get?_insert]
          by_cases hid : id = d.id
          · subst hid
            simp [hnew]
          · simp [hid, Ne.symm hid, StageSet.get?]
        rw [hget, hset]
        simp only [List.mem_cons, exists_eq_or_imp, hmade, Except.ok.injEq, or_assoc]

theorem flowId_addStages (h : addStages factory ls set ds = .ok final) : final.flowId = set.flowId := by
  induction ds generalizing set with
  | nil =>
    cases h
    rfl
  | cons d rest ih =>
    rw [addStages] at h
    split at h
    · cases h
    · split at h
      · cases h
      · next next hnext =>
        obtain ⟨-, rfl⟩ := insert_ok_iff.1 hnext
        exact (ih h).trans rfl

theorem makeStage_choice_ok_iff {c : ChoiceDescriptor} :
    makeStage factory ls (.choice c) = .ok stage ↔
      ∃ clauses, c.whens.map (makeClause ls c.id) = clauses.map .ok ∧
        .choice ⟨c.id, clauses, c.otherwise⟩ = stage := by
  simp only [makeStage, makeChoice, map_eq_ok_iff, mapM_eq_ok_iff]
  constructor
  · rintro ⟨_, ⟨clauses, hc, rfl⟩, rfl⟩
    exact ⟨clauses, hc, rfl⟩
  · rintro ⟨clauses, hc, rfl⟩
    exact ⟨_, ⟨clauses, hc, rfl⟩, rfl⟩

theorem makeStage_step_ok_iff {d : StepDescriptor} :
    makeStage factory ls (.step d) = .ok stage ↔ ∃ p, factory d = .ok p ∧ .step p = stage := by
  cases hd : factory d <;> simp [makeStage, makeStep, hd, Except.map]

end StageSet

/-- The test that the text of a clause stands for, if its language is known and can read it. -/
def WhenClause.predicate? (ls : PredicateLanguages) (w : WhenClause) : Option Predicate :=
  (ls.get? w.language).bind (fun l => (l.compile w.expression).toOption)

namespace FlowDefinition
variable {components : ComponentLookup} {f : FlowDefinition} {g : CompiledGraph} {n : Node} {i : Nat}
  {encoding : ParameterEncoding} {factory : StepFactory} {ls : PredicateLanguages} {set : StageSet}
  {id : String} {stage : Stage}

/-- The clause that a choice stage has for a clause of its node. -/
def clause? (ls : PredicateLanguages) (f : FlowDefinition) (n : Node) (w : WhenClause) :
    Option ChoiceClause :=
  (w.predicate? ls).map (fun p =>
    ⟨StageId.joinQualified f.id (branchTargets f.edges n.id w.label), w.label, p⟩)

/-- The choice stage of a node: its clauses in their order, and the targets of the label for everything
else. -/
structure ChoiceOf (ls : PredicateLanguages) (f : FlowDefinition) (n : Node) (c : ChoiceStage) : Prop where
  id : c.id = StageId.qualify f.id n.id
  clauses : n.whenClauses.map (clause? ls f n) = c.clauses.map some
  otherwise : c.otherwise =
    (n.otherwiseLabel.bind (branchTargets? f.edges n.id)).map (StageId.joinQualified f.id)

/-- A stage of the kind of its node. -/
inductive StageOf (ls : PredicateLanguages) (f : FlowDefinition) (n : Node) : Stage → Prop
  | step (p : Processor) : n.kind ≠ .choice → StageOf ls f n (.step p)
  | choice (c : ChoiceStage) : n.kind = .choice → ChoiceOf ls f n c → StageOf ls f n (.choice c)

theorem makeClause_ok_iff_clause? {w : WhenClause} {c : ChoiceClause} :
    StageSet.makeClause ls id (RouteDescriptors.ofBranch f.id (f.branchOf n w)) = .ok c ↔
      clause? ls f n w = some c := by
  unfold StageSet.makeClause clause? WhenClause.predicate? RouteDescriptors.ofBranch branchOf
  cases ls.get? w.language with
  | none => simp
  | some l => cases hp : l.compile w.expression <;> simp [hp, Except.toOption]

/-- From the node to its stage, by way of the definition and the descriptor. -/
theorem stageOf_of_makeStage {d : NodeDefinition} (hd : Becomes components f n d)
    (hs : StageSet.makeStage factory ls
      (RouteDescriptors.ofDefinition encoding f.id (StageId.qualify f.id n.id) d) = .ok stage) :
    StageOf ls f n stage := by
  cases hd with
  | step hk _ =>
    obtain ⟨p, -, rfl⟩ := StageSet.makeStage_step_ok_iff.1 hs
    exact .step p hk
  | choice hk _ =>
    obtain ⟨clauses, hclauses, rfl⟩ := StageSet.makeStage_choice_ok_iff.1 hs
    refine .choice _ hk ⟨rfl, ?clauses, rfl⟩
    case clauses =>
      rw [List.map_map, List.map_map] at hclauses
      exact (map_ok_iff_map_some fun _ _ => makeClause_ok_iff_clause?).1 hclauses

section Stages
variable (hc : Compiled components f g)
  (hs : StageSet.materialize factory ls (RouteDescriptors.ofGraph encoding g) = .ok set)
include hc hs

/-- Every node but the entry has a stage of its own, and there are no other stages. -/
theorem stages_iff : set.get? id = some stage ↔
    ∃ i n d, f.nodes[i]? = some n ∧ i ≠ g.entryNode ∧ id = g.qualified i ∧
      Becomes components f n d ∧
      StageSet.makeStage factory ls (RouteDescriptors.ofDefinition encoding f.id id d) = .ok stage := by
  have hid (d : NodeDefinition) (id : String) :
      (RouteDescriptors.ofDefinition encoding f.id id d).id = id := by cases d <;> rfl
  obtain ⟨-, hget⟩ := StageSet.addStages_ok hs
  have hempty : ({ flowId := g.flowId } : StageSet).get? id = none := rfl
  rw [hget]
  constructor
  · rintro (hset | ⟨sd, hsd, rfl, hmade⟩)
    · exact absurd (hempty.symm.trans hset) (by simp)
    · obtain ⟨⟨i, d⟩, hd, rfl⟩ := List.mem_map.1 hsd
      obtain ⟨n, hn, hi, hnd⟩ := hc.definition?_eq_some_iff.1 (hc.mem_defined.1 hd)
      simp only [hc.flowId, hid] at hmade ⊢
      exact ⟨i, n, d, hn, hi, rfl, hnd, hmade⟩
  · rintro ⟨i, n, d, hn, hi, rfl, hnd, hmade⟩
    have hd := hc.mem_defined.2 (hc.definition?_eq_some_iff.2 ⟨n, hn, hi, hnd⟩)
    refine .inr ⟨_, List.mem_map.2 ⟨(i, d), hd, rfl⟩, ?_⟩
    rw [hc.flowId]
    exact ⟨hid d _, hmade⟩

/-- The stage of a node is of its kind. -/
theorem stage_of_node (hn : f.nodes[i]? = some n) (hi : i ≠ g.entryNode) :
    ∃ stage, set.get? (g.qualified i) = some stage ∧ StageOf ls f n stage := by
  obtain ⟨d, hd, hdef⟩ := hc.exists_definition hn hi
  have hmem := hc.mem_defined.2 hdef
  obtain ⟨stage, hmade⟩ := (StageSet.addStages_ok hs).1 _ (List.mem_map.2 ⟨(i, d), hmem, rfl⟩)
  rw [hc.flowId] at hmade
  refine ⟨stage, (stages_iff hc hs).2 ⟨i, n, d, hn, hi, rfl, hd, hmade⟩, ?_⟩
  dsimp only at hmade
  rw [hc.qualified hn] at hmade
  exact stageOf_of_makeStage hd hmade

/-- A stage belongs to a node. -/
theorem node_of_stage (h : set.get? id = some stage) :
    ∃ i n, f.nodes[i]? = some n ∧ i ≠ g.entryNode ∧ id = g.qualified i ∧ StageOf ls f n stage := by
  obtain ⟨i, n, d, hn, hi, rfl, hd, hmade⟩ := (stages_iff hc hs).1 h
  rw [hc.qualified hn] at hmade
  exact ⟨i, n, hn, hi, rfl, stageOf_of_makeStage hd hmade⟩

/-- A stage id begins with the id of the flow. -/
theorem split?_of_stage (h : set.get? id = some stage) : ∃ node, StageId.split? id = some (f.id, node) := by
  obtain ⟨i, n, hn, -, rfl, -⟩ := node_of_stage hc hs h
  exact ⟨n.id, by rw [hc.qualified hn, StageId.split?_qualify hc.flow.no_separator]⟩

/-- The processors of steps are those that the host makes. -/
theorem processor_of_stage {p : Processor} (h : set.get? id = some (.step p)) :
    ∃ descriptor, factory descriptor = .ok p := by
  obtain ⟨i, n, d, -, -, rfl, -, hmade⟩ := (stages_iff hc hs).1 h
  cases d with
  | step s =>
    obtain ⟨q, hq, heq⟩ := StageSet.makeStage_step_ok_iff.1 hmade
    cases heq
    exact ⟨_, hq⟩
  | choice c =>
    obtain ⟨q, -, heq⟩ := map_eq_ok_iff.1 hmade
    cases heq

end Stages
end FlowDefinition

/-- The engine that runs a deployed flow under some options. -/
def DeployedFlow.engine (d : DeployedFlow) (options : EngineOptions) : Engine :=
  { graph := d.graph, stages := d.stages, options }

/-- A flow is prepared for deployment when it compiles and its stages are made from its descriptors. -/
theorem FlowHost.prepare_ok_iff {h : FlowHost} {f : FlowDefinition} {d : DeployedFlow} :
    h.prepare f = .ok d ↔ f.compile h.components = .ok d.graph ∧
      d.descriptors = RouteDescriptors.ofGraph h.encoding d.graph ∧
      StageSet.materialize h.factory h.languages d.descriptors = .ok d.stages := by
  unfold prepare
  cases hg : f.compile h.components with
  | error e => simp
  | ok graph =>
    dsimp only
    cases hs : StageSet.materialize h.factory h.languages (RouteDescriptors.ofGraph h.encoding graph) with
    | error e =>
      simp only [reduceCtorEq, Except.ok.injEq, false_iff]
      rintro ⟨rfl, hd, hm⟩
      rw [hd, hs] at hm
      cases hm
    | ok stages =>
      simp only [Except.ok.injEq]
      constructor
      · rintro rfl
        exact ⟨rfl, rfl, hs⟩
      · obtain ⟨graph', descriptors', stages'⟩ := d
        rintro ⟨hd, hr, hm⟩
        dsimp only at hd hr hm
        subst hd hr
        rw [hs] at hm
        cases hm
        rfl

theorem FlowHost.prepare_ok {h : FlowHost} {f : FlowDefinition} {d : DeployedFlow}
    (hd : h.prepare f = .ok d) :
    FlowDefinition.Compiled h.components f d.graph ∧
      StageSet.materialize h.factory h.languages (RouteDescriptors.ofGraph h.encoding d.graph) =
        .ok d.stages := by
  obtain ⟨hg, hr, hs⟩ := prepare_ok_iff.1 hd
  exact ⟨FlowDefinition.compile_ok_iff.1 hg, hr ▸ hs⟩

/-- The stages of a deployed flow go by the id of the flow. -/
theorem FlowHost.flowId_of_prepare {h : FlowHost} {f : FlowDefinition} {d : DeployedFlow}
    (hd : h.prepare f = .ok d) : d.stages.flowId = f.id := by
  obtain ⟨hc, hs⟩ := prepare_ok hd
  exact (StageSet.flowId_addStages hs).trans hc.flowId

/-! A flow that sorts mail -/

namespace Mail

/-- A language in which a text asks whether it is the body of the message. -/
def language : PredicateLanguage where
  name := "body"
  compile text := .ok (fun m => .ok (m.body == .string text))

/-- A host with two components: one lets messages pass, the other refuses them. -/
def host : FlowHost where
  components name := if name = "pass" ∨ name = "refuse" then some ⟨name, "direct:" ++ name⟩ else none
  factory d := .ok ⟨d.id, fun m => (m, if d.component = "refuse" then some "refused" else none)⟩
  languages := { known := Dict.empty.insert language.name language, default := language.name }
  encoding := .percent
  options := {}

def sort : Node :=
  { id := "sort", kind := .choice, whenClauses := [⟨"urgent", "express", none⟩],
    otherwiseLabel := some "rest" }

/-- The label for urgent mail has three edges, two of them to the same node. -/
def flow : FlowDefinition where
  id := "mail"
  nodes := [{ id := "inlet", kind := .entry, component := "pass" }, sort,
    { id := "deliver", component := "pass" }, { id := "record", component := "refuse" },
    { id := "store", component := "pass" }]
  edges := [⟨"inlet", "sort", none⟩, ⟨"sort", "record", some "urgent"⟩, ⟨"sort", "store", some "rest"⟩,
    ⟨"sort", "deliver", some "urgent"⟩, ⟨"sort", "record", some "urgent"⟩]

def express : Message where
  id := ⟨0⟩
  createdAt := ⟨0, 0⟩
  body := .string "express"

theorem prepared : ∃ d, host.prepare flow = .ok d ∧ d.graph.entryNode = 0 ∧
    ((d.engine { isolation := .snapshot }).execute express).message.error =
      some (.stage "mail:record" "refused") :=
  ⟨_, rfl, rfl, rfl⟩

/-- A step of the host leaves a message as it is, and whether it refuses it does not depend on the message. -/
theorem process_of_stage {d : DeployedFlow} (hd : host.prepare flow = .ok d) {id : String} {s : Processor}
    (hs : d.stages.get? id = some (.step s)) : ∃ text, ∀ m, s.process m = (m, text) := by
  obtain ⟨hc, hm⟩ := FlowHost.prepare_ok hd
  obtain ⟨descriptor, hmade⟩ := FlowDefinition.processor_of_stage hc hm hs
  cases hmade
  exact ⟨_, fun m => rfl⟩

end Mail
end MessageFlow
