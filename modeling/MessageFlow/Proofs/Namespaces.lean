import MessageFlow.Proofs.Deployment
import MessageFlow.Proofs.Registration

/-!
No two stages share an id. Nodes of one flow have different names, and what stands before the first separator
of a stage id is the id of its flow, since the id of a flow has no separator in it. So a deployment is never
refused for a stage id that is taken already.
-/

namespace MessageFlow

theorem StageId.qualify_injective (flow : String) : Function.Injective (StageId.qualify flow) := by
  intro a b h
  apply String.toList_injective
  have hl := congrArg String.toList h
  rw [toList_qualify, toList_qualify] at hl
  exact List.tail_eq_of_cons_eq (List.append_cancel_left hl)

/-- A stage id of the flow stands for one node. It is split into the id of the flow and the name of the node,
and is resolved to this node. -/
structure CompiledGraph.Namespaced (flow : String) (g : CompiledGraph) : Prop where
  qualified : ∀ i, g.qualified i = StageId.qualify flow (g.name i)
  injective : Function.Injective (StageId.qualify flow)
  distinct : ∀ i j, i < g.size → j < g.size → g.qualified i = g.qualified j → i = j
  split : ∀ id node, StageId.split? id = some (flow, node) ↔ id = StageId.qualify flow node
  resolve : ∀ id i, g.resolve? id = some i ↔ i < g.size ∧ id = g.qualified i

namespace FlowDefinition.Compiled
variable {components : ComponentLookup} {f : FlowDefinition} {g : CompiledGraph} {i j : Nat} {id : String}
  (hc : Compiled components f g)
include hc

theorem flowId_no_separator : namespaceSeparator ∉ g.flowId.toList := by
  rw [hc.flowId]
  exact hc.flow.no_separator

/-- A stage id is resolved to the node that it belongs to, and nothing else is resolved. -/
theorem resolve?_eq_some_iff : g.resolve? id = some i ↔ i < g.size ∧ id = g.qualified i := by
  unfold CompiledGraph.resolve?
  constructor
  · intro h
    split at h
    · next flow node hsplit =>
      split at h
      · next hflow =>
        obtain ⟨n, hn, hname⟩ := Option.map_eq_some_iff.1 (hc.node?_eq_some_iff.1 h)
        rw [hc.qualified hn, hname, ← hc.flowId, ← hflow]
        exact ⟨hc.lt_size_iff.2 ⟨n, hn⟩, StageId.qualify_of_split? hsplit⟩
      · cases h
    · cases h
  · rintro ⟨hi, rfl⟩
    obtain ⟨n, hn⟩ := hc.lt_size_iff.1 hi
    have hsplit : StageId.split? (g.qualified i) = some (g.flowId, g.name i) :=
      StageId.split?_qualify hc.flowId_no_separator
    rw [hsplit]
    dsimp only
    rw [if_pos rfl, hc.node?_eq_some_iff, hn, hc.name hn, Option.map_some]

/-- Different nodes have different stage ids. -/
theorem qualified_inj (hi : i < g.size) (hj : j < g.size) (h : g.qualified i = g.qualified j) : i = j := by
  have hri := hc.resolve?_eq_some_iff.2 ⟨hi, rfl⟩
  have hrj := hc.resolve?_eq_some_iff.2 ⟨hj, rfl⟩
  rw [h] at hri
  exact Option.some.inj (hri.symm.trans hrj)

theorem namespaced : g.Namespaced f.id where
  qualified i := by rw [CompiledGraph.qualified, hc.flowId]
  injective := StageId.qualify_injective f.id
  distinct _ _ hi hj h := hc.qualified_inj hi hj h
  split _ _ := StageId.split?_eq_some_iff hc.flow.no_separator
  resolve _ _ := hc.resolve?_eq_some_iff

/-- The descriptors of a flow have different ids. -/
theorem nodup_descriptor_ids (encoding : ParameterEncoding) :
    ((RouteDescriptors.ofGraph encoding g).stages.map StageDescriptor.id).Nodup := by
  have hids : (RouteDescriptors.ofGraph encoding g).stages.map StageDescriptor.id =
      (g.defined.map Prod.fst).map g.qualified := by
    rw [RouteDescriptors.ofGraph, List.map_map, List.map_map]
    apply List.map_congr_left
    rintro ⟨i, d⟩ -
    cases d <;> rfl
  have hnodup : ((List.range g.size).filter (· ≠ g.entryNode)).Nodup := List.nodup_range.filter _
  rw [hids, hc.map_fst_defined, List.Nodup, List.pairwise_map]
  refine hnodup.imp_of_mem (fun hi hj hne h => hne (hc.qualified_inj ?_ ?_ h))
  · exact List.mem_range.1 (List.mem_filter.1 hi).1
  · exact List.mem_range.1 (List.mem_filter.1 hj).1

end FlowDefinition.Compiled

namespace StageSet
variable {factory : StepFactory} {ls : PredicateLanguages} {set : StageSet} {d : StageDescriptor}
  {ds : List StageDescriptor} {id : String}

theorem makeStage_step_error_iff {s : StepDescriptor} {err : DeployError} :
    makeStage factory ls (.step s) = .error err ↔
      ∃ reason, factory s = .error reason ∧ .stepFactory s.id reason = err := by
  cases hs : factory s <;> simp [makeStage, makeStep, hs, Except.map]

theorem makeStage_choice_error_iff {c : ChoiceDescriptor} {err : DeployError} :
    makeStage factory ls (.choice c) = .error err ↔ c.whens.mapM (makeClause ls c.id) = .error err :=
  map_eq_error_iff.trans map_eq_error_iff

theorem makeClause_ne_collision {w : WhenDescriptor} {choice : String} :
    makeClause ls choice w ≠ .error (.stageCollision id) := by
  unfold makeClause
  cases ls.get? w.predicate.language with
  | none => simp
  | some l => cases hp : l.compile w.predicate.expression <;> simp [hp]

/-- Whatever keeps a stage from being made, it is not that its id is taken. -/
theorem makeStage_ne_collision : makeStage factory ls d ≠ .error (.stageCollision id) := by
  intro h
  cases d with
  | step s =>
    obtain ⟨reason, -, herr⟩ := makeStage_step_error_iff.1 h
    cases herr
  | choice c =>
    obtain ⟨before, w, after, -, -, hw⟩ := mapM_eq_error_iff.1 (makeStage_choice_error_iff.1 h)
    exact makeClause_ne_collision hw

/-- A stage that can be made is added under a new id. When all ids are different, those still to come are new
behind it as well. -/
theorem addStages_cons {stage : Stage} (hmade : makeStage factory ls d = .ok stage)
    (hn : ((d :: ds).map StageDescriptor.id).Nodup) (hnew : ∀ other ∈ d :: ds, set.get? other.id = none) :
    ∃ next : StageSet, addStages factory ls set (d :: ds) = addStages factory ls next ds ∧
      ∀ other ∈ ds, next.get? other.id = none := by
  rw [List.map_cons, List.nodup_cons] at hn
  obtain ⟨hd, hrest⟩ := List.forall_mem_cons.1 hnew
  have hinsert : set.insert d.id stage = .ok { set with stages := set.stages.insert d.id stage } :=
    insert_ok_iff.2 ⟨hd, rfl⟩
  refine ⟨{ set with stages := set.stages.insert d.id stage }, ?_, fun other hother => ?_⟩
  · rw [addStages, hmade]
    dsimp only
    rw [hinsert]
  · -- the id that is taken now is none of those still to come
    have hne : other.id ≠ d.id := fun heq => hn.1 (heq ▸ List.mem_map_of_mem hother)
    rw [StageSet.get?, Dict.get?_insert, if_neg hne]
    exact hrest other hother

/-- With different ids, all of them new, nothing else keeps stages from being added than that one of them cannot
be made; the first such one is reported. -/
theorem addStages_eq_error_iff {err : DeployError} (hn : (ds.map StageDescriptor.id).Nodup)
    (hnew : ∀ d ∈ ds, set.get? d.id = none) :
    addStages factory ls set ds = .error err ↔ ds.mapM (makeStage factory ls) = .error err := by
  induction ds generalizing set with
  | nil => simp [addStages, pure, Except.pure]
  | cons d rest ih =>
    rw [mapM_cons_eq_error_iff]
    cases hmade : makeStage factory ls d with
    | error e => simp [addStages, hmade]
    | ok stage =>
      obtain ⟨next, hnext, hstill⟩ := addStages_cons hmade hn hnew
      rw [hnext, ih (List.nodup_cons.1 hn).2 hstill]
      simp

theorem addStages_ne_collision (hn : (ds.map StageDescriptor.id).Nodup)
    (hnew : ∀ d ∈ ds, set.get? d.id = none) :
    addStages factory ls set ds ≠ .error (.stageCollision id) := by
  intro h
  obtain ⟨before, d, after, -, -, hd⟩ := mapM_eq_error_iff.1 ((addStages_eq_error_iff hn hnew).1 h)
  exact makeStage_ne_collision hd

theorem exists_addStages (hn : (ds.map StageDescriptor.id).Nodup) (hnew : ∀ d ∈ ds, set.get? d.id = none)
    (hmade : ∀ d ∈ ds, ∃ stage, makeStage factory ls d = .ok stage) :
    ∃ final, addStages factory ls set ds = .ok final := by
  cases hadded : addStages factory ls set ds with
  | ok final => exact ⟨final, rfl⟩
  | error err =>
    obtain ⟨before, d, after, rfl, -, hd⟩ := mapM_eq_error_iff.1 ((addStages_eq_error_iff hn hnew).1 hadded)
    obtain ⟨stage, hstage⟩ := hmade d (by simp)
    cases hd.symm.trans hstage

/-- The stages of a compiled flow can be made if and only if each of them can. -/
theorem exists_materialize_iff {components : ComponentLookup} {f : FlowDefinition} {g : CompiledGraph}
    {encoding : ParameterEncoding} (hc : FlowDefinition.Compiled components f g) :
    (∃ set, materialize factory ls (RouteDescriptors.ofGraph encoding g) = .ok set) ↔
      ∀ i d, g.definition? i = some d → ∃ stage, makeStage factory ls
        (RouteDescriptors.ofDefinition encoding g.flowId (g.qualified i) d) = .ok stage := by
  constructor
  · rintro ⟨set, hs⟩ i d hd
    exact (addStages_ok hs).1 _ (List.mem_map.2 ⟨(i, d), hc.mem_defined.2 hd, rfl⟩)
  · intro hmade
    refine exists_addStages (hc.nodup_descriptor_ids encoding) (fun _ _ => rfl) ?_
    intro descriptor hdescriptor
    obtain ⟨⟨i, d⟩, hd, rfl⟩ := List.mem_map.1 hdescriptor
    exact hmade i d (hc.mem_defined.1 hd)

/-- All stage ids of the set begin with this id of a flow. -/
def Owned (flow : String) (s : StageSet) : Prop :=
  ∀ id stage, s.get? id = some stage → ∃ node, StageId.split? id = some (flow, node)

/-- A stage id begins with the id of one flow only. -/
theorem Owned.flow_eq {s t : StageSet} {flow other : String} {stage stage' : Stage} (hs : s.Owned flow)
    (ht : t.Owned other) (h : s.get? id = some stage) (h' : t.get? id = some stage') : flow = other := by
  obtain ⟨node, hsplit⟩ := hs id stage h
  obtain ⟨node', hsplit'⟩ := ht id stage' h'
  rw [hsplit, Option.some.injEq, Prod.mk.injEq] at hsplit'
  exact hsplit'.1

end StageSet

/-- Nothing collides with a registry in which the stages of each flow go by the id of the flow. -/
theorem StageRegistry.collision?_eq_none {r : StageRegistry} {s : StageSet}
    (hr : ∀ flow set, r.flow? flow = some set → set.Owned flow) (hs : s.Owned s.flowId) :
    r.collision? s = none := by
  rw [collision?_eq_none_iff]
  -- an id in both sets would begin with the ids of two flows
  rintro id ⟨hid, flow, hflow, set, hset, htaken⟩
  obtain ⟨stage, hstage⟩ := Dict.exists_of_mem_keys hid
  obtain ⟨other, hother⟩ := Dict.exists_of_mem_keys htaken
  exact hflow ((hr flow set hset).flow_eq hs hother hstage)

namespace FlowHost
variable {h k : FlowHost} {f : FlowDefinition} {d : DeployedFlow} {s : Surroundings} {log : List Served}
  {encoding : ParameterEncoding} {flow id : String}

theorem materialize_ne_collision {components : ComponentLookup} {factory : StepFactory}
    {languages : PredicateLanguages} {g : CompiledGraph} (hg : f.compile components = .ok g) :
    StageSet.materialize factory languages (RouteDescriptors.ofGraph encoding g) ≠
      .error (.stageCollision id) := by
  have hc : FlowDefinition.Compiled components f g := FlowDefinition.compile_ok_iff.1 hg
  exact StageSet.addStages_ne_collision (hc.nodup_descriptor_ids encoding) (fun _ _ => rfl)

theorem prepare_ne_collision : h.prepare f ≠ .error (.deploy (.stageCollision id)) := by
  unfold prepare
  cases hg : f.compile h.components with
  | error e => simp
  | ok g =>
    dsimp only
    cases hs : StageSet.materialize h.factory h.languages (RouteDescriptors.ofGraph h.encoding g) with
    | error e =>
      intro he
      cases he
      exact materialize_ne_collision hg hs
    | ok stages => simp

theorem owned_of_prepare (hd : h.prepare f = .ok d) : d.stages.Owned f.id := by
  obtain ⟨hc, hm⟩ := prepare_ok hd
  exact fun _ _ hs => FlowDefinition.split?_of_stage hc hm hs

namespace Kept

theorem owned (hk : Kept encoding log k) (hd : k.flow? flow = some d) : d.stages.Owned flow :=
  fun _ _ hs => hk.split?_stage hd hs

/-- The stages of a flow collide with nothing that is registered. -/
theorem register_ok (hk : Kept encoding log k) (hd : (k.amid s).prepare f = .ok d) :
    ∃ r, k.registry.register d.stages = .ok (k.registry.flow? d.stages.flowId, r) := by
  have hregistered : ∀ flow set, k.registry.flow? flow = some set → set.Owned flow := by
    intro flow set hset
    rw [hk.flow?_registry] at hset
    obtain ⟨other, hother, rfl⟩ := Option.map_eq_some_iff.1 hset
    exact hk.owned hother
  have hown : d.stages.Owned d.stages.flowId := by
    rw [flowId_of_prepare hd]
    exact owned_of_prepare hd
  have hfree := StageRegistry.collision?_eq_none hregistered hown
  exact ⟨_, StageRegistry.register_ok_iff.2 ⟨hfree, rfl, rfl⟩⟩

/-- No call is refused because a stage id is taken. -/
theorem perform_ne_collision (hk : Kept encoding log k) (c : HostCall) :
    ((k.amid s).perform c).1 ≠ .error (.deploy (.stageCollision id)) := by
  intro he
  have hp := (k.amid s).performs c
  rw [he] at hp
  generalize ((k.amid s).perform c).2 = l at hp
  cases hp with
  | unprepared hd => exact prepare_ne_collision hd
  | collides hd hr =>
    obtain ⟨r, hok⟩ := hk.register_ok hd
    cases hr.symm.trans hok

theorem serve_ne_collision (hk : Kept encoding log k) (calls : List (HostCall × Surroundings)) :
    ∀ x ∈ (k.serve calls).1, x.reply ≠ .error (.deploy (.stageCollision id)) := by
  induction calls generalizing log k with
  | nil => exact fun x hx => nomatch hx
  | cons x rest ih =>
    obtain ⟨c, s⟩ := x
    exact List.forall_mem_cons.2 ⟨hk.perform_ne_collision c, ih (hk.performed ((k.amid s).performs c))⟩

/-- Flows that are deployed together have no stage id in common. -/
theorem ids_disjoint (hk : Kept encoding log k) {other : String} {d' : DeployedFlow}
    (hd : k.flow? flow = some d) (hd' : k.flow? other = some d') (hid : id ∈ d.stages.ids)
    (hid' : id ∈ d'.stages.ids) : flow = other := by
  obtain ⟨stage, hs⟩ := Dict.exists_of_mem_keys hid
  obtain ⟨stage', hs'⟩ := Dict.exists_of_mem_keys hid'
  exact (hk.owned hd).flow_eq (hk.owned hd') hs hs'

theorem namespaced (hk : Kept encoding log k) (hd : k.flow? flow = some d) : d.graph.Namespaced flow := by
  obtain ⟨f, s, hf⟩ := (hk.standing flow d).1 hd
  obtain ⟨hg, -, -⟩ := hk.made _ hf.mem f d rfl rfl
  have hc : FlowDefinition.Compiled s.components f d.graph := FlowDefinition.compile_ok_iff.1 hg
  exact hf.id_eq ▸ hc.namespaced

end Kept

/-- Whatever calls a new host serves, in surroundings that may change from call to call, none of them is
refused because a stage id is taken: neither while the stages of a flow are made nor when they are registered.
Flows that are deployed together have no stage id in common, and within each of them a stage id stands for one
node. -/
theorem serve_never_collides (s₀ : Surroundings) (encoding : ParameterEncoding) (options : EngineOptions)
    (calls : List (HostCall × Surroundings)) :
    let h : FlowHost := { s₀ with encoding, options }
    let log := (h.serve calls).1
    let k := (h.serve calls).2
    (∀ x ∈ log, ∀ id, x.reply ≠ .error (.deploy (.stageCollision id))) ∧
      (∀ (f : FlowDefinition) (s : Surroundings) g id, f.compile s.components = .ok g →
        StageSet.materialize s.factory s.languages (RouteDescriptors.ofGraph encoding g) ≠
          .error (.stageCollision id)) ∧
      (∀ f s d, (k.amid s).prepare f = .ok d →
        ∃ registry, k.registry.register d.stages = .ok (k.registry.flow? f.id, registry)) ∧
      (∀ flow other d d', k.flow? flow = some d → k.flow? other = some d' → flow ≠ other →
        ∀ id ∈ d.stages.ids, id ∉ d'.stages.ids) ∧
      (∀ flow d, k.flow? flow = some d → d.graph.Namespaced flow) := by
  intro h log k
  have hstart : Kept encoding [] h := kept_start (h := h) rfl rfl
  have hk : Kept encoding log k := hstart.served calls
  refine ⟨fun x hx _ => hstart.serve_ne_collision calls x hx, ?made, ?registered, ?disjoint, ?nodes⟩
  case made =>
    intro f s g id hg
    exact materialize_ne_collision hg
  case registered =>
    intro f s d hd
    rw [← flowId_of_prepare hd]
    exact hk.register_ok hd
  case disjoint =>
    intro flow other d d' hd hd' hne id hid hid'
    exact hne (hk.ids_disjoint hd hd' hid hid')
  case nodes =>
    intro flow d hd
    exact hk.namespaced hd

end FlowHost
end MessageFlow
