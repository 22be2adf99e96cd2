import MessageFlow.Proofs.Materialized

/-!
Calls on a host, one after another. A host changes the registry of stages and the map of deployed flows one
behind the other, and a call may fail between the two. What holds after every call is that the one map has
the stages of the other, and that both hold what the log of the calls says: for each flow what came of its
last deployment, unless the flow was taken back later. It makes no difference whether the components, the
steps and the languages that the host is given are the same at every call.
-/

namespace MessageFlow

/-- What a host is given at a call: the components that are known, the steps that are made, and the languages
that are read. -/
structure Surroundings where
  components : ComponentLookup
  factory : StepFactory
  languages : PredicateLanguages

/-- A call with the reply to it. -/
structure Served where
  call : HostCall
  surroundings : Surroundings
  reply : Except FlowError DeployedFlow

/-- The id of the flow that a call is about. -/
def HostCall.flowId : HostCall → String
  | .deploy f => f.id
  | .undeploy id => id

/-- A successful call about a flow. -/
def Served.Settles (x : Served) (id : String) : Prop := x.call.flowId = id ∧ ∃ d, x.reply = .ok d

/-- If the call was a deployment and succeeded, its result is what the definition comes to in the surroundings
of its time. -/
def Served.Made (encoding : ParameterEncoding) (x : Served) : Prop :=
  ∀ f d, x.call = .deploy f → x.reply = .ok d →
    f.compile x.surroundings.components = .ok d.graph ∧
      d.descriptors = RouteDescriptors.ofGraph encoding d.graph ∧
      StageSet.materialize x.surroundings.factory x.surroundings.languages d.descriptors = .ok d.stages

/-- The last successful call about a flow was a deployment, of this definition and with this result. -/
def Standing (log : List Served) (id : String) (f : FlowDefinition) (s : Surroundings) (d : DeployedFlow) :
    Prop :=
  ∃ before after, log = before ++ ⟨.deploy f, s, .ok d⟩ :: after ∧ f.id = id ∧
    ∀ x ∈ after, ¬ x.Settles id

section Standing
variable {log : List Served} {x : Served} {c : HostCall} {id : String} {f : FlowDefinition}
  {s s' : Surroundings} {d : DeployedFlow} {e : FlowError}

theorem Standing.mem (h : Standing log id f s d) : ⟨.deploy f, s, .ok d⟩ ∈ log := by
  obtain ⟨before, after, rfl, -, -⟩ := h
  exact List.mem_append_right _ List.mem_cons_self

theorem Standing.id_eq (h : Standing log id f s d) : f.id = id := by
  obtain ⟨before, after, -, hid, -⟩ := h
  exact hid

theorem not_standing_nil : ¬ Standing [] id f s d :=
  fun h => List.not_mem_nil h.mem

/-- One call more is a deployment that now stands, or leaves standing what it does not settle. -/
theorem standing_append : Standing (log ++ [x]) id f s d ↔
    x = ⟨.deploy f, s, .ok d⟩ ∧ f.id = id ∨ ¬ x.Settles id ∧ Standing log id f s d := by
  constructor
  · rintro ⟨before, after, hlog, hid, hafter⟩
    -- The call is the deployment itself, or the last one behind it.
    rcases List.eq_nil_or_concat after with rfl | ⟨rest, last, rfl⟩
    · obtain ⟨-, hx⟩ := List.append_inj' hlog rfl
      exact .inl ⟨List.singleton_inj.1 hx, hid⟩
    · rw [List.concat_eq_append, ← List.cons_append, ← List.append_assoc] at hlog
      obtain ⟨rfl, hx⟩ := List.append_inj' hlog rfl
      obtain rfl := List.singleton_inj.1 hx
      refine .inr ⟨hafter x (by simp), before, rest, rfl, hid, fun y hy => hafter y ?_⟩
      simp [hy]
  · rintro (⟨rfl, hid⟩ | ⟨hx, before, after, rfl, hid, hafter⟩)
    · exact ⟨log, [], rfl, hid, by simp⟩
    · refine ⟨before, after ++ [x], by simp, hid, fun y hy => ?_⟩
      rcases List.mem_append.1 hy with hy | hy
      · exact hafter y hy
      · exact List.mem_singleton.1 hy ▸ hx

theorem standing_refused : Standing (log ++ [⟨c, s', .error e⟩]) id f s d ↔ Standing log id f s d := by
  simp [standing_append, Served.Settles]

theorem standing_deployed {g : FlowDefinition} {d' : DeployedFlow} :
    Standing (log ++ [⟨.deploy g, s', .ok d'⟩]) id f s d ↔
      g.id = id ∧ g = f ∧ s' = s ∧ d' = d ∨ g.id ≠ id ∧ Standing log id f s d := by
  have hsettles : (⟨.deploy g, s', .ok d'⟩ : Served).Settles id ↔ g.id = id :=
    ⟨And.left, fun h => ⟨h, d', rfl⟩⟩
  rw [standing_append, hsettles]
  constructor
  · rintro (⟨hx, hid⟩ | h)
    · cases hx
      exact .inl ⟨hid, rfl, rfl, rfl⟩
    · exact .inr h
  · rintro (⟨hid, rfl, rfl, rfl⟩ | h)
    · exact .inl ⟨rfl, hid⟩
    · exact .inr h

theorem standing_undeployed {other : String} {d' : DeployedFlow} :
    Standing (log ++ [⟨.undeploy other, s', .ok d'⟩]) id f s d ↔
      other ≠ id ∧ Standing log id f s d := by
  have hsettles : (⟨.undeploy other, s', .ok d'⟩ : Served).Settles id ↔ other = id :=
    ⟨And.left, fun h => ⟨h, d', rfl⟩⟩
  rw [standing_append, hsettles]
  constructor
  · rintro (⟨hx, -⟩ | h)
    · cases hx
    · exact h
  · exact .inr

end Standing

theorem StageRegistry.register_ok_iff {r r' : StageRegistry} {s : StageSet} {previous : Option StageSet} :
    r.register s = .ok (previous, r') ↔
      r.collision? s = none ∧ previous = r.flow? s.flowId ∧ r' = ⟨r.flows.insert s.flowId s⟩ := by
  unfold register
  cases r.collision? s with
  | some id => simp
  | none => simp [flow?, eq_comm]

namespace FlowHost
variable {h k l : FlowHost} {c : HostCall} {s : Surroundings} {reply : Except FlowError DeployedFlow}
  {log : List Served}

/-- What comes of a call. -/
inductive Performs (h : FlowHost) : HostCall → Except FlowError DeployedFlow → FlowHost → Prop
  | unprepared {f : FlowDefinition} {e : FlowError} :
      h.prepare f = .error e → Performs h (.deploy f) (.error e) h
  | collides {f : FlowDefinition} {d : DeployedFlow} {e : DeployError} :
      h.prepare f = .ok d → h.registry.register d.stages = .error e →
      Performs h (.deploy f) (.error (.deploy e)) h
  | deploys {f : FlowDefinition} {d : DeployedFlow} {previous : Option StageSet}
      {registry : StageRegistry} :
      h.prepare f = .ok d → h.registry.register d.stages = .ok (previous, registry) →
      Performs h (.deploy f) (.ok d) { h with registry, flows := h.flows.insert f.id d }
  | unknown {id : String} :
      h.flow? id = none → Performs h (.undeploy id) (.error (.flowNotFound id)) h
  | undeploys {id : String} {d : DeployedFlow} :
      h.flow? id = some d →
      Performs h (.undeploy id) (.ok d)
        { h with registry := (h.registry.remove id).2, flows := h.flows.erase id }

open HostWork in
theorem performs (h : FlowHost) (c : HostCall) : h.Performs c (h.perform c).1 (h.perform c).2 := by
  cases c with
  | deploy f =>
    unfold perform deploy registerStages
    cases hd : h.prepare f with
    | error e =>
      simp only [run_bind, run_get, run_lift, hd]
      exact .unprepared hd
    | ok d =>
      rcases hr : h.registry.register d.stages with e | ⟨previous, registry⟩
      · simp only [run_bind, run_get, run_lift, hd, hr, run_throw]
        exact .collides hd hr
      · simp only [run_bind, run_get, run_lift, hd, hr, run_modify, run_pure]
        exact .deploys hd hr
  | undeploy id =>
    unfold perform undeploy
    cases hf : h.flow? id with
    | none =>
      simp only [run_bind, run_get, hf, run_throw]
      exact .unknown hf
    | some d =>
      simp only [run_bind, run_get, hf, run_modify, run_pure]
      exact .undeploys hf

/-- A call that fails changes nothing. -/
theorem Performs.eq_of_error {e : FlowError} (hp : h.Performs c (.error e) k) : k = h := by
  cases hp <;> rfl

theorem Performs.undeploy_ok_iff {id : String} {d : DeployedFlow} (hp : h.Performs (.undeploy id) reply k) :
    reply = .ok d ↔ h.flow? id = some d := by
  cases hp with
  | unknown hf => simp [hf]
  | undeploys hf => simp [hf]

/-- The host with other surroundings. -/
def amid (h : FlowHost) (s : Surroundings) : FlowHost :=
  { h with components := s.components, factory := s.factory, languages := s.languages }

/-- Calls one after another, each with the surroundings of its time: their log, and the host behind them. -/
def serve (h : FlowHost) : List (HostCall × Surroundings) → List Served × FlowHost
  | [] => ([], h)
  | (c, s) :: rest =>
    let (reply, k) := (h.amid s).perform c
    let (log, l) := k.serve rest
    (⟨c, s, reply⟩ :: log, l)

theorem calls_serve (h : FlowHost) (calls : List (HostCall × Surroundings)) :
    (h.serve calls).1.map (fun x => (x.call, x.surroundings)) = calls := by
  induction calls generalizing h with
  | nil => rfl
  | cons c rest ih => exact congrArg (c :: ·) (ih ((h.amid c.2).perform c.1).2)

/-- What the log of the calls tells about the host that they have come to. -/
structure Kept (encoding : ParameterEncoding) (log : List Served) (k : FlowHost) : Prop where
  stages : k.registry.flows = k.flows.map DeployedFlow.stages
  standing : ∀ id d, k.flow? id = some d ↔ ∃ f s, Standing log id f s d
  made : ∀ x ∈ log, x.Made encoding
  encoding : k.encoding = encoding

theorem kept_start (hr : h.registry.flows = .empty) (hf : h.flows = .empty) : Kept h.encoding [] h where
  encoding := rfl
  stages := by
    rw [hr, hf]
    rfl
  standing id d := by simp [flow?, hf, not_standing_nil]
  made x hx := nomatch hx

namespace Kept
variable {encoding : ParameterEncoding}

theorem refused {e : FlowError} (hk : Kept encoding log k) :
    Kept encoding (log ++ [⟨c, s, .error e⟩]) (k.amid s) where
  encoding := hk.encoding
  stages := hk.stages
  standing id d := by
    simp only [standing_refused]
    exact hk.standing id d
  made := by
    have hnew : Served.Made encoding ⟨c, s, .error e⟩ := fun _ _ _ hreply => nomatch hreply
    exact List.forall_mem_append.2 ⟨hk.made, List.forall_mem_singleton.2 hnew⟩

theorem deployed {f : FlowDefinition} {d : DeployedFlow} {previous : Option StageSet}
    {registry : StageRegistry} (hk : Kept encoding log k) (hd : (k.amid s).prepare f = .ok d)
    (hr : k.registry.register d.stages = .ok (previous, registry)) :
    Kept encoding (log ++ [⟨.deploy f, s, .ok d⟩])
      { k.amid s with registry, flows := k.flows.insert f.id d } where
  encoding := hk.encoding
  stages := by
    obtain ⟨-, -, rfl⟩ := StageRegistry.register_ok_iff.1 hr
    rw [flowId_of_prepare hd, hk.stages]
    exact Dict.map_insert.symm
  standing id d' := by
    show (k.flows.insert f.id d).get? id = some d' ↔ _
    simp only [Dict.get?_insert, standing_deployed]
    by_cases hid : id = f.id
    · subst hid
      simp
    · have hother : k.flows.get? id = some d' ↔ ∃ g s', Standing log id g s' d' := hk.standing id d'
      simp [hid, Ne.symm hid, hother]
  made := by
    have hnew : Served.Made encoding ⟨.deploy f, s, .ok d⟩ := by
      rintro g d' hcall hreply
      cases hcall
      cases hreply
      rw [← hk.encoding]
      exact prepare_ok_iff.1 hd
    exact List.forall_mem_append.2 ⟨hk.made, List.forall_mem_singleton.2 hnew⟩

theorem undeployed {id : String} {d : DeployedFlow} (hk : Kept encoding log k) :
    Kept encoding (log ++ [⟨.undeploy id, s, .ok d⟩])
      { k.amid s with registry := (k.registry.remove id).2, flows := k.flows.erase id } where
  encoding := hk.encoding
  stages := by
    show k.registry.flows.erase id = _
    rw [hk.stages]
    exact Dict.map_erase.symm
  standing other d' := by
    show (k.flows.erase id).get? other = some d' ↔ _
    simp only [Dict.get?_erase, standing_undeployed]
    by_cases hid : other = id
    · subst hid
      simp
    · have hother : k.flows.get? other = some d' ↔ ∃ g s', Standing log other g s' d' :=
        hk.standing other d'
      simp [hid, Ne.symm hid, hother]
  made := by
    have hnew : Served.Made encoding ⟨.undeploy id, s, .ok d⟩ := fun _ _ hcall => nomatch hcall
    exact List.forall_mem_append.2 ⟨hk.made, List.forall_mem_singleton.2 hnew⟩

/-- One call more. -/
theorem performed (hk : Kept encoding log k) (hp : (k.amid s).Performs c reply l) :
    Kept encoding (log ++ [⟨c, s, reply⟩]) l := by
  cases hp with
  | unprepared _ => exact hk.refused
  | collides _ _ => exact hk.refused
  | deploys hd hr => exact hk.deployed hd hr
  | unknown _ => exact hk.refused
  | undeploys _ => exact hk.undeployed

/-- Any number of calls. -/
theorem served (hk : Kept encoding log k) (calls : List (HostCall × Surroundings)) :
    Kept encoding (log ++ (k.serve calls).1) (k.serve calls).2 := by
  induction calls generalizing log k with
  | nil =>
    rw [serve, List.append_nil]
    exact hk
  | cons x rest ih =>
    obtain ⟨c, s⟩ := x
    have hrest := ih (hk.performed ((k.amid s).performs c))
    rwa [List.append_assoc, List.singleton_append] at hrest

theorem flow?_registry (hk : Kept encoding log k) (id : String) :
    k.registry.flow? id = (k.flow? id).map DeployedFlow.stages := by
  rw [StageRegistry.flow?, hk.stages, Dict.get?_map, flow?]

/-- The stage ids of a deployed flow begin with the id of the flow. -/
theorem split?_stage (hk : Kept encoding log k) {flow id : String} {d : DeployedFlow} {stage : Stage}
    (hd : k.flow? flow = some d) (hs : d.stages.get? id = some stage) :
    ∃ node, StageId.split? id = some (flow, node) := by
  obtain ⟨f, s, hf⟩ := (hk.standing flow d).1 hd
  obtain ⟨hg, hr, hm⟩ := hk.made _ hf.mem f d rfl rfl
  rw [← hf.id_eq]
  exact FlowDefinition.split?_of_stage (FlowDefinition.compile_ok_iff.1 hg) (hr ▸ hm) hs

/-- The registry finds the stages of the deployed flows. -/
theorem get?_registry_iff (hk : Kept encoding log k) {id : String} {stage : Stage} :
    k.registry.get? id = some stage ↔
      ∃ flow d, k.flow? flow = some d ∧ d.stages.get? id = some stage := by
  constructor
  · intro hs
    obtain ⟨⟨flow, node⟩, -, hs⟩ := Option.bind_eq_some_iff.1 hs
    obtain ⟨set, hset, hs⟩ := Option.bind_eq_some_iff.1 hs
    rw [hk.flow?_registry] at hset
    obtain ⟨d, hd, rfl⟩ := Option.map_eq_some_iff.1 hset
    exact ⟨flow, d, hd, hs⟩
  · rintro ⟨flow, d, hd, hs⟩
    obtain ⟨node, hsplit⟩ := hk.split?_stage hd hs
    have hset : k.registry.flow? flow = some d.stages := by
      rw [hk.flow?_registry, hd, Option.map_some]
    simp [StageRegistry.get?, hsplit, hset, hs]

end Kept

/-- Whatever calls a new host has served, in surroundings that may change from call to call, its two maps are
in step: the same flows are deployed and have their stages in the registry; each is what its last deployment
has made of its definition, unless it was taken back later; and the registry finds the stages of these flows
and no others. A call that fails changes neither map, and a flow can be taken back if and only if it is
deployed. -/
theorem serve_keeps_in_step (s₀ : Surroundings) (encoding : ParameterEncoding) (options : EngineOptions)
    (calls : List (HostCall × Surroundings)) :
    let h : FlowHost := { s₀ with encoding, options }
    let log := (h.serve calls).1
    let k := (h.serve calls).2
    log.map (fun x => (x.call, x.surroundings)) = calls ∧
      k.flowIds = k.registry.flows.keys ∧
      (∀ id d, k.flow? id = some d ↔ ∃ f s, Standing log id f s d) ∧
      (∀ id f s d, Standing log id f s d → f.compile s.components = .ok d.graph ∧
        d.descriptors = RouteDescriptors.ofGraph encoding d.graph ∧
        StageSet.materialize s.factory s.languages d.descriptors = .ok d.stages) ∧
      (∀ id d, k.flow? id = some d → k.registry.flow? id = some d.stages) ∧
      (∀ id stage, k.registry.get? id = some stage ↔
        ∃ flow d, k.flow? flow = some d ∧ d.stages.get? id = some stage) ∧
      (∀ c s e, ((k.amid s).perform c).1 = .error e →
        ((k.amid s).perform c).2.flows = k.flows ∧ ((k.amid s).perform c).2.registry = k.registry) ∧
      (∀ id s d, ((k.amid s).perform (.undeploy id)).1 = .ok d ↔ k.flow? id = some d) := by
  intro h log k
  have hk : Kept encoding log k := (kept_start (h := h) rfl rfl).served calls
  refine ⟨h.calls_serve calls, ?ids, hk.standing, ?made, ?registered, ?found, ?failed, ?undeployed⟩
  case ids => rw [hk.stages, Dict.keys_map, flowIds]
  case made =>
    intro id f s d hf
    exact hk.made _ hf.mem f d rfl rfl
  case registered =>
    intro id d hd
    rw [hk.flow?_registry, hd, Option.map_some]
  case found =>
    intro id stage
    exact hk.get?_registry_iff
  case failed =>
    intro c s e he
    have hp := (k.amid s).performs c
    rw [he] at hp
    rw [hp.eq_of_error]
    exact ⟨rfl, rfl⟩
  case undeployed =>
    intro id s d
    exact ((k.amid s).performs (.undeploy id)).undeploy_ok_iff

/-- A flow is deployed, then a shorter one in its place; what fails behind that makes no difference. -/
example :
    let short : FlowDefinition := {
      id := "mail"
      nodes := [{ id := "inlet", kind := .entry, component := "pass" }, { id := "store", component := "pass" }]
      edges := [⟨"inlet", "store", none⟩] }
    let broken : FlowDefinition := { short with edges := [] }
    let s : Surroundings := { Mail.host with }
    let k := (Mail.host.serve [(.deploy Mail.flow, s), (.deploy short, s), (.deploy broken, s),
      (.undeploy "post", s)]).2
    k.flowIds = ["mail"] ∧ (k.registry.get? "mail:store").isSome ∧
      (k.registry.get? "mail:deliver").isNone :=
  ⟨rfl, rfl, rfl⟩

end FlowHost
end MessageFlow
