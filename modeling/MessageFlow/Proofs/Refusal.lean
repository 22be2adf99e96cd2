import Mathlib.Data.List.Nodup
import MessageFlow.Proofs.Namespaces

/-!
Which compiled flows get their stages, and what is reported when one does not. A host may refuse to make a step,
and the text of a clause may be in no language that is known or in none that can be read. The first node that is
refused is reported, in the order of declaration, and within a choice its first clause.
-/

namespace MessageFlow

/-- Languages as hosts put them together: the language of conditions to begin with, then more languages are
added, and some that are known are made the default. -/
inductive PredicateLanguages.Assembled : PredicateLanguages → Prop
  | new : Assembled .new
  | register {ls : PredicateLanguages} (l : PredicateLanguage) : Assembled ls → Assembled (ls.register l)
  | setDefault {ls next : PredicateLanguages} {name : String} : Assembled ls →
      ls.setDefault? name = some next → Assembled next

/-- The default language is always known. -/
theorem PredicateLanguages.Assembled.exists_default {ls : PredicateLanguages} (h : ls.Assembled) :
    ∃ l, ls.known.get? ls.default = some l := by
  induction h with
  | new => exact ⟨simpleLanguage, rfl⟩
  | @register ls l _ ih =>
    obtain ⟨k, hk⟩ := ih
    by_cases hl : ls.default = l.name
    · exact ⟨l, by simp [PredicateLanguages.register, hl]⟩
    · exact ⟨k, by simp [PredicateLanguages.register, hl, hk]⟩
  | @setDefault ls next name _ hnext ih =>
    unfold setDefault? at hnext
    split at hnext
    · next hknown =>
      cases hnext
      exact Option.isSome_iff_exists.1 hknown
    · cases hnext

namespace WhenClause
variable {ls : PredicateLanguages} {id : String} {w : WhenClause} {err : DeployError}

/-- The language of the clause is known and can read its text. -/
def Readable (ls : PredicateLanguages) (w : WhenClause) : Prop :=
  ∃ l p, ls.get? w.language = some l ∧ l.compile w.expression = .ok p

/-- Why a clause of a choice is refused: it names a language that nobody knows, or its language cannot read its
text. -/
inductive Refused (ls : PredicateLanguages) (id : String) (w : WhenClause) : DeployError → Prop
  | unknown {name : String} : w.language = some name → ls.known.get? name = none →
      Refused ls id w (.unknownLanguage name)
  | unreadable {l : PredicateLanguage} {cause : PredicateError} : ls.get? w.language = some l →
      l.compile w.expression = .error cause → Refused ls id w (.predicate id cause)

end WhenClause

/-- The descriptor with which a host is asked for the step of a node. -/
def FlowDefinition.stepDescriptor (encoding : ParameterEncoding) (f : FlowDefinition) (n : Node) (c : Component) :
    StepDescriptor :=
  ⟨StageId.qualify f.id n.id, c.name, renderUri c.binding n.parameters encoding⟩

namespace Surroundings

/-- The host makes the step of the node, or can read all clauses of the choice. -/
structure Accepts (s : Surroundings) (encoding : ParameterEncoding) (f : FlowDefinition) (n : Node) : Prop where
  step : n.kind ≠ .choice → ∀ c, s.components n.component = some c →
    ∃ p, s.factory (f.stepDescriptor encoding n c) = .ok p
  choice : n.kind = .choice → ∀ w ∈ n.whenClauses, w.Readable s.languages

/-- The failure that is reported when the node cannot have its stage. -/
inductive Refuses (s : Surroundings) (encoding : ParameterEncoding) (f : FlowDefinition) (n : Node) :
    DeployError → Prop
  | step {c : Component} {reason : String} : n.kind ≠ .choice → s.components n.component = some c →
      s.factory (f.stepDescriptor encoding n c) = .error reason →
      Refuses s encoding f n (.stepFactory (StageId.qualify f.id n.id) reason)
  | choice {before after : List WhenClause} {w : WhenClause} {err : DeployError} : n.kind = .choice →
      n.whenClauses = before ++ w :: after → (∀ v ∈ before, v.Readable s.languages) →
      w.Refused s.languages (StageId.qualify f.id n.id) err → Refuses s encoding f n err

/-- The stage of the node: the step that the host makes for it, or a choice with its clauses. -/
inductive Makes (s : Surroundings) (encoding : ParameterEncoding) (f : FlowDefinition) (n : Node) : Stage → Prop
  | step {c : Component} {p : Processor} : n.kind ≠ .choice → s.components n.component = some c →
      s.factory (f.stepDescriptor encoding n c) = .ok p → Makes s encoding f n (.step p)
  | choice {c : ChoiceStage} : n.kind = .choice → f.ChoiceOf s.languages n c → Makes s encoding f n (.choice c)

end Surroundings

/-! From a node to its descriptor and on to its stage -/

section Node
variable {s : Surroundings} {encoding : ParameterEncoding} {f : FlowDefinition} {g : CompiledGraph} {n : Node}
  {d : NodeDefinition} {id : String} {w : WhenClause} {stage : Stage} {err : DeployError}

open FlowDefinition

theorem WhenClause.readable_iff {ls : PredicateLanguages} : w.Readable ls ↔
    ∃ c, StageSet.makeClause ls id (RouteDescriptors.ofBranch f.id (f.branchOf n w)) = .ok c := by
  simp only [makeClause_ok_iff_clause?]
  unfold clause? WhenClause.predicate? WhenClause.Readable
  cases ls.get? w.language with
  | none => simp
  | some l => cases hp : l.compile w.expression <;> simp [hp, Except.toOption]

theorem makeClause_unknown {ls : PredicateLanguages} (h : ls.get? w.language = none) :
    StageSet.makeClause ls id (RouteDescriptors.ofBranch f.id (f.branchOf n w)) =
      .error (.unknownLanguage (ls.nameFor w.language)) := by
  simp only [StageSet.makeClause, RouteDescriptors.ofBranch, branchOf, h]

theorem makeClause_unreadable {ls : PredicateLanguages} {l : PredicateLanguage} {cause : PredicateError}
    (hl : ls.get? w.language = some l) (hcause : l.compile w.expression = .error cause) :
    StageSet.makeClause ls id (RouteDescriptors.ofBranch f.id (f.branchOf n w)) = .error (.predicate id cause) := by
  simp only [StageSet.makeClause, RouteDescriptors.ofBranch, branchOf, hl, hcause]

theorem WhenClause.refused_iff {ls : PredicateLanguages} (hls : ls.Assembled) : w.Refused ls id err ↔
    StageSet.makeClause ls id (RouteDescriptors.ofBranch f.id (f.branchOf n w)) = .error err := by
  constructor
  · intro h
    cases h with
    | unknown hname hunknown =>
      have hget : ls.get? w.language = none := by rw [hname]; exact hunknown
      rw [makeClause_unknown hget, hname]
      rfl
    | unreadable hl hcause => exact makeClause_unreadable hl hcause
  · intro h
    cases hget : ls.get? w.language with
    | none =>
      rw [makeClause_unknown hget] at h
      cases h
      cases hname : w.language with
      | none =>
        -- the default language would be unknown
        obtain ⟨l, hl⟩ := hls.exists_default
        rw [hname] at hget
        cases hget.symm.trans hl
      | some name =>
        rw [hname] at hget
        exact .unknown hname hget
    | some l =>
      cases hcause : l.compile w.expression with
      | ok p =>
        obtain ⟨c, hc⟩ := readable_iff.1 ⟨l, p, hget, hcause⟩
        cases hc.symm.trans h
      | error cause =>
        rw [makeClause_unreadable hget hcause] at h
        cases h
        exact .unreadable hget hcause

variable (hd : Becomes s.components f n d)
include hd

theorem makes_iff : s.Makes encoding f n stage ↔ StageSet.makeStage s.factory s.languages
    (RouteDescriptors.ofDefinition encoding f.id (StageId.qualify f.id n.id) d) = .ok stage := by
  cases hd with
  | step hk hc =>
    refine Iff.trans ⟨?_, ?_⟩ StageSet.makeStage_step_ok_iff.symm
    · intro h
      cases h with
      | step _ hc' hp =>
        obtain rfl := Option.some.inj (hc.symm.trans hc')
        exact ⟨_, hp, rfl⟩
      | choice hchoice _ => exact absurd hchoice hk
    · rintro ⟨p, hp, rfl⟩
      exact .step hk hc hp
  | choice hk _ =>
    refine Iff.trans ⟨?_, ?_⟩ StageSet.makeStage_choice_ok_iff.symm
    · intro h
      cases h with
      | step hstep _ _ => exact absurd hk hstep
      | @choice c _ hof =>
        obtain ⟨id, clauses, otherwise⟩ := c
        obtain ⟨rfl, hclauses, rfl⟩ := hof
        refine ⟨clauses, ?_, rfl⟩
        rw [List.map_map, List.map_map]
        exact (map_ok_iff_map_some fun _ _ => makeClause_ok_iff_clause?).2 hclauses
    · rintro ⟨clauses, hclauses, rfl⟩
      rw [List.map_map, List.map_map] at hclauses
      exact .choice hk ⟨rfl, (map_ok_iff_map_some fun _ _ => makeClause_ok_iff_clause?).1 hclauses, rfl⟩

theorem accepts_iff : s.Accepts encoding f n ↔ ∃ stage, StageSet.makeStage s.factory s.languages
    (RouteDescriptors.ofDefinition encoding f.id (StageId.qualify f.id n.id) d) = .ok stage := by
  cases hd with
  | step hk hc =>
    constructor
    · intro h
      obtain ⟨p, hp⟩ := h.step hk _ hc
      exact ⟨_, StageSet.makeStage_step_ok_iff.2 ⟨p, hp, rfl⟩⟩
    · rintro ⟨stage, hstage⟩
      obtain ⟨p, hp, -⟩ := StageSet.makeStage_step_ok_iff.1 hstage
      refine ⟨fun _ c' hc' => ?_, fun hchoice => absurd hchoice hk⟩
      obtain rfl := Option.some.inj (hc.symm.trans hc')
      exact ⟨p, hp⟩
  | choice hk _ =>
    constructor
    · intro h
      have hwhens : ∀ w ∈ (n.whenClauses.map (f.branchOf n)).map (RouteDescriptors.ofBranch f.id),
          ∃ c, StageSet.makeClause s.languages (StageId.qualify f.id n.id) w = .ok c := by
        simp only [List.forall_mem_map]
        exact fun w hw => WhenClause.readable_iff.1 (h.choice hk w hw)
      obtain ⟨clauses, hclauses⟩ := exists_map_ok_iff.2 hwhens
      exact ⟨_, StageSet.makeStage_choice_ok_iff.2 ⟨clauses, hclauses, rfl⟩⟩
    · rintro ⟨stage, hstage⟩
      obtain ⟨clauses, hclauses, -⟩ := StageSet.makeStage_choice_ok_iff.1 hstage
      have hwhens := exists_map_ok_iff.1 ⟨clauses, hclauses⟩
      simp only [List.forall_mem_map] at hwhens
      exact ⟨fun hstep => absurd hk hstep, fun _ w hw => WhenClause.readable_iff.2 (hwhens w hw)⟩

theorem refuses_iff (hls : s.languages.Assembled) : s.Refuses encoding f n err ↔
    StageSet.makeStage s.factory s.languages
      (RouteDescriptors.ofDefinition encoding f.id (StageId.qualify f.id n.id) d) = .error err := by
  cases hd with
  | step hk hc =>
    refine Iff.trans ⟨?_, ?_⟩ StageSet.makeStage_step_error_iff.symm
    · intro h
      cases h with
      | step _ hc' hreason =>
        obtain rfl := Option.some.inj (hc.symm.trans hc')
        exact ⟨_, hreason, rfl⟩
      | choice hchoice _ _ _ => exact absurd hchoice hk
    · rintro ⟨reason, hreason, rfl⟩
      exact .step hk hc hreason
  | choice hk _ =>
    refine Iff.trans ?_ StageSet.makeStage_choice_error_iff.symm
    rw [List.map_map, List.mapM_map, mapM_eq_error_iff]
    constructor
    · intro h
      cases h with
      | step hstep _ _ => exact absurd hk hstep
      | choice _ hsplit hbefore hw =>
        exact ⟨_, _, _, hsplit, fun v hv => WhenClause.readable_iff.1 (hbefore v hv), (WhenClause.refused_iff hls).1 hw⟩
    · rintro ⟨before, w, after, hsplit, hbefore, hw⟩
      exact .choice hk hsplit (fun v hv => WhenClause.readable_iff.2 (hbefore v hv)) ((WhenClause.refused_iff hls).2 hw)

end Node

/-- Of items in order, the first is the one before which no other stands. -/
theorem exists_first_iff {α : Type} {xs : List (Nat × α)} (hxs : xs.Pairwise (fun a b => a.1 < b.1))
    {P Q : Nat × α → Prop} :
    (∃ before x after, xs = before ++ x :: after ∧ (∀ y ∈ before, P y) ∧ Q x) ↔
      ∃ x ∈ xs, Q x ∧ ∀ y ∈ xs, y.1 < x.1 → P y := by
  constructor
  · rintro ⟨before, x, after, rfl, hbefore, hx⟩
    refine ⟨x, by simp, hx, ?_⟩
    intro y hy hlt
    obtain ⟨-, hafter, -⟩ := List.pairwise_append.1 hxs
    rcases List.mem_append.1 hy with hy | hy
    · exact hbefore y hy
    · rcases List.mem_cons.1 hy with rfl | hy
      · omega
      · have hxy := (List.pairwise_cons.1 hafter).1 y hy
        omega
  · rintro ⟨x, hmem, hx, hall⟩
    obtain ⟨before, after, rfl⟩ := List.append_of_mem hmem
    obtain ⟨-, -, hbefore⟩ := List.pairwise_append.1 hxs
    refine ⟨before, x, after, rfl, ?_, hx⟩
    intro y hy
    exact hall y (List.mem_append_left _ hy) (hbefore y hy x List.mem_cons_self)

namespace FlowDefinition
variable {s : Surroundings} {encoding : ParameterEncoding} {f : FlowDefinition} {g : CompiledGraph}
  {set : StageSet} {stage : Stage} {err : DeployError} {id : String}

/-- The set has the stages of all nodes but the entry, each under the stage id of its node, and no others. -/
structure StagedBy (s : Surroundings) (encoding : ParameterEncoding) (f : FlowDefinition) (g : CompiledGraph)
    (set : StageSet) : Prop where
  flowId : set.flowId = f.id
  ids : set.ids.Perm ((f.nodes.eraseIdx g.entryNode).map (fun n => StageId.qualify f.id n.id))
  stages : ∀ i n, f.nodes[i]? = some n → i ≠ g.entryNode →
    ∃ stage, set.get? (StageId.qualify f.id n.id) = some stage ∧ s.Makes encoding f n stage
  entry : ∀ n, f.nodes[g.entryNode]? = some n → set.get? (StageId.qualify f.id n.id) = none

section Compiled
variable (hc : Compiled s.components f g)
include hc

theorem Compiled.sorted_defined : g.defined.Pairwise (fun a b => a.1 < b.1) := by
  have hsorted : (g.defined.map Prod.fst).Pairwise (· < ·) := by
    rw [hc.map_fst_defined]
    exact List.pairwise_lt_range.filter _
  exact List.pairwise_map.1 hsorted

theorem exists_materialize_iff_accepts :
    (∃ set, StageSet.materialize s.factory s.languages (RouteDescriptors.ofGraph encoding g) = .ok set) ↔
      ∀ i n, f.nodes[i]? = some n → i ≠ g.entryNode → s.Accepts encoding f n := by
  rw [StageSet.exists_materialize_iff hc, hc.flowId]
  constructor
  · intro h i n hn hi
    obtain ⟨d, hd, hdef⟩ := hc.exists_definition hn hi
    have hmade := h i d hdef
    rw [hc.qualified hn] at hmade
    exact (accepts_iff hd).2 hmade
  · intro h i d hdef
    obtain ⟨n, hn, hi, hd⟩ := hc.definition?_eq_some_iff.1 hdef
    rw [hc.qualified hn]
    exact (accepts_iff hd).1 (h i n hn hi)

/-- The first node that is refused is reported. -/
theorem materialize_eq_error_iff (hls : s.languages.Assembled) :
    StageSet.materialize s.factory s.languages (RouteDescriptors.ofGraph encoding g) = .error err ↔
      ∃ i n, f.nodes[i]? = some n ∧ i ≠ g.entryNode ∧ s.Refuses encoding f n err ∧
        ∀ k m, k < i → f.nodes[k]? = some m → k ≠ g.entryNode → s.Accepts encoding f m := by
  rw [StageSet.materialize, StageSet.addStages_eq_error_iff (hc.nodup_descriptor_ids encoding) fun _ _ => rfl,
    RouteDescriptors.ofGraph, List.mapM_map, mapM_eq_error_iff, exists_first_iff hc.sorted_defined]
  constructor
  · rintro ⟨⟨i, d⟩, hmem, herr, hbefore⟩
    obtain ⟨n, hn, hi, hd⟩ := hc.definition?_eq_some_iff.1 (hc.mem_defined.1 hmem)
    rw [Function.comp_apply, hc.flowId, hc.qualified hn] at herr
    refine ⟨i, n, hn, hi, (refuses_iff hd hls).2 herr, ?_⟩
    intro k m hlt hm hk
    obtain ⟨c, hbecomes, hdef⟩ := hc.exists_definition hm hk
    have hmade := hbefore (k, c) (hc.mem_defined.2 hdef) hlt
    rw [Function.comp_apply, hc.flowId, hc.qualified hm] at hmade
    exact (accepts_iff hbecomes).2 hmade
  · rintro ⟨i, n, hn, hi, hrefused, hbefore⟩
    obtain ⟨d, hd, hdef⟩ := hc.exists_definition hn hi
    refine ⟨(i, d), hc.mem_defined.2 hdef, ?_, ?_⟩
    · rw [Function.comp_apply, hc.flowId, hc.qualified hn]
      exact (refuses_iff hd hls).1 hrefused
    · rintro ⟨k, c⟩ hmem hlt
      obtain ⟨m, hm, hk, hbecomes⟩ := hc.definition?_eq_some_iff.1 (hc.mem_defined.1 hmem)
      rw [Function.comp_apply, hc.flowId, hc.qualified hm]
      exact (accepts_iff hbecomes).1 (hbefore k m hlt hm hk)

section Stages
variable (hs : StageSet.materialize s.factory s.languages (RouteDescriptors.ofGraph encoding g) = .ok set)
include hs

/-- What stands under a stage id is the stage of a node with this id that is not the entry. -/
theorem get?_iff_makes : set.get? id = some stage ↔ ∃ i n, f.nodes[i]? = some n ∧ i ≠ g.entryNode ∧
    id = StageId.qualify f.id n.id ∧ s.Makes encoding f n stage := by
  rw [stages_iff hc hs]
  constructor
  · rintro ⟨i, n, d, hn, hi, rfl, hd, hmade⟩
    rw [hc.qualified hn] at hmade ⊢
    exact ⟨i, n, hn, hi, rfl, (makes_iff hd).2 hmade⟩
  · rintro ⟨i, n, hn, hi, rfl, hmakes⟩
    obtain ⟨d, hd, -⟩ := hc.exists_definition hn hi
    exact ⟨i, n, d, hn, hi, (hc.qualified hn).symm, hd, (makes_iff hd).1 hmakes⟩

theorem exists_makes {i : Nat} {n : Node} (hn : f.nodes[i]? = some n) (hi : i ≠ g.entryNode) :
    ∃ stage, set.get? (StageId.qualify f.id n.id) = some stage ∧ s.Makes encoding f n stage := by
  have haccepts := (exists_materialize_iff_accepts hc).1 ⟨set, hs⟩ i n hn hi
  obtain ⟨d, hd, -⟩ := hc.exists_definition hn hi
  obtain ⟨stage, hmade⟩ := (accepts_iff hd).1 haccepts
  have hmakes := (makes_iff hd).2 hmade
  exact ⟨stage, (get?_iff_makes hc hs).2 ⟨i, n, hn, hi, rfl, hmakes⟩, hmakes⟩

theorem stagedBy : f.StagedBy s encoding g set := by
  refine ⟨(StageSet.flowId_addStages hs).trans hc.flowId, ?ids, fun i n hn hi => exists_makes hc hs hn hi, ?entry⟩
  case ids =>
    have hnodup : ((f.nodes.eraseIdx g.entryNode).map (fun n => StageId.qualify f.id n.id)).Nodup := by
      have hids : ((f.nodes.eraseIdx g.entryNode).map Node.id).Nodup :=
        hc.nodup.sublist ((List.eraseIdx_sublist _ _).map _)
      have hqualified := hids.map (StageId.qualify_injective f.id)
      rwa [List.map_map] at hqualified
    refine (List.perm_ext_iff_of_nodup set.stages.nodup_keys hnodup).2 ?_
    intro id
    simp only [List.mem_map, List.mem_eraseIdx_iff_getElem?]
    constructor
    · intro hid
      obtain ⟨stage, hstage⟩ := Dict.exists_of_mem_keys (List.mem_map.2 hid)
      obtain ⟨i, n, hn, hi, rfl, -⟩ := (get?_iff_makes hc hs).1 hstage
      exact ⟨n, ⟨i, hi, hn⟩, rfl⟩
    · rintro ⟨n, ⟨i, hi, hn⟩, rfl⟩
      obtain ⟨stage, hstage, -⟩ := exists_makes hc hs hn hi
      exact ⟨_, Dict.get?_eq_some_iff.1 hstage, rfl⟩
  case entry =>
    intro n hn
    rw [Option.eq_none_iff_forall_not_mem]
    intro stage hstage
    obtain ⟨i, m, hm, hi, hid, -⟩ := (get?_iff_makes hc hs).1 hstage
    exact hi (index_inj hc.nodup hm hn (StageId.qualify_injective f.id hid).symm)

end Stages
end Compiled

/-- A compiled flow gets its stages if and only if the host accepts all of its nodes but the entry, and then each
of them has the stage that was made for it. Otherwise the first node that is refused is reported, and nothing is
reported but that: no stage id is taken already, and a clause that names no language is never in an unknown one. -/
theorem materialize_first_refusal (s : Surroundings) (encoding : ParameterEncoding) (f : FlowDefinition)
    (g : CompiledGraph) (hg : f.compile s.components = .ok g) (hls : s.languages.Assembled) :
    let made := StageSet.materialize s.factory s.languages (RouteDescriptors.ofGraph encoding g)
    ((∃ set, made = .ok set) ↔
        ∀ i n, f.nodes[i]? = some n → i ≠ g.entryNode → s.Accepts encoding f n) ∧
      (∀ set, made = .ok set → f.StagedBy s encoding g set) ∧
      (∀ err, made = .error err ↔ ∃ i n, f.nodes[i]? = some n ∧ i ≠ g.entryNode ∧ s.Refuses encoding f n err ∧
        ∀ k m, k < i → f.nodes[k]? = some m → k ≠ g.entryNode → s.Accepts encoding f m) ∧
      (∀ id, made ≠ .error (.stageCollision id)) ∧
      (∀ name, made = .error (.unknownLanguage name) → ∃ n ∈ f.nodes, ∃ w ∈ n.whenClauses,
        w.language = some name ∧ s.languages.known.get? name = none) := by
  intro made
  have hc : Compiled s.components f g := compile_ok_iff.1 hg
  refine ⟨exists_materialize_iff_accepts hc, fun set hs => stagedBy hc hs,
    fun err => materialize_eq_error_iff hc hls, fun id => FlowHost.materialize_ne_collision hg, ?unknown⟩
  case unknown =>
    intro name hname
    obtain ⟨i, n, hn, -, hrefuses, -⟩ := (materialize_eq_error_iff hc hls).1 hname
    cases hrefuses with
    | choice _ hsplit _ hw =>
      cases hw with
      | unknown hlanguage hunknown =>
        refine ⟨n, List.mem_of_getElem? hn, _, ?_, hlanguage, hunknown⟩
        rw [hsplit]
        exact List.mem_append_right _ List.mem_cons_self

end FlowDefinition

namespace Mail

/-- The language of conditions is known as well, but clauses are read as bodies unless they say so. -/
def languages : PredicateLanguages :=
  { PredicateLanguages.new.register language with default := language.name }

theorem assembled : languages.Assembled := by
  have hdefault : (PredicateLanguages.new.register language).setDefault? "body" = some languages := rfl
  exact .setDefault (.register language .new) hdefault

def willing : Surroundings := ⟨host.components, host.factory, languages⟩

/-- A host that makes no step for one of the components. -/
def reluctant : Surroundings :=
  ⟨host.components, fun d => if d.component = "refuse" then .error "closed" else host.factory d, languages⟩

theorem reluctant_accepts {k : Nat} {n : Node} (hk : k < 3) (hn : flow.nodes[k]? = some n) (hentry : k ≠ 0) :
    reluctant.Accepts .percent flow n := by
  match k, hk, hentry with
  | 1, _, _ =>
    obtain rfl : sort = n := Option.some.inj hn
    exact ⟨fun h => absurd rfl h, fun _ => List.forall_mem_singleton.2 ⟨language, _, rfl, rfl⟩⟩
  | 2, _, _ =>
    obtain rfl := Option.some.inj hn
    refine ⟨fun _ c hc => ?_, fun h => nomatch h⟩
    obtain rfl := Option.some.inj hc
    exact ⟨_, rfl⟩

end Mail

namespace FlowDefinition

/-- The one host makes all stages; the other refuses the step that records, although it would make those before
and behind it. -/
theorem materialize_first_refusal_mail : Mail.languages.Assembled ∧
    ∃ g, Mail.flow.compile Mail.host.components = .ok g ∧
      (∃ set, StageSet.materialize Mail.willing.factory Mail.languages (RouteDescriptors.ofGraph .percent g) =
        .ok set ∧ Mail.flow.StagedBy Mail.willing .percent g set) ∧
      StageSet.materialize Mail.reluctant.factory Mail.languages (RouteDescriptors.ofGraph .percent g) =
        .error (.stepFactory "mail:record" "closed") := by
  refine ⟨Mail.assembled, _, rfl, ⟨_, rfl, ?_⟩, ?_⟩
  · obtain ⟨-, hstaged, -⟩ := materialize_first_refusal Mail.willing .percent Mail.flow _ rfl Mail.assembled
    exact hstaged _ rfl
  · obtain ⟨-, -, hrefused, -⟩ := materialize_first_refusal Mail.reluctant .percent Mail.flow _ rfl Mail.assembled
    refine (hrefused _).2 ⟨3, _, rfl, by decide, .step nofun rfl rfl, ?_⟩
    intro k m hk hm hne
    exact Mail.reluctant_accepts hk hm hne

end FlowDefinition
end MessageFlow
