import MessageFlow.Proofs.Identifier
import MessageFlow.Proofs.Materialized
import MessageFlow.Proofs.Selection

/-!
Where choices lead. A choice match made of targets of edges is read back as just these targets, so the paths
go on from a choice along the edges with the label that its clauses select, and along no others.
-/

namespace MessageFlow

/-- What a clause says to a message, if its text can be read as a test. -/
def WhenClause.answer? (ls : PredicateLanguages) (m : Message) (w : WhenClause) :
    Option (Except PredicateError Bool) :=
  (w.predicate? ls).map (fun test => test m)

namespace FlowDefinition
variable {components : ComponentLookup} {f : FlowDefinition} {g : CompiledGraph} {n : Node} {i j : Nat}
  {m : Message} {targets : List String} {label : String} {ls : PredicateLanguages} {c : ChoiceStage}

/-- These are, in their order, the nodes that the edges of a node with a label lead to, each once. -/
def LeadsTo (f : FlowDefinition) (n : Node) (label : String) (js : List Nat) : Prop :=
  js.map (fun j => (f.nodes[j]?).map Node.id) =
    ((f.edges.filter (fun e => e.source = n.id ∧ e.label = some label)).map Edge.target).eraseDups.map some

theorem LeadsTo.nodup {js : List Nat} (h : f.LeadsTo n label js) : js.Nodup := by
  have htargets : ((branchTargets f.edges n.id label).map some).Nodup := by
    refine List.pairwise_map.2 ((nodup_eraseDups _).imp ?_)
    intro a b hab heq
    exact hab (Option.some.inj heq)
  have hids : js.map (fun j => (f.nodes[j]?).map Node.id) = (branchTargets f.edges n.id label).map some := h
  rw [← hids] at htargets
  refine (List.pairwise_map.1 htargets).imp ?_
  intro a b hab heq
  exact hab (by rw [heq])

theorem LeadsTo.declared {js : List Nat} (h : f.LeadsTo n label js) (hj : j ∈ js) :
    ∃ target, f.nodes[j]? = some target := by
  have hmem : (f.nodes[j]?).map Node.id ∈ js.map (fun j => (f.nodes[j]?).map Node.id) :=
    List.mem_map_of_mem hj
  rw [h] at hmem
  obtain ⟨id, -, hid⟩ := List.mem_map.1 hmem
  obtain ⟨target, ht, -⟩ := Option.map_eq_some_iff.1 hid.symm
  exact ⟨target, ht⟩

theorem exists_edge_of_branchTargets :
    ∀ id ∈ branchTargets f.edges n.id label, ∃ edge ∈ f.edges, edge.target = id := by
  intro id h
  rw [branchTargets, List.mem_eraseDups] at h
  obtain ⟨edge, hedge, rfl⟩ := List.mem_map.1 h
  exact ⟨edge, (List.mem_filter.1 hedge).1, rfl⟩

namespace Compiled

/-- What an edge leads to is declared, is fit to be joined, and is not the entry. -/
theorem target (h : Compiled components f g) {edge : Edge} (he : edge ∈ f.edges) :
    Admitted edge.target ∧ ∃ j, g.node? edge.target = some j ∧ j ≠ g.entryNode := by
  obtain ⟨i, j, hfits⟩ := h.fits edge he
  obtain ⟨hs, ht⟩ := h.ends_iff.1 hfits.toEnds
  constructor
  · obtain ⟨n, hn, hid⟩ := Option.map_eq_some_iff.1 (h.node?_eq_some_iff.1 ht)
    exact hid ▸ h.nodes n (List.mem_of_getElem? hn)
  · refine ⟨j, ht, ?_⟩
    rintro rfl
    exact h.entry_not_successor i (h.mem_successors.2 ⟨edge, he, hs, ht⟩)

/-- All targets of edges have numbers, none of them that of the entry. -/
theorem exists_nodes (h : Compiled components f g) (ht : ∀ id ∈ targets, ∃ edge ∈ f.edges, edge.target = id) :
    ∃ js : List Nat, targets.map g.node? = js.map some ∧ ∀ j ∈ js, j ≠ g.entryNode := by
  induction targets with
  | nil => exact ⟨[], rfl, by simp⟩
  | cons id rest ih =>
    obtain ⟨hhead, hrest⟩ := List.forall_mem_cons.1 ht
    obtain ⟨js, hjs, hne⟩ := ih hrest
    obtain ⟨edge, hedge, rfl⟩ := hhead
    obtain ⟨-, j, hj, hjne⟩ := h.target hedge
    refine ⟨j :: js, ?_, List.forall_mem_cons.2 ⟨hjne, hne⟩⟩
    rw [List.map_cons, List.map_cons, hj, hjs]

/-- The numbers of nodes lead back to their ids. -/
theorem ids_of_nodes (h : Compiled components f g) {js : List Nat} (hjs : targets.map g.node? = js.map some) :
    js.map (fun j => (f.nodes[j]?).map Node.id) = targets.map some := by
  induction targets generalizing js with
  | nil =>
    cases js with
    | nil => rfl
    | cons j js => cases hjs
  | cons id rest ih =>
    cases js with
    | nil => cases hjs
    | cons j js =>
      rw [List.map_cons, List.map_cons, List.cons.injEq] at hjs ⊢
      exact ⟨h.node?_eq_some_iff.1 hjs.1, ih hjs.2⟩

/-- A choice match made of the targets of a label resolves to these targets, in their order. -/
theorem resolve_choiceTargets (h : Compiled components f g)
    (hm : m.choiceMatch? = some (StageId.joinQualified f.id (branchTargets f.edges n.id label))) :
    ∃ js, m.choiceTargets.map g.resolve? = js.map some ∧ f.LeadsTo n label js ∧
      ∀ j ∈ js, j ≠ g.entryNode := by
  have ht : ∀ id ∈ branchTargets f.edges n.id label, ∃ edge ∈ f.edges, edge.target = id :=
    exists_edge_of_branchTargets
  have hadmitted (id : String) (hid : id ∈ branchTargets f.edges n.id label) : Admitted id := by
    obtain ⟨edge, hedge, rfl⟩ := ht id hid
    exact (h.target hedge).1
  have hflow : Admitted g.flowId := h.flowId ▸ h.flow
  have hresolve : m.choiceTargets.map g.resolve? = (branchTargets f.edges n.id label).map g.node? := by
    rw [StageId.choiceTargets_joinQualified h.flow hadmitted hm, List.map_map]
    apply List.map_congr_left
    intro id _
    rw [Function.comp_apply, ← h.flowId, CompiledGraph.resolve?_qualify hflow]
  obtain ⟨js, hjs, hne⟩ := h.exists_nodes ht
  exact ⟨js, hresolve.trans hjs, h.ids_of_nodes hjs, hne⟩

end Compiled

theorem clause?_eq_some_iff {w : WhenClause} {k : ChoiceClause} : clause? ls f n w = some k ↔
    ∃ test, w.predicate? ls = some test ∧
      ⟨StageId.joinQualified f.id (branchTargets f.edges n.id w.label), w.label, test⟩ = k :=
  Option.map_eq_some_iff

/-- The clauses made from others that do not hold do not hold. -/
theorem predicates_of_answers {ws : List WhenClause} {ks : List ChoiceClause}
    (hks : ws.map (clause? ls f n) = ks.map some)
    (hfalse : ∀ w ∈ ws, w.answer? ls m = some (.ok false)) : ∀ k ∈ ks, k.predicate m = .ok false := by
  intro k hk
  have hmem : some k ∈ ws.map (clause? ls f n) := hks ▸ List.mem_map_of_mem hk
  obtain ⟨w, hw, hclause⟩ := List.mem_map.1 hmem
  obtain ⟨test, htest, rfl⟩ := clause?_eq_some_iff.1 hclause
  simpa [WhenClause.answer?, htest] using hfalse w hw

namespace ChoiceOf

/-- The first clause of the node that does not deny is the clause of the choice that decides. -/
theorem exists_decidedBy (hc : ChoiceOf ls f n c) {before after : List WhenClause} {w : WhenClause}
    {answer : Except PredicateError Bool} (hw : n.whenClauses = before ++ w :: after)
    (hfalse : ∀ v ∈ before, v.answer? ls m = some (.ok false)) (hanswer : w.answer? ls m = some answer)
    (hne : answer ≠ .ok false) :
    ∃ passed k rest, ChoiceStage.DecidedBy m c.clauses passed k rest ∧ k.predicate m = answer ∧
      k.key = StageId.joinQualified f.id (branchTargets f.edges n.id w.label) ∧ k.label = w.label := by
  have hclauses := hc.clauses
  rw [hw, List.map_append, List.map_cons] at hclauses
  obtain ⟨passed, others, hsplit, hpassed, hothers⟩ := List.map_eq_append_iff.1 hclauses.symm
  obtain ⟨k, rest, rfl, hk, -⟩ := List.map_eq_cons_iff.1 hothers
  obtain ⟨test, htest, rfl⟩ := clause?_eq_some_iff.1 hk.symm
  have hpredicate : test m = answer := by simpa [WhenClause.answer?, htest] using hanswer
  have hdecides : test m ≠ .ok false := hpredicate ▸ hne
  exact ⟨passed, _, rest, ⟨hsplit, predicates_of_answers hpassed.symm hfalse, hdecides⟩, hpredicate, rfl, rfl⟩

theorem process_holds (hc : ChoiceOf ls f n c) {before after : List WhenClause} {w : WhenClause}
    (hw : n.whenClauses = before ++ w :: after)
    (hfalse : ∀ v ∈ before, v.answer? ls m.clearChoiceMatch = some (.ok false))
    (htrue : w.answer? ls m.clearChoiceMatch = some (.ok true)) :
    c.process m = (m.clearChoiceMatch.setChoiceMatch
      (StageId.joinQualified f.id (branchTargets f.edges n.id w.label)), none) := by
  obtain ⟨passed, k, rest, hdecided, hyes, hkey, -⟩ := hc.exists_decidedBy hw hfalse htrue (by simp)
  simp only [ChoiceStage.process, hdecided.select_of_holds hyes, hkey, Option.some_or]

theorem process_undecided (hc : ChoiceOf ls f n c) {before after : List WhenClause} {w : WhenClause}
    {cause : PredicateError} (hw : n.whenClauses = before ++ w :: after)
    (hfalse : ∀ v ∈ before, v.answer? ls m.clearChoiceMatch = some (.ok false))
    (herror : w.answer? ls m.clearChoiceMatch = some (.error cause)) :
    c.process m = (m.clearChoiceMatch.setError (.predicate c.id w.label cause),
      some (.predicate c.id w.label cause)) := by
  obtain ⟨passed, k, rest, hdecided, hfails, -, hlabel⟩ := hc.exists_decidedBy hw hfalse herror (by simp)
  simp only [ChoiceStage.process, hdecided.select_of_fails hfails, hlabel]

/-- The match for everything else is that of the targets of its label, and there is none without them. -/
theorem otherwise_cases (hc : ChoiceOf ls f n c) :
    (∃ label, n.otherwiseLabel = some label ∧
      c.otherwise = some (StageId.joinQualified f.id (branchTargets f.edges n.id label))) ∨
    c.otherwise = none ∧ ∀ label, n.otherwiseLabel = some label → branchTargets f.edges n.id label = [] := by
  rw [hc.otherwise]
  cases hlabel : n.otherwiseLabel with
  | none => exact .inr ⟨rfl, by simp⟩
  | some label =>
    cases ht : branchTargets f.edges n.id label with
    | nil => exact .inr ⟨by simp [branchTargets?, ht], by simp [ht]⟩
    | cons id rest => exact .inl ⟨label, rfl, by simp [branchTargets?, ht]⟩

theorem process_otherwise (hc : ChoiceOf ls f n c)
    (hfalse : ∀ v ∈ n.whenClauses, v.answer? ls m.clearChoiceMatch = some (.ok false)) :
    c.process m = ((c.otherwise.map m.clearChoiceMatch.setChoiceMatch).getD m.clearChoiceMatch, none) := by
  have hselect := ChoiceStage.select_eq_none (predicates_of_answers hc.clauses hfalse)
  simp only [ChoiceStage.process, hselect, Option.none_or]
  cases c.otherwise <;> rfl

end ChoiceOf
end FlowDefinition

namespace Engine
variable {components : ComponentLookup} {f : FlowDefinition} {n : Node} {i : Nat} {e : Engine}
  {p : Progress} {m : Message} {label : String} {c : ChoiceStage}

/-- When all ids of a choice match name nodes, these follow, each once, and there is nothing to note. -/
theorem choiceSuccessors_of_resolved {js : List Nat}
    (h : m.choiceTargets.map e.graph.resolve? = js.map some) :
    e.choiceSuccessors m = js.eraseDups ∧ e.noteUnknownTarget m = m := by
  constructor
  · have hid : m.choiceTargets.filterMap e.graph.resolve? =
        (m.choiceTargets.map e.graph.resolve?).filterMap id := by
      rw [List.filterMap_map, Function.id_comp]
    rw [choiceSuccessors, hid, h, List.filterMap_map, Function.id_comp, List.filterMap_some]
  · have hnone : e.unknownTarget? m = none := by
      rw [unknownTarget?, List.find?_eq_none]
      intro id hid
      rw [List.mem_reverse] at hid
      have hmem : e.graph.resolve? id ∈ js.map some := h ▸ List.mem_map_of_mem hid
      obtain ⟨j, -, hj⟩ := List.mem_map.1 hmem
      simp [← hj]
    rw [noteUnknownTarget, hnone]

theorem choiceSuccessors_of_no_match (h : m.choiceMatch? = none) : e.choiceSuccessors m = [] := by
  simp [choiceSuccessors, Message.choiceTargets, h]

/-- Behind a choice match made of a label's targets come just these targets. -/
theorem leadsTo_choiceSuccessors (hc : FlowDefinition.Compiled components f e.graph)
    (hm : m.choiceMatch? =
      some (StageId.joinQualified f.id (FlowDefinition.branchTargets f.edges n.id label))) :
    f.LeadsTo n label (e.choiceSuccessors m) := by
  obtain ⟨js, hjs, hleads, -⟩ := hc.resolve_choiceTargets hm
  rw [(choiceSuccessors_of_resolved hjs).1, eraseDups_eq_self hleads.nodup]
  exact hleads

theorem invoke_choice (hs : e.stages.get? (e.graph.qualified i) = some (.choice c))
    (hp : c.process p.message = (m, none)) : (e.invoke i p).1 = some (e.choiceSuccessors m) := by
  simp [invoke, hs, hp]

theorem invoke_choice_failed {failure : ExchangeError}
    (hs : e.stages.get? (e.graph.qualified i) = some (.choice c))
    (hp : c.process p.message = (m, some failure)) :
    (e.invoke i p).1 = none ∧ (e.invoke i p).2.message.error = some failure := by
  simp [invoke, hs, hp, Progress.fail, Progress.record, Message.setError]

/-- A choice of a deployed flow decides by its clauses, in their order, on the message without an earlier
choice match. Each clause can say something. The first that holds, with none before it undecided, sends the
message along the edges with its label; one that cannot be decided ends the path in failure; and when none
holds, the edges with the label for everything else are taken, if there are any. -/
theorem choice_follows_label (h : FlowHost) (f : FlowDefinition) (d : DeployedFlow) (options : EngineOptions)
    (n : Node) (i : Nat) (p : Progress) (hd : h.prepare f = .ok d) (hn : f.nodes[i]? = some n)
    (hk : n.kind = .choice) (hi : i ≠ d.graph.entryNode) :
    let answer (w : WhenClause) := w.answer? h.languages p.message.clearChoiceMatch
    let next := ((d.engine options).invoke i p).1
    (∀ w ∈ n.whenClauses, (answer w).isSome) ∧
      (∀ before w after, n.whenClauses = before ++ w :: after → (∀ v ∈ before, answer v = some (.ok false)) →
        (answer w = some (.ok true) → ∃ js, next = some js ∧ f.LeadsTo n w.label js) ∧
        (∀ cause, answer w = some (.error cause) → next = none ∧
          ((d.engine options).invoke i p).2.message.error =
            some (.predicate (StageId.qualify f.id n.id) w.label cause))) ∧
      ((∀ w ∈ n.whenClauses, answer w = some (.ok false)) → ∃ js, next = some js ∧
        match n.otherwiseLabel with
        | some label => f.LeadsTo n label js
        | none => js = []) := by
  intro answer next
  obtain ⟨hc, hm⟩ := FlowHost.prepare_ok hd
  obtain ⟨stage, hstage, hof⟩ := FlowDefinition.stage_of_node hc hm hn hi
  cases hof with
  | step _ hstep => exact absurd hk hstep
  | choice c _ hof =>
    have hs : (d.engine options).stages.get? ((d.engine options).graph.qualified i) = some (.choice c) :=
      hstage
    refine ⟨fun w hw => ?answer,
      fun before w after hsplit hfalse => ⟨fun htrue => ?holds, fun cause herror => ?fails⟩,
      fun hfalse => ?otherwise⟩
    case answer =>
      have hmem : FlowDefinition.clause? h.languages f n w ∈ c.clauses.map some :=
        hof.clauses ▸ List.mem_map_of_mem hw
      obtain ⟨k, -, hk⟩ := List.mem_map.1 hmem
      obtain ⟨test, htest, -⟩ := FlowDefinition.clause?_eq_some_iff.1 hk.symm
      simp [answer, WhenClause.answer?, htest]
    case holds =>
      have hp := hof.process_holds hsplit hfalse htrue
      exact ⟨_, invoke_choice hs hp,
        leadsTo_choiceSuccessors hc Message.choiceMatch?_setChoiceMatch⟩
    case fails =>
      have hp := hof.process_undecided hsplit hfalse herror
      rw [hof.id] at hp
      exact invoke_choice_failed hs hp
    case otherwise =>
      have hp := hof.process_otherwise hfalse
      obtain ⟨label, hlabel, hother⟩ | ⟨hother, hlabel⟩ := hof.otherwise_cases
      · rw [hother] at hp
        refine ⟨_, invoke_choice hs hp, ?_⟩
        rw [hlabel]
        exact leadsTo_choiceSuccessors hc Message.choiceMatch?_setChoiceMatch
      · -- The label has no edges, or there is no label: no choice match is left, and nothing follows.
        rw [hother] at hp
        refine ⟨[], ?_, ?_⟩
        · rw [← choiceSuccessors_of_no_match (Message.choiceMatch?_clearChoiceMatch (m := p.message))]
          exact invoke_choice hs hp
        · split
          · next label hl =>
            show [] = (FlowDefinition.branchTargets f.edges n.id label).map some
            rw [hlabel label hl, List.map_nil]
          · rfl

theorem choice_follows_label_express :
    ∃ d, Mail.host.prepare Mail.flow = .ok d ∧ Mail.flow.nodes[1]? = some Mail.sort ∧
      Mail.sort.kind = .choice ∧ 1 ≠ d.graph.entryNode ∧
      ∃ js, ((d.engine {}).invoke 1 ⟨Mail.express, 10, []⟩).1 = some js ∧
        js.map (fun j => (Mail.flow.nodes[j]?).map Node.id) = [some "record", some "deliver"] := by
  obtain ⟨d, hd, hentry, -⟩ := Mail.prepared
  have hi : 1 ≠ d.graph.entryNode := by
    rw [hentry]
    decide
  obtain ⟨-, hclauses, -⟩ :=
    choice_follows_label Mail.host Mail.flow d {} Mail.sort 1 ⟨Mail.express, 10, []⟩ hd rfl rfl hi
  obtain ⟨js, hnext, hleads⟩ := (hclauses [] ⟨"urgent", "express", none⟩ [] rfl (by simp)).1 rfl
  exact ⟨d, hd, rfl, rfl, hi, js, hnext, hleads⟩

end Engine
end MessageFlow
