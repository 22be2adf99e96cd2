import MessageFlow.Proofs.Invariant
import MessageFlow.Proofs.Merge
import MessageFlow.Proofs.Routing

/-!
No stage is missing from a deployed flow. Every node behind the entry has a stage of its kind, and whatever
follows a node, along its edges or by a choice match, is again such a node.
-/

namespace MessageFlow

/-- The kind of the nodes that a stage belongs to. -/
def Stage.kind : Stage → NodeKind
  | .step _ => .step
  | .choice _ => .choice

/-- Whether an event says that a stage is not there. -/
def Event.tellsMissing : Event → Bool
  | .missing _ | .failed (.missingStage _) => true
  | _ => false

/-- A declared node, not the entry, whose stage is registered and of its kind. -/
def FlowDefinition.Staged (f : FlowDefinition) (d : DeployedFlow) (i : Nat) : Prop :=
  i ≠ d.graph.entryNode ∧ ∃ n stage, f.nodes[i]? = some n ∧
    d.stages.get? (d.graph.qualified i) = some stage ∧ stage.kind = n.kind

namespace ChoiceStage
variable {c : ChoiceStage} {m : Message} {clauses : List ChoiceClause} {key : String}

theorem select_mem (h : select m clauses = .ok (some key)) : ∃ k ∈ clauses, k.key = key := by
  induction clauses with
  | nil => cases h
  | cons k rest ih =>
    rw [select] at h
    split at h
    · cases h
      exact ⟨k, List.mem_cons_self, rfl⟩
    · obtain ⟨found, hmem, hkey⟩ := ih h
      exact ⟨found, List.mem_cons_of_mem _ hmem, hkey⟩
    · cases h

/-- A choice leaves no choice match but that of one of its clauses, or the one for everything else. -/
theorem choiceMatch?_process (c : ChoiceStage) (m : Message) :
    (c.process m).1.choiceMatch? = none ∨ ∃ key, (c.process m).1.choiceMatch? = some key ∧
      ((∃ k ∈ c.clauses, k.key = key) ∨ c.otherwise = some key) := by
  unfold process
  dsimp only
  split
  · exact .inl Message.choiceMatch?_clearChoiceMatch
  · next selected hselect =>
    cases selected with
    | some key => exact .inr ⟨key, Message.choiceMatch?_setChoiceMatch, .inl (select_mem hselect)⟩
    | none =>
      cases ho : c.otherwise with
      | some key => exact .inr ⟨key, Message.choiceMatch?_setChoiceMatch, .inr rfl⟩
      | none => exact .inl Message.choiceMatch?_clearChoiceMatch

end ChoiceStage

namespace FlowDefinition
variable {components : ComponentLookup} {f : FlowDefinition} {g : CompiledGraph} {n : Node} {i : Nat}
  {ls : PredicateLanguages} {c : ChoiceStage} {m : Message} {stage : Stage}

/-- Only the entry is declared as one. -/
theorem Compiled.kind_ne_entry (h : Compiled components f g) (hn : f.nodes[i]? = some n)
    (hi : i ≠ g.entryNode) : n.kind ≠ .entry := by
  intro hk
  have hentry : g.node? n.id = some g.entryNode := h.entryKind n (List.mem_of_getElem? hn) hk
  have hnode : g.node? n.id = some i := h.node?_eq_some_iff.2 (by rw [hn, Option.map_some])
  rw [hnode, Option.some.injEq] at hentry
  exact hi hentry

theorem StageOf.kind_eq (h : StageOf ls f n stage) (hk : n.kind ≠ .entry) : stage.kind = n.kind := by
  cases h with
  | step _ hstep =>
    cases hn : n.kind with
    | entry => exact absurd hn hk
    | step => rfl
    | choice => exact absurd hn hstep
  | choice _ hchoice _ => exact hchoice.symm

/-- The choice match that a choice leaves is that of the targets of a label, if there is one. -/
theorem ChoiceOf.choiceMatch?_process (h : ChoiceOf ls f n c) (m : Message) :
    (c.process m).1.choiceMatch? = none ∨ ∃ label, (c.process m).1.choiceMatch? =
      some (StageId.joinQualified f.id (branchTargets f.edges n.id label)) := by
  obtain hnone | ⟨key, hmatch, ⟨k, hk, rfl⟩ | hother⟩ := c.choiceMatch?_process m
  · exact .inl hnone
  · have hmem : some k ∈ n.whenClauses.map (clause? ls f n) := h.clauses ▸ List.mem_map_of_mem hk
    obtain ⟨w, -, hw⟩ := List.mem_map.1 hmem
    obtain ⟨test, -, rfl⟩ := clause?_eq_some_iff.1 hw
    exact .inr ⟨w.label, hmatch⟩
  · obtain ⟨label, -, hlabel⟩ | ⟨hnone, -⟩ := h.otherwise_cases
    · rw [hother, Option.some.injEq] at hlabel
      exact .inr ⟨label, hlabel ▸ hmatch⟩
    · rw [hother] at hnone
      cases hnone

end FlowDefinition

namespace FlowHost
variable {h : FlowHost} {f : FlowDefinition} {d : DeployedFlow} {options : EngineOptions} {n : Node}
  {i j : Nat} {id : String} {c : ChoiceStage} {m q : Message}

section Staged
variable (hd : h.prepare f = .ok d)
include hd

/-- Every declared node but the entry has its stage. -/
theorem staged_of_ne_entry (hn : f.nodes[i]? = some n) (hi : i ≠ d.graph.entryNode) : f.Staged d i := by
  obtain ⟨hc, hm⟩ := prepare_ok hd
  obtain ⟨stage, hs, hof⟩ := FlowDefinition.stage_of_node hc hm hn hi
  exact ⟨hi, n, stage, hn, hs, hof.kind_eq (hc.kind_ne_entry hn hi)⟩

/-- Along an edge there comes a node with a stage. -/
theorem staged_of_mem_successors (hi : i ∈ d.graph.successors j) : f.Staged d i := by
  obtain ⟨hc, -⟩ := prepare_ok hd
  obtain ⟨edge, -, -, ht⟩ := hc.mem_successors.1 hi
  obtain ⟨n, hn, -⟩ := Option.map_eq_some_iff.1 (hc.node?_eq_some_iff.1 ht)
  refine staged_of_ne_entry hd hn ?_
  rintro rfl
  exact hc.entry_not_successor j hi

/-- Whatever a choice of the flow leaves on a message resolves to nodes with stages. -/
theorem resolve_process (hs : d.stages.get? id = some (.choice c)) (m : Message) :
    ∃ js : List Nat, (c.process m).1.choiceTargets.map d.graph.resolve? = js.map some ∧
      ∀ j ∈ js, f.Staged d j := by
  obtain ⟨hc, hm⟩ := prepare_ok hd
  obtain ⟨i, n, -, -, -, hof⟩ := FlowDefinition.node_of_stage hc hm hs
  cases hof with
  | choice _ _ hof =>
    obtain hnone | ⟨label, hmatch⟩ := hof.choiceMatch?_process m
    · exact ⟨[], by simp [Message.choiceTargets, hnone], by simp⟩
    · obtain ⟨js, hjs, hleads, hne⟩ := hc.resolve_choiceTargets hmatch
      refine ⟨js, hjs, fun j hj => ?_⟩
      obtain ⟨target, ht⟩ := hleads.declared hj
      exact staged_of_ne_entry hd ht (hne j hj)

/-- After a choice only nodes with stages follow, and no target is noted as unknown. -/
theorem choiceSuccessors_process (options : EngineOptions) (hs : d.stages.get? id = some (.choice c))
    (m : Message) :
    (∀ j ∈ (d.engine options).choiceSuccessors (c.process m).1, f.Staged d j) ∧
      (d.engine options).noteUnknownTarget (c.process m).1 = (c.process m).1 := by
  obtain ⟨js, hjs, hstaged⟩ := resolve_process hd hs m
  obtain ⟨hsucc, hnote⟩ := Engine.choiceSuccessors_of_resolved (e := d.engine options) hjs
  refine ⟨fun j hj => ?_, hnote⟩
  rw [hsucc, List.mem_eraseDups] at hj
  exact hstaged j hj

/-- When a choice has decided, the message goes on with the failure that it came with. -/
theorem error_noteUnknownTarget (options : EngineOptions) (hs : d.stages.get? id = some (.choice c))
    (hp : c.process m = (q, none)) : ((d.engine options).noteUnknownTarget q).error = m.error := by
  have hnote := (choiceSuccessors_process hd options hs m).2
  rw [hp] at hnote
  rw [hnote]
  exact ChoiceStage.error_of_process hp

/-- From a node the paths go on to nodes with stages, by its edges or by its choice. -/
theorem closed_staged : (d.engine options).Closed (f.Staged d) where
  entry _ hj := staged_of_mem_successors hd hj
  next {node p js q} _ h := by
    cases h with
    | stepPasses _ _ => exact fun j hj => staged_of_mem_successors hd hj
    | choicePasses hs hp =>
      have hm := congrArg Prod.fst hp
      subst hm
      exact (choiceSuccessors_process hd options hs p.message).1

theorem inductive_events : (d.engine options).Inductive (f.Staged d)
    (fun p => ∀ event ∈ p.events, event.tellsMissing = false) where
  toClosed := closed_staged hd
  spend hp := hp
  invoke {node p _ _} hn hp h := by
    obtain ⟨-, n, stage, -, hs, -⟩ := hn
    cases h with
    | missing hnone => exact absurd (hnone.symm.trans hs) (by simp)
    | stepPasses _ _ | choicePasses _ _ => exact List.forall_mem_cons.2 ⟨rfl, hp⟩
    | stepFails _ _ | choiceFails _ _ =>
      exact List.forall_mem_cons.2 ⟨rfl, List.forall_mem_cons.2 ⟨rfl, hp⟩⟩
  hopLimit hp := List.forall_mem_cons.2 ⟨rfl, hp⟩
  visitBudget hp := List.forall_mem_cons.2 ⟨rfl, hp⟩
  fanOutDepth hp := List.forall_mem_cons.2 ⟨rfl, hp⟩
  enter _ hq := by rwa [Engine.events_enterBranch]
  leave _ _ hq := by rwa [Engine.events_leaveFanOut]
  signal hp := List.forall_mem_cons.2 ⟨rfl, hp⟩

theorem inductive_error
    (hkeep : ∀ stageId s, d.stages.get? stageId = some (.step s) → ∀ m,
      m.error ≠ some (.missingStage id) → (s.process m).1.error ≠ some (.missingStage id)) :
    (d.engine options).Inductive (f.Staged d) (fun p => p.message.error ≠ some (.missingStage id)) where
  toClosed := closed_staged hd
  spend hp := hp
  invoke {node p _ _} hn hp h := by
    obtain ⟨-, n, stage, -, hs, -⟩ := hn
    cases h with
    | missing hnone => exact absurd (hnone.symm.trans hs) (by simp)
    | stepPasses hs hq =>
      have hm := hkeep _ _ hs _ hp
      rw [hq] at hm
      exact hm
    | choicePasses hs hq =>
      show ((d.engine options).noteUnknownTarget _).error ≠ _
      rw [error_noteUnknownTarget hd options hs hq]
      exact hp
    | stepFails _ _ | choiceFails _ _ => simp [Progress.fail, Message.setError]
  hopLimit _ := by simp [Progress.fail, Message.setError]
  visitBudget _ := by simp [Progress.fail, Message.setError]
  fanOutDepth _ := by simp [Progress.fail, Message.setError]
  enter {p q} hp hq := by
    cases hs : (d.engine options).options.isolation with
    | shared => simpa [Engine.enterBranch, hs] using hq
    | snapshot => simpa [Engine.enterBranch, hs] using hp
  leave {p q copies} hp hcopies hq := by
    cases hs : (d.engine options).options.isolation with
    | shared => simpa [Engine.leaveFanOut, hs] using hq
    | snapshot =>
      have herror : (p.message.joinCopies copies).error ≠ some (.missingStage id) := by
        rw [Message.error_joinCopies]
        obtain hbase | hmem := latestChange_mem p.message.error (copies.map (·.error))
        · rw [hbase]
          exact hp
        · obtain ⟨c, hc, hce⟩ := List.mem_map.1 hmem
          obtain ⟨r, hr, rfl⟩ := hcopies c hc
          rw [← hce]
          exact hr
      simpa [Engine.leaveFanOut, hs] using herror
  signal hp := hp

end Staged

/-- No stage is ever missing when a deployed flow runs. All nodes that its paths reach have a stage of their
kind, and none is the entry; no event tells of a missing stage; all that a choice leaves in the choice match
resolves to such nodes, so that there is nothing to note; and a message that says at the end that a stage is
missing either came with this or has it from a step. -/
theorem execute_finds_stages (h : FlowHost) (f : FlowDefinition) (d : DeployedFlow) (options : EngineOptions)
    (m : Message) (hd : h.prepare f = .ok d) :
    let e := d.engine options
    (∃ paths, e.Executes m paths (e.execute m)) ∧
      (∀ paths outcome, e.Executes m paths outcome → ∀ i ∈ PathTree.reachedEach paths, f.Staged d i) ∧
      (∀ event ∈ (e.execute m).events, event.tellsMissing = false) ∧
      (∀ id c n, d.stages.get? id = some (.choice c) →
        (∀ target ∈ (c.process n).1.choiceTargets, ∃ j, d.graph.resolve? target = some j ∧ f.Staged d j) ∧
        e.noteUnknownTarget (c.process n).1 = (c.process n).1) ∧
      (∀ id, (e.execute m).message.error = some (.missingStage id) →
        m.error = some (.missingStage id) ∨ ∃ stageId s n, d.stages.get? stageId = some (.step s) ∧
          n.error ≠ some (.missingStage id) ∧ (s.process n).1.error = some (.missingStage id)) := by
  intro e
  obtain ⟨paths, outcome, hx⟩ := e.exists_executes m
  have hout := hx.eq_execute
  refine ⟨⟨paths, hout ▸ hx⟩, ?reached, ?events, ?targets, ?provenance⟩
  case reached =>
    intro paths outcome hx
    exact (hx.keeps (inductive_events hd) (by simp [Engine.start])).2
  case events =>
    obtain ⟨⟨p, completion, hp, hpo⟩, -⟩ := hx.keeps (inductive_events hd) (by simp [Engine.start])
    rw [← hout, hpo]
    exact fun event hev => hp event (List.mem_reverse.1 hev)
  case targets =>
    intro id c n hs
    refine ⟨fun target ht => ?_, (choiceSuccessors_process hd options hs n).2⟩
    obtain ⟨js, hjs, hstaged⟩ := resolve_process hd hs n
    have hmem : d.graph.resolve? target ∈ js.map some := hjs ▸ List.mem_map_of_mem ht
    obtain ⟨j, hj, hresolve⟩ := List.mem_map.1 hmem
    exact ⟨j, hresolve.symm, hstaged j hj⟩
  case provenance =>
    intro id herror
    false_or_by_contra
    next hnot =>
    rw [not_or] at hnot
    have hkeep : ∀ stageId s, d.stages.get? stageId = some (.step s) → ∀ n : Message,
        n.error ≠ some (.missingStage id) → (s.process n).1.error ≠ some (.missingStage id) :=
      fun stageId s hs n hn he => hnot.2 ⟨stageId, s, n, hs, hn, he⟩
    obtain ⟨⟨p, completion, hp, hpo⟩, -⟩ := hx.keeps (inductive_error hd hkeep) hnot.1
    rw [← hout, hpo] at herror
    exact hp herror

theorem execute_finds_stages_express :
    ∃ d, Mail.host.prepare Mail.flow = .ok d ∧
      (∀ event ∈ ((d.engine { isolation := .snapshot }).execute Mail.express).events,
        event.tellsMissing = false) ∧
      (∀ paths outcome, (d.engine { isolation := .snapshot }).Executes Mail.express paths outcome →
        ∀ i ∈ PathTree.reachedEach paths, Mail.flow.Staged d i) := by
  obtain ⟨d, hd, -⟩ := Mail.prepared
  obtain ⟨-, hreached, hevents, -⟩ :=
    execute_finds_stages Mail.host Mail.flow d { isolation := .snapshot } Mail.express hd
  exact ⟨d, hd, hevents, hreached⟩

end FlowHost
end MessageFlow
