import MessageFlow.Proofs.Simulation

/-!
Stages that take no notice of messages. Where every step succeeds or fails whatever the message, and every
predicate has one answer, it makes no difference whether the branches of a fan-out share the message: both
isolations walk the same paths, through the same limits.
-/

namespace MessageFlow

/-- Whether a step succeeds, and what a predicate returns, is the same for every message. -/
structure StageSet.Oblivious (s : StageSet) : Prop where
  step : ∀ {id p}, s.get? id = some (.step p) → ∀ m n, (p.process m).2.isSome = (p.process n).2.isSome
  choice : ∀ {id c}, s.get? id = some (.choice c) → ∀ k ∈ c.clauses, ∀ m n, k.predicate m = k.predicate n

namespace ChoiceStage
variable {c : ChoiceStage} {clauses : List ChoiceClause}

theorem select_oblivious (h : ∀ k ∈ clauses, ∀ m n, k.predicate m = k.predicate n) (m n : Message) :
    select m clauses = select n clauses := by
  induction clauses with
  | nil => rfl
  | cons k rest ih =>
    obtain ⟨hk, hrest⟩ := List.forall_mem_cons.1 h
    rw [select, select, hk m n, ih hrest]

/-- A choice that takes no notice of messages always goes the same way. -/
theorem process_oblivious (h : ∀ k ∈ c.clauses, ∀ m n, k.predicate m = k.predicate n) (m n : Message) :
    (c.process m).2 = (c.process n).2 ∧ (c.process m).1.choiceMatch? = (c.process n).1.choiceMatch? := by
  have hs : select m.clearChoiceMatch c.clauses = select n.clearChoiceMatch c.clauses :=
    select_oblivious h _ _
  unfold process
  dsimp only
  rw [hs]
  split
  · exact ⟨rfl, by simp⟩
  · split <;> exact ⟨rfl, by simp⟩

end ChoiceStage

namespace Engine
variable {e : Engine} {m : Message}

/-- The same engine in an isolation. -/
def inIsolation (e : Engine) (isolation : BranchIsolation) : Engine :=
  { e with options := { e.options with isolation } }

/-- The nodes that follow a node do not depend on the message. -/
theorem invoke_oblivious (h : e.stages.Oblivious) (node : Nat) (p q : Progress) :
    (e.invoke node p).1 = (e.invoke node q).1 := by
  unfold invoke
  dsimp only
  cases hs : e.stages.get? (e.graph.qualified node) with
  | none => rfl
  | some stage =>
    cases stage with
    | step s =>
      have hp := h.step hs p.message q.message
      dsimp only
      rcases hm : s.process p.message with ⟨m, _ | text⟩ <;>
        rcases hn : s.process q.message with ⟨n, _ | text'⟩ <;> rw [hm, hn] at hp
      · cases hp
      · cases hp
    | choice c =>
      obtain ⟨hfailure, hmatch⟩ := ChoiceStage.process_oblivious (h.choice hs) p.message q.message
      dsimp only
      rcases hp : c.process p.message with ⟨m, _ | failure⟩ <;>
        rcases hq : c.process q.message with ⟨n, _ | failure'⟩ <;> rw [hp, hq] at hfailure hmatch
      · have htargets : m.choiceTargets = n.choiceTargets := by
          rw [Message.choiceTargets, Message.choiceTargets, hmatch]
        simp only [choiceSuccessors, htargets]
      · cases hfailure
      · cases hfailure

/-- On copies, an engine with such stages goes as it goes on the message itself, unless a fan-out is
refused. All that has to agree is the number of visits left. -/
theorem simulates_shared (h : e.stages.Oblivious) :
    (e.inIsolation .snapshot).Simulates (e.inIsolation .shared)
      (fun failure => ∃ id limit, failure = .fanOutDepthExceeded id limit)
      (fun p q => p.visitsLeft = q.visitsLeft) where
  graph := rfl
  visit {hops node p p' next q} hp hv := by
    have hnext := invoke_oblivious (e := e) h node { p with visitsLeft := p.visitsLeft - 1 }
      { p' with visitsLeft := p'.visitsLeft - 1 }
    have hleft := e.visitsLeft_invoke node { p with visitsLeft := p.visitsLeft - 1 }
    have hi : e.invoke node { p with visitsLeft := p.visitsLeft - 1 } = (next, q) := hv.invoked
    rw [hi] at hnext hleft
    refine ⟨(e.invoke node { p' with visitsLeft := p'.visitsLeft - 1 }).2,
      ⟨hv.hop, hp ▸ hv.visit, Prod.ext hnext.symm rfl⟩, ?_⟩
    rw [e.visitsLeft_invoke, ← hp]
    exact hleft
  cut hp _ hc := by
    cases hc with
    | hopLimit hh => exact ⟨_, .hopLimit hh, hp⟩
    | visitBudget hh hv => exact ⟨_, .visitBudget hh (hp.symm.trans hv), hp⟩
  refuse _ hn _ := absurd ⟨_, _, rfl⟩ hn
  permit _ hr := nomatch hr.1
  enter {p p' q q'} _ hq := by
    rw [((e.inIsolation .snapshot).enterBranch_visits p.message q).2,
      ((e.inIsolation .shared).enterBranch_visits p'.message q').2]
    exact hq
  leave {p p' q q' copies copies'} _ hq _ := by
    rw [((e.inIsolation .snapshot).leaveFanOut_visits p.message copies q).2,
      ((e.inIsolation .shared).leaveFanOut_visits p'.message copies' q').2]
    exact hq
  signal hp := hp

/-- Both isolations walk the same way where no stage takes notice of the message and no fan-out is refused:
their executions unfold into the same paths, and so they make the same visits in the same order and tell the
same completion. -/
theorem isolations_walk_alike (e : Engine) (m : Message) (ho : e.stages.Oblivious)
    (hd : ∀ id limit, .failed (.fanOutDepthExceeded id limit) ∉
      ((e.inIsolation .snapshot).execute m).events) :
    let shared := (e.inIsolation .shared).execute m
    let copied := (e.inIsolation .snapshot).execute m
    (∃ paths, (e.inIsolation .shared).Executes m paths shared ∧
        (e.inIsolation .snapshot).Executes m paths copied) ∧
      shared.visits = copied.visits ∧ shared.completion = copied.completion := by
  intro shared copied
  obtain ⟨paths, o, hx⟩ := (e.inIsolation .snapshot).exists_executes m
  obtain rfl : o = copied := hx.eq_execute
  have hbarred : ∀ failure, (∃ id limit, failure = .fanOutDepthExceeded id limit) →
      .failed failure ∉ copied.events := by
    rintro _ ⟨id, limit, rfl⟩
    exact hd id limit
  obtain ⟨q, q', completion, -, ho, hx'⟩ := hx.simulated (simulates_shared ho) rfl hbarred
  have hshared : q'.outcome completion = shared := hx'.eq_execute
  rw [hshared] at hx'
  refine ⟨⟨paths, hx', hx⟩, ?visits, ?completion⟩
  case visits => exact hx'.visits_eq.1.trans hx.visits_eq.1.symm
  case completion => rw [← hshared, ho]; rfl

/-- A flow whose choice always leads back to itself and on to a step that fails. -/
def wheelEngine : Engine where
  graph := {
    flowId := "f"
    arena := ⟨[⟨"entry", [1, 2], 0⟩, ⟨"hub", [1, 2], 2⟩, ⟨"rim", [], 2⟩]⟩
    entryNode := 0
    entry := ⟨"entry", "inlet", "direct:in", .empty⟩
    definitions := [] }
  stages := {
    flowId := "f"
    stages := .ofList [
      ("f:hub", .choice ⟨"f:hub", [⟨"f:hub,f:rim", "on", fun _ => .ok true⟩], none⟩),
      ("f:rim", .step ⟨"f:rim", fun m => (m.setHeader "worn" .null, some "off")⟩)] }
  options := { maxHops := 3, maxVisits := 5 }

theorem wheelEngine_stage {id : String} {stage : Stage} (h : wheelEngine.stages.get? id = some stage) :
    stage = .choice ⟨"f:hub", [⟨"f:hub,f:rim", "on", fun _ => .ok true⟩], none⟩ ∨
      stage = .step ⟨"f:rim", fun m => (m.setHeader "worn" .null, some "off")⟩ := by
  by_cases hhub : id = "f:hub"
  · subst hhub
    exact .inl (Option.some.inj h).symm
  · by_cases hrim : id = "f:rim"
    · subst hrim
      exact .inr (Option.some.inj h).symm
    · simp [wheelEngine, StageSet.get?, Dict.ofList, hhub, hrim] at h

theorem wheelEngine_oblivious : wheelEngine.stages.Oblivious where
  step {id p} h _ _ := by
    rcases wheelEngine_stage h with hs | hs
    · cases hs
    · obtain rfl := Stage.step.inj hs
      rfl
  choice {id c} h := by
    rcases wheelEngine_stage h with hs | hs
    · obtain rfl := Stage.choice.inj hs
      exact List.forall_mem_singleton.2 fun _ _ => rfl
    · cases hs

/-- A message that nothing has happened to. -/
def blank : Message := { id := ⟨0⟩, createdAt := ⟨0, 0⟩ }

theorem events_wheelEngine : ((wheelEngine.inIsolation .snapshot).execute blank).events =
    [.choice "f:hub", .choice "f:hub", .choice "f:hub", .failed (.hopLimitExceeded "f:hub" 3),
      .failed (.hopLimitExceeded "f:rim" 3), .step "f:rim", .failed (.stage "f:rim" "off"),
      .step "f:rim", .failed (.stage "f:rim" "off"), .failed (.visitBudgetExceeded "f:rim" 5),
      .signalled (.joined 2 2)] := by rfl

/-- The wheel turns until the hops are used up, and then until the visits are: in both isolations. -/
theorem isolations_walk_alike_wheel :
    wheelEngine.stages.Oblivious ∧
      (∀ id limit, .failed (.fanOutDepthExceeded id limit) ∉
        ((wheelEngine.inIsolation .snapshot).execute blank).events) ∧
      ((wheelEngine.inIsolation .shared).execute blank).visits =
        ["f:hub", "f:hub", "f:hub", "f:rim", "f:rim"] ∧
      ((wheelEngine.inIsolation .shared).execute blank).completion =
        ((wheelEngine.inIsolation .snapshot).execute blank).completion := by
  have hd : ∀ id limit, .failed (.fanOutDepthExceeded id limit) ∉
      ((wheelEngine.inIsolation .snapshot).execute blank).events := by
    intro id limit
    simp [events_wheelEngine]
  obtain ⟨-, hvisits, hcompletion⟩ := isolations_walk_alike wheelEngine blank wheelEngine_oblivious hd
  refine ⟨wheelEngine_oblivious, hd, hvisits.trans ?_, hcompletion⟩
  rw [Outcome.visits, events_wheelEngine]
  rfl

end Engine
end MessageFlow
