import MessageFlow.Proofs.Unfolding

/-!
What a walk keeps. A property of the nodes and one of the progress that hold together in every single step
hold at every node that a walk reaches and wherever it leads.
-/

namespace MessageFlow
namespace PathTree

mutual

/-- The nodes that paths come to, those included whose stage a limit keeps from being looked for. -/
def reached : PathTree → List Nat
  | .cut node | .broken node => [node]
  | .passed node next => node :: reachedEach next

def reachedEach : List PathTree → List Nat
  | [] => []
  | t :: ts => t.reached ++ reachedEach ts

end

end PathTree

namespace ChoiceStage
variable {c : ChoiceStage} {m q : Message} {failure : ExchangeError}

/-- A choice that decides leaves the failure of the message alone. -/
theorem error_of_process (h : c.process m = (q, none)) : q.error = m.error := by
  unfold process at h
  dsimp only at h
  split at h
  · simp at h
  · split at h
    · cases h
      rfl
    · cases h
      rfl

/-- A choice fails at the label of a clause. -/
theorem failure_of_process (h : c.process m = (q, some failure)) :
    ∃ label cause, failure = .predicate c.id label cause := by
  unfold process at h
  dsimp only at h
  split at h
  · cases h
    exact ⟨_, _, rfl⟩
  · split at h <;> simp at h

end ChoiceStage

namespace Engine

/-- What comes of the stage of a node, and the successors that it leaves. -/
inductive Invokes (e : Engine) (node : Nat) (p : Progress) : Option (List Nat) → Progress → Prop
  | missing : e.stages.get? (e.graph.qualified node) = none →
      Invokes e node p none
        ((p.record (.missing (e.graph.qualified node))).fail (.missingStage (e.graph.qualified node)))
  | stepPasses {s : Processor} {m : Message} : e.stages.get? (e.graph.qualified node) = some (.step s) →
      s.process p.message = (m, none) →
      Invokes e node p (some (e.graph.successors node))
        ({ p with message := m }.record (.step (e.graph.qualified node)))
  | stepFails {s : Processor} {m : Message} {text : String} :
      e.stages.get? (e.graph.qualified node) = some (.step s) → s.process p.message = (m, some text) →
      Invokes e node p none
        (({ p with message := m }.record (.step (e.graph.qualified node))).fail
          (.stage (e.graph.qualified node) text))
  | choicePasses {c : ChoiceStage} {m : Message} :
      e.stages.get? (e.graph.qualified node) = some (.choice c) → c.process p.message = (m, none) →
      Invokes e node p (some (e.choiceSuccessors m))
        ({ p with message := e.noteUnknownTarget m }.record (.choice (e.graph.qualified node)))
  | choiceFails {c : ChoiceStage} {m : Message} {label : String} {cause : PredicateError} :
      e.stages.get? (e.graph.qualified node) = some (.choice c) →
      c.process p.message = (m, some (.predicate c.id label cause)) →
      Invokes e node p none
        (({ p with message := m }.record (.choice (e.graph.qualified node))).fail
          (.predicate c.id label cause))

theorem invokes (e : Engine) (node : Nat) (p : Progress) :
    e.Invokes node p (e.invoke node p).1 (e.invoke node p).2 := by
  unfold invoke
  dsimp only
  cases hs : e.stages.get? (e.graph.qualified node) with
  | none => exact .missing hs
  | some stage =>
    cases stage with
    | step s =>
      rcases hp : s.process p.message with ⟨m, _ | text⟩
      · simp only [hp]
        exact .stepPasses hs hp
      · simp only [hp]
        exact .stepFails hs hp
    | choice c =>
      rcases hp : c.process p.message with ⟨m, _ | failure⟩
      · simp only [hp]
        exact .choicePasses hs hp
      · obtain ⟨label, cause, rfl⟩ := ChoiceStage.failure_of_process hp
        simp only [hp]
        exact .choiceFails hs hp

variable {e : Engine} {N : Nat → Prop} {I : Progress → Prop} {m : Message} {o : Outcome}

/-- From nodes with `N`, and from the entry, only such nodes are reached. -/
structure Closed (e : Engine) (N : Nat → Prop) : Prop where
  entry : ∀ j ∈ e.graph.successors e.graph.entryNode, N j
  next : ∀ {node p js q}, N node → e.Invokes node p (some js) q → ∀ j ∈ js, N j

/-- `N` of the nodes and `I` of the progress are kept by each step of a walk. A fan-out starts from the
message of a progress that has `I`, and joins the messages of such ones. -/
structure Inductive (e : Engine) (N : Nat → Prop) (I : Progress → Prop) : Prop extends e.Closed N where
  spend : ∀ {p left}, I p → I { p with visitsLeft := left }
  invoke : ∀ {node p next q}, N node → I p → e.Invokes node p next q → I q
  hopLimit : ∀ {node p}, I p →
    I (p.fail (.hopLimitExceeded (e.graph.qualified node) e.options.maxHops))
  visitBudget : ∀ {node p}, I p →
    I (p.fail (.visitBudgetExceeded (e.graph.qualified node) e.options.maxVisits))
  fanOutDepth : ∀ {node p}, I p →
    I (p.fail (.fanOutDepthExceeded (e.graph.qualified node) e.options.maxFanOutDepth))
  enter : ∀ {p q}, I p → I q → I (e.enterBranch p.message q)
  leave : ∀ {p q copies}, I p → (∀ c ∈ copies, ∃ r, I r ∧ r.message = c) → I q →
    I (e.leaveFanOut p.message copies q)
  signal : ∀ {p completion}, I p → I (p.record (.signalled completion))

theorem events_enterBranch (e : Engine) (base : Message) (p : Progress) :
    (e.enterBranch base p).events = p.events := by
  cases hs : e.options.isolation <;> simp [enterBranch, hs]

theorem events_leaveFanOut (e : Engine) (base : Message) (copies : List Message) (p : Progress) :
    (e.leaveFanOut base copies p).events = p.events := by
  cases hs : e.options.isolation <;> simp [leaveFanOut, hs]

theorem Visits.invokes {hops node : Nat} {p q : Progress} {next : Option (List Nat)}
    (h : e.Visits hops node p next q) : e.Invokes node { p with visitsLeft := p.visitsLeft - 1 } next q := by
  have hx := e.invokes node { p with visitsLeft := p.visitsLeft - 1 }
  rwa [h.invoked] at hx

theorem Visits.keeps (h : e.Inductive N I) {hops node : Nat} {p q : Progress} {next : Option (List Nat)}
    (hv : e.Visits hops node p next q) (hn : N node) (hp : I p) :
    I q ∧ ∀ js, next = some js → ∀ j ∈ js, N j := by
  refine ⟨h.invoke hn (h.spend hp) hv.invokes, ?_⟩
  rintro js rfl
  exact h.next hn hv.invokes

mutual

theorem Walks.keeps (h : e.Inductive N I) {hops depth node : Nat} {p q : Progress} {t : PathTree}
    (hw : e.Walks hops depth node p t q) (hn : N node) (hp : I p) : I q ∧ ∀ i ∈ t.reached, N i := by
  have hnode : ∀ i ∈ [node], N i := fun i hi => List.mem_singleton.1 hi ▸ hn
  cases hw with
  | hopLimit _ => exact ⟨h.hopLimit hp, hnode⟩
  | visitBudget _ _ => exact ⟨h.visitBudget hp, hnode⟩
  | stops hv => exact ⟨(hv.keeps h hn hp).1, hnode⟩
  | ends hv => exact ⟨(hv.keeps h hn hp).1, hnode⟩
  | continues hv hw =>
    obtain ⟨hq, hnext⟩ := hv.keeps h hn hp
    obtain ⟨hr, ht⟩ := hw.keeps h (hnext _ rfl _ (List.mem_singleton_self _)) hq
    refine ⟨hr, List.forall_mem_cons.2 ⟨hn, ?_⟩⟩
    rw [PathTree.reachedEach, PathTree.reachedEach, List.append_nil]
    exact ht
  | refused hv _ _ => exact ⟨h.fanOutDepth (hv.keeps h hn hp).1, hnode⟩
  | fansOut hv _ _ hw =>
    obtain ⟨hq, hnext⟩ := hv.keeps h hn hp
    obtain ⟨hr, hcopies, hts⟩ := hw.keeps h (hnext _ rfl) hq hq
    exact ⟨h.leave hq hcopies hr, List.forall_mem_cons.2 ⟨hn, hts⟩⟩

theorem WalksEach.keeps (h : e.Inductive N I) {hops depth : Nat} {branches : List Nat} {p q r : Progress}
    {ts : List PathTree} {copies : List Message}
    (hw : e.WalksEach hops depth q.message branches p ts copies r) (hn : ∀ j ∈ branches, N j)
    (hq : I q) (hp : I p) :
    I r ∧ (∀ c ∈ copies, ∃ s, I s ∧ s.message = c) ∧ ∀ i ∈ PathTree.reachedEach ts, N i := by
  cases hw with
  | nil => exact ⟨hp, by simp, by simp [PathTree.reachedEach]⟩
  | cons hw hrest =>
    obtain ⟨hbranch, hbranches⟩ := List.forall_mem_cons.1 hn
    obtain ⟨hs, ht⟩ := hw.keeps h hbranch (h.enter hq hp)
    obtain ⟨hr, hcopies, hts⟩ := hrest.keeps h hbranches hq hs
    exact ⟨hr, List.forall_mem_cons.2 ⟨⟨_, hs, rfl⟩, hcopies⟩, List.forall_mem_append.2 ⟨ht, hts⟩⟩

end

/-- What each step keeps holds when an execution has ended, and of all nodes that it has reached. -/
theorem Executes.keeps (h : e.Inductive N I) {ts : List PathTree} (hx : e.Executes m ts o)
    (hstart : I (e.start m)) :
    (∃ p completion, I p ∧ o = p.outcome completion) ∧ ∀ i ∈ PathTree.reachedEach ts, N i := by
  have hnone : ∀ i ∈ PathTree.reachedEach [], N i := by simp [PathTree.reachedEach]
  cases hx with
  | endsAtEntry _ => exact ⟨⟨_, _, h.signal hstart, rfl⟩, hnone⟩
  | @proceeds next _ _ hb hw =>
    have hnext : N next := h.entry next (hb ▸ List.mem_singleton_self next)
    obtain ⟨hq, ht⟩ := hw.keeps h hnext (h.signal hstart)
    refine ⟨⟨_, _, hq, rfl⟩, ?_⟩
    rw [PathTree.reachedEach, PathTree.reachedEach, List.append_nil]
    exact ht
  | refused _ _ _ _ => exact ⟨⟨_, _, h.signal (h.fanOutDepth hstart), rfl⟩, hnone⟩
  | joins hb _ _ hw _ =>
    obtain ⟨hr, hcopies, hts⟩ := WalksEach.keeps (q := e.start m) h hw (hb ▸ h.entry) hstart hstart
    exact ⟨⟨_, _, h.signal (h.leave hstart hcopies hr), rfl⟩, hts⟩

end Engine
end MessageFlow
