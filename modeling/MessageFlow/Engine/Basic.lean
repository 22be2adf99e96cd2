import MessageFlow.Engine.Options
import MessageFlow.Graph.Basic
import MessageFlow.Stage.Registry

/-!
Walking a compiled flow. A path starts at a node and runs from stage to stage as long as there is one
successor; it is done where there is none, fans out where there are several, and fails where a stage
fails or a limit is reached. A failure is attached to the message and ends its path only.
-/

namespace MessageFlow

/-- How the caller learns that an execution goes its way. -/
inductive Completion where
  /-- The entry has no successor. -/
  | noSuccessors
  /-- The entry has one successor; this is told before the path is walked. -/
  | proceeding
  /-- All branches of the entry have ended. -/
  | joined (branches failed : Nat)
deriving DecidableEq, Inhabited

/-- What happens in an execution. -/
inductive Event where
  | step (stageId : String)
  | choice (stageId : String)
  /-- A stage was due that nobody has registered. -/
  | missing (stageId : String)
  /-- A path ended in failure. -/
  | failed (failure : ExchangeError)
  | signalled (completion : Completion)
deriving DecidableEq, Inhabited

/-- A compiled flow with its stages and the limits of its executions. -/
structure Engine where
  graph : CompiledGraph
  stages : StageSet
  options : EngineOptions

/-- A message on its way: the visits that all its paths may still make, and what has happened so far,
the latest first. -/
structure Progress where
  message : Message
  visitsLeft : Nat
  events : List Event := []

/-- Where a path stops. A fan-out tells the node it leaves and the hops left to its branches. -/
inductive PathEnd where
  | done
  | failed
  | fanOut (source : Nat) (branches : List Nat) (hopsLeft : Nat)

/-- A completion as it is shown to people. -/
def Completion.describe : Completion → String
  | .noSuccessors => "NoSuccessors"
  | .proceeding => "Proceeding"
  | .joined branches failed =>
    "Joined \x7b branches: " ++ toString branches ++ ", failed: " ++ toString failed ++ " \x7d"

namespace Progress

def record (p : Progress) (event : Event) : Progress := { p with events := event :: p.events }

/-- Attach a failure that ends a path. -/
def fail (p : Progress) (failure : ExchangeError) : Progress :=
  { p with message := p.message.setError failure, events := .failed failure :: p.events }

end Progress

namespace Engine
variable {e : Engine} {hops node visits : Nat} {p : Progress}

/-- The nodes that the choice match of a message names, in its order, each once. -/
def choiceSuccessors (e : Engine) (m : Message) : List Nat :=
  (m.choiceTargets.filterMap e.graph.resolve?).eraseDups

/-- The last id of the choice match that names no node of the flow. -/
def unknownTarget? (e : Engine) (m : Message) : Option String :=
  m.choiceTargets.reverse.find? (fun id => e.graph.resolve? id = none)

/-- A target that names no node is noted on the message; the path goes on with the others. -/
def noteUnknownTarget (e : Engine) (m : Message) : Message :=
  match e.unknownTarget? m with
  | some id => m.setError (.missingStage id)
  | none => m

/-- Run the stage of a node and find the successors; none are returned when the stage fails. -/
def invoke (e : Engine) (node : Nat) (p : Progress) : Option (List Nat) × Progress :=
  let id := e.graph.qualified node
  match e.stages.get? id with
  | none => (none, (p.record (.missing id)).fail (.missingStage id))
  | some (.step s) =>
    match s.process p.message with
    | (m, none) => (some (e.graph.successors node), { p with message := m }.record (.step id))
    | (m, some text) => (none, ({ p with message := m }.record (.step id)).fail (.stage id text))
  | some (.choice c) =>
    match c.process p.message with
    | (m, none) =>
      (some (e.choiceSuccessors m), { p with message := e.noteUnknownTarget m }.record (.choice id))
    | (m, some failure) => (none, ({ p with message := m }.record (.choice id)).fail failure)

/-- Walk a path to its end. The hop limit is looked at first, then the visits left. -/
def follow (e : Engine) : (hopsLeft node : Nat) → Progress → PathEnd × Progress
  | 0, node, p => (.failed, p.fail (.hopLimitExceeded (e.graph.qualified node) e.options.maxHops))
  | hops + 1, node, p =>
    match p.visitsLeft with
    | 0 => (.failed, p.fail (.visitBudgetExceeded (e.graph.qualified node) e.options.maxVisits))
    | visits + 1 =>
      match e.invoke node { p with visitsLeft := visits } with
      | (none, q) => (.failed, q)
      | (some [], q) => (.done, q)
      | (some [next], q) => e.follow hops next q
      | (some branches, q) => (.fanOut node branches hops, q)

theorem follow_refused (hv : p.visitsLeft = 0) : e.follow (hops + 1) node p =
    (.failed, p.fail (.visitBudgetExceeded (e.graph.qualified node) e.options.maxVisits)) := by
  simp [follow, hv]

theorem follow_visit (hv : p.visitsLeft = visits + 1) : e.follow (hops + 1) node p =
    match e.invoke node { p with visitsLeft := visits } with
    | (none, q) => (.failed, q)
    | (some [], q) => (.done, q)
    | (some [next], q) => e.follow hops next q
    | (some branches, q) => (.fanOut node branches hops, q) := by
  cases p
  cases hv
  rfl

@[simp] theorem visitsLeft_invoke (e : Engine) (node : Nat) (p : Progress) :
    (e.invoke node p).2.visitsLeft = p.visitsLeft := by
  simp only [invoke]
  split
  · rfl
  · split <;> rfl
  · split <;> rfl

/-- A path never adds visits, and one that fans out has used some. -/
theorem visitsLeft_follow (e : Engine) (hops node : Nat) (p : Progress) :
    (e.follow hops node p).2.visitsLeft ≤ p.visitsLeft ∧
      ∀ s bs h, (e.follow hops node p).1 = .fanOut s bs h →
        (e.follow hops node p).2.visitsLeft < p.visitsLeft := by
  induction hops generalizing node p with
  | zero => simp [follow, Progress.fail]
  | succ hops ih =>
    cases hv : p.visitsLeft with
    | zero => simp [follow_refused hv, Progress.fail, hv]
    | succ visits =>
      have hi := visitsLeft_invoke e node { p with visitsLeft := visits }
      rw [follow_visit hv]
      rcases hq : e.invoke node { p with visitsLeft := visits } with
        ⟨_ | _ | ⟨next, _ | ⟨second, rest⟩⟩, q⟩ <;> rw [hq] at hi <;> dsimp only at hi ⊢
      · exact ⟨by omega, fun _ _ _ hf => nomatch hf⟩
      · exact ⟨by omega, fun _ _ _ hf => nomatch hf⟩
      · obtain ⟨hle, hlt⟩ := ih next q
        refine ⟨by omega, fun source branches left hf => ?_⟩
        have := hlt source branches left hf
        omega
      · exact ⟨by omega, fun _ _ _ _ => by omega⟩

end Engine
end MessageFlow
