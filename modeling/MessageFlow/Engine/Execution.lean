import MessageFlow.Engine.Shared
import MessageFlow.Engine.Snapshot

/-!
Executions: one message from the entry of a flow to the end of all its paths.
-/

namespace MessageFlow

/-- What an execution leaves: the message, the completion, and all that happened, in order. -/
structure Outcome where
  message : Message
  completion : Completion
  events : List Event

/-- The completion that an event tells. -/
def Event.signalled? : Event → Option Completion
  | .signalled completion => some completion
  | .step _ | .choice _ | .missing _ | .failed _ => none

/-- The completion that a waiting caller gets: the first one that is told. Where none is told, there is
nothing behind the entry. -/
def Outcome.awaited (o : Outcome) : Completion :=
  (o.events.findSome? Event.signalled?).getD .noSuccessors

namespace Engine

def start (e : Engine) (m : Message) : Progress := { message := m, visitsLeft := e.options.maxVisits }

/-- Walk the one path that follows the entry. -/
def walkSingle (e : Engine) (node : Nat) (p : Progress) : Progress :=
  match e.options.isolation with
  | .shared => (e.walkShared [node] e.options.maxHops p).2
  | .snapshot => (e.walkBranch (e.snapshot e.options.maxFanOutDepth) e.options.maxHops node p).2

/-- Walk the branches that follow the entry, and count those that failed. -/
def walkBranches (e : Engine) (branches : List Nat) (p : Progress) : Nat × Progress :=
  match e.options.isolation with
  | .shared => e.walkShared branches e.options.maxHops p
  | .snapshot => e.snapshot e.options.maxFanOutDepth e.graph.entryNode branches e.options.maxHops p

/-- Run a message through the flow. Failures are attached to the message and never leave the engine. -/
def execute (e : Engine) (m : Message) : Outcome :=
  let finish (c : Completion) (p : Progress) : Outcome := ⟨p.message, c, p.events.reverse⟩
  match e.graph.successors e.graph.entryNode with
  | [] => finish .noSuccessors ((e.start m).record (.signalled .noSuccessors))
  | [next] => finish .proceeding (e.walkSingle next ((e.start m).record (.signalled .proceeding)))
  | branches =>
    let (failed, p) := e.walkBranches branches (e.start m)
    let completion := .joined branches.length failed
    finish completion (p.record (.signalled completion))

/-- Run a message through the flow and wait for the completion. -/
def process (e : Engine) (m : Message) : Message × Completion :=
  let o := e.execute m
  (o.message, o.awaited)

end Engine
end MessageFlow
