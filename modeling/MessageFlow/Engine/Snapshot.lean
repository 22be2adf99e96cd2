import MessageFlow.Engine.Basic
import MessageFlow.Message.Merge

/-!
Fan-outs on copies of the message. Each branch starts from the message as it was at the fan-out, whatever
the branches before it did to their copies. Such fan-outs stand inside each other up to a limit.
-/

namespace MessageFlow
namespace Engine

/-- How a fan-out is carried out: from its source and branches, with the hops left to the branches. It
returns the number of failed branches. -/
abbrev FanOut := (source : Nat) → (branches : List Nat) → (hopsLeft : Nat) → Progress → Nat × Progress

/-- Walk a path and the fan-out at its end, if it has one; tell whether any path failed. -/
def walkBranch (e : Engine) (fanOut : FanOut) (hopsLeft node : Nat) (p : Progress) : Bool × Progress :=
  match e.follow hopsLeft node p with
  | (.done, q) => (false, q)
  | (.failed, q) => (true, q)
  | (.fanOut source branches hops, q) =>
    let (failed, r) := fanOut source branches hops q
    (failed > 0, r)

/-- Walk branches one after another, each on a copy of `base`. The copies as they end, how many branches
failed, and the progress of the last one. -/
def walkCopies (walk : Nat → Progress → Bool × Progress) (base : Message) :
    List Nat → Progress → List Message × Nat × Progress
  | [], p => ([], 0, p)
  | branch :: rest, p =>
    let (bad, q) := walk branch { p with message := base }
    let (copies, failed, r) := walkCopies walk base rest q
    (q.message :: copies, (if bad then 1 else 0) + failed, r)

/-- A fan-out on copies, with the number of such fan-outs that may still stand inside each other; at zero
it is refused, and all its branches count as failed. -/
def snapshot (e : Engine) : (levels : Nat) → FanOut
  | 0, source, branches, _, p =>
    (branches.length,
      p.fail (.fanOutDepthExceeded (e.graph.qualified source) e.options.maxFanOutDepth))
  | levels + 1, _, branches, hopsLeft, p =>
    let (copies, failed, q) :=
      walkCopies (e.walkBranch (e.snapshot levels) hopsLeft) p.message branches p
    (failed, { q with message := p.message.joinCopies copies })

end Engine
end MessageFlow
