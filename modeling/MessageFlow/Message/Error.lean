import MessageFlow.Condition.Basic

/-!
Failures that a message collects on its way through a flow.
-/

namespace MessageFlow

inductive ExchangeError where
  /-- A step reported a failure. -/
  | stage (stageId message : String)
  /-- A condition of a choice failed; the conditions behind it were not asked. -/
  | predicate (stageId branch : String) (cause : PredicateError)
  /-- No stage belongs to the id. -/
  | missingStage (stageId : String)
  /-- One path is longer than allowed. -/
  | hopLimitExceeded (stageId : String) (limit : Nat)
  /-- All paths together invoke more stages than allowed. -/
  | visitBudgetExceeded (stageId : String) (limit : Nat)
  /-- Fan-outs on copies of the message stand inside each other more deeply than allowed. -/
  | fanOutDepthExceeded (stageId : String) (limit : Nat)
deriving DecidableEq, Inhabited

namespace ExchangeError

/-- The stage at which the failure arose. -/
def stageId : ExchangeError → String
  | .stage id _ | .predicate id _ _ | .missingStage id | .hopLimitExceeded id _
  | .visitBudgetExceeded id _ | .fanOutDepthExceeded id _ => id

def message : ExchangeError → String
  | .stage id text => "Stage '" ++ id ++ "' failed: " ++ text
  | .predicate id branch cause =>
    "Choice '" ++ id ++ "' failed evaluating branch '" ++ branch ++ "': " ++ cause.message
  | .missingStage id => "No stage registered for '" ++ id ++ "'"
  | .hopLimitExceeded id limit => "Path exceeded " ++ toString limit ++ " hops at stage '" ++ id ++ "'"
  | .visitBudgetExceeded id limit =>
    "Execution exceeded " ++ toString limit ++ " stage visits at stage '" ++ id ++ "'"
  | .fanOutDepthExceeded id limit =>
    "Fan-out at stage '" ++ id ++ "' nested deeper than " ++ toString limit ++ " levels"

end ExchangeError
end MessageFlow
