import MessageFlow.Route.Descriptor
import MessageFlow.Stage.Choice

/-!
Stages: what runs when a message reaches a node. A host supplies the processors of steps; choices are
built from the descriptors alone.
-/

namespace MessageFlow

/-- The work of a step. It returns the message as it left it, and a text if it failed. -/
structure Processor where
  name : String
  process : Message → Message × Option String

inductive Stage where
  | step (p : Processor)
  | choice (c : ChoiceStage)

/-- How a host makes the processor of a step; it may refuse with a reason. -/
abbrev StepFactory := StepDescriptor → Except String Processor

/-- Why a flow that compiles cannot be deployed. -/
inductive DeployError where
  /-- The host refused to make a step. -/
  | stepFactory (stageId reason : String)
  /-- A predicate is not written in its language. -/
  | predicate (stageId : String) (cause : PredicateError)
  | unknownLanguage (name : String)
  /-- A stage id is taken. -/
  | stageCollision (stageId : String)
deriving DecidableEq

/-- A stage as it is shown to people. -/
def Stage.describe : Stage → String
  | .step p => "Step(" ++ Text.quoted p.name ++ ")"
  | .choice c => "Choice(" ++ Text.quoted c.id ++ ")"

def DeployError.message : DeployError → String
  | .stepFactory id reason => "Stage '" ++ id ++ "' could not be created: " ++ reason
  | .predicate id cause => "Choice '" ++ id ++ "' predicate did not compile: " ++ cause.message
  | .unknownLanguage name => "Unknown predicate language '" ++ name ++ "'"
  | .stageCollision id => "Stage id '" ++ id ++ "' is already registered by another flow"

end MessageFlow
