import MessageFlow.Stage.Registry

/-!
The stages of a flow, made from its descriptors with the processors and languages of a host. Predicates
are compiled here, once for each deployment.
-/

namespace MessageFlow
namespace StageSet

/-- A clause with its predicate compiled. -/
def makeClause (ls : PredicateLanguages) (id : String) (w : WhenDescriptor) :
    Except DeployError ChoiceClause :=
  match ls.get? w.predicate.language with
  | none => .error (.unknownLanguage (ls.nameFor w.predicate.language))
  | some l =>
    match l.compile w.predicate.expression with
    | .ok p => .ok ⟨w.key, w.label, p⟩
    | .error e => .error (.predicate id e)

def makeChoice (ls : PredicateLanguages) (c : ChoiceDescriptor) : Except DeployError ChoiceStage :=
  (c.whens.mapM (makeClause ls c.id)).map (fun clauses => ⟨c.id, clauses, c.otherwise⟩)

def makeStep (factory : StepFactory) (s : StepDescriptor) : Except DeployError Processor :=
  match factory s with
  | .ok p => .ok p
  | .error reason => .error (.stepFactory s.id reason)

def makeStage (factory : StepFactory) (ls : PredicateLanguages) :
    StageDescriptor → Except DeployError Stage
  | .step s => (makeStep factory s).map .step
  | .choice c => (makeChoice ls c).map .choice

/-- Add the stages of descriptors one by one; the first failure ends the work. -/
def addStages (factory : StepFactory) (ls : PredicateLanguages) (set : StageSet) :
    List StageDescriptor → Except DeployError StageSet
  | [] => .ok set
  | d :: rest =>
    match makeStage factory ls d with
    | .error e => .error e
    | .ok stage =>
      match set.insert d.id stage with
      | .error e => .error e
      | .ok set => addStages factory ls set rest

/-- The stages of a flow. -/
def materialize (factory : StepFactory) (ls : PredicateLanguages) (r : RouteDescriptors) :
    Except DeployError StageSet :=
  addStages factory ls { flowId := r.flowId } r.stages

end StageSet
end MessageFlow
