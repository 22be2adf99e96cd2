import MessageFlow.Stage.Basic

/-!
Tracing: steps that do nothing but note their id in a header, so that a message shows its way.
-/

namespace MessageFlow

/-- The header that collects the ids of visited steps. -/
def traceHeader : String := "trace"

/-- The notes on a message so far; a header that is no list counts as empty. -/
def Message.traceItems (m : Message) : List Json :=
  match m.header? traceHeader with
  | some (.array items) => items
  | _ => []

/-- Note a visit. -/
def Message.trace (m : Message) (stageId : String) : Message :=
  m.setHeader traceHeader (.array (m.traceItems ++ [.string stageId]))

/-- The ids noted on a message, in the order of the visits. -/
def Message.visited (m : Message) : List String := m.traceItems.filterMap Json.string?

def tracer (stageId : String) : Processor where
  name := stageId
  process m := (m.trace stageId, none)

/-- Every step is a tracer. -/
def tracingFactory : StepFactory := fun s => .ok (tracer s.id)

end MessageFlow
