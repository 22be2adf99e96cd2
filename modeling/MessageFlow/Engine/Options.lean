import MessageFlow.Text.Pieces

/-!
Limits of an execution, and how the branches of a fan-out see the message.
-/

namespace MessageFlow

inductive BranchIsolation where
  /-- The branches run one after another on the message itself. -/
  | shared
  /-- Each branch runs on a copy; the copies are joined in the order of the branches. -/
  | snapshot
deriving DecidableEq, Inhabited

namespace BranchIsolation

def name : BranchIsolation → String
  | .shared => "shared"
  | .snapshot => "snapshot"

/-- The exact name of an isolation. -/
def ofName? (s : String) : Option BranchIsolation :=
  [BranchIsolation.shared, .snapshot].find? (fun i => i.name = s)

/-- An isolation as a person writes it: blanks around it and the case of letters do not matter. -/
def ofText (s : String) : Except String BranchIsolation :=
  match Text.lowered (Text.trimmed s) with
  | "shared" => .ok .shared
  | "snapshot" | "isolated" => .ok .snapshot
  | other => .error ("Unknown branch isolation: " ++ other)

end BranchIsolation

structure EngineOptions where
  isolation : BranchIsolation := .shared
  /-- Stages on one path, counted from the entry through every fan-out that the path descends. -/
  maxHops : Nat := 10000
  /-- Stages on all paths of one message. -/
  maxVisits : Nat := 100000
  /-- Fan-outs on copies inside each other. Fan-outs on the message itself are not counted. -/
  maxFanOutDepth : Nat := 64
deriving DecidableEq, Inhabited

end MessageFlow
