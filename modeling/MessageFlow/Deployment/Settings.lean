import MessageFlow.Deployment.Error
import MessageFlow.Engine.Options

/-!
Settings from named variables. A variable that is not set leaves its default.
-/

namespace MessageFlow

structure Settings where
  engine : EngineOptions := {}
  encoding : ParameterEncoding := .percent
  /-- The language of predicates that name none. -/
  defaultLanguage : String := simpleLanguage.name
deriving DecidableEq

namespace Settings

def isolationVariable : String := "ROUTEFLOW_BRANCH_ISOLATION"
def encodingVariable : String := "ROUTEFLOW_PARAM_ENCODING"
def maxHopsVariable : String := "ROUTEFLOW_MAX_HOPS"
def maxVisitsVariable : String := "ROUTEFLOW_MAX_VISITS"
def maxFanOutDepthVariable : String := "ROUTEFLOW_MAX_FAN_OUT_DEPTH"
def defaultLanguageVariable : String := "ROUTEFLOW_DEFAULT_LANGUAGE"

/-- A limit as a person writes it. Limits are positive. -/
def positive (name value : String) : Except FlowError Nat :=
  match Text.count? (Text.trim value.toList) with
  | some (n + 1) => .ok (n + 1)
  | _ => .error (.config (name ++ " must be a positive integer, got '" ++ value ++ "'"))

/-- The value of a variable, or a default if it is not set. -/
def valueOr {α : Type} (lookup : String → Option String) (name : String)
    (read : String → Except FlowError α) (default : α) : Except FlowError α :=
  match lookup name with
  | some value => read value
  | none => .ok default

/-- A reason as a fault of the settings. -/
def orConfig {α : Type} : Except String α → Except FlowError α
  | .ok a => .ok a
  | .error reason => .error (.config reason)

/-- The trimmed name of a language; a blank one leaves the default. -/
def languageOr (default value : String) : String :=
  match Text.trimmed value with
  | "" => default
  | name => name

/-- Settings from variables. The first variable without a meaning is reported. -/
def ofLookup (lookup : String → Option String) : Except FlowError Settings := do
  let d : Settings := {}
  let isolation ← valueOr lookup isolationVariable
    (fun s => orConfig (BranchIsolation.ofText s)) d.engine.isolation
  let encoding ← valueOr lookup encodingVariable
    (fun s => orConfig (ParameterEncoding.ofText s)) d.encoding
  let maxHops ← valueOr lookup maxHopsVariable (positive maxHopsVariable) d.engine.maxHops
  let maxVisits ← valueOr lookup maxVisitsVariable (positive maxVisitsVariable) d.engine.maxVisits
  let maxFanOutDepth ← valueOr lookup maxFanOutDepthVariable
    (positive maxFanOutDepthVariable) d.engine.maxFanOutDepth
  let defaultLanguage := match lookup defaultLanguageVariable with
    | some value => languageOr d.defaultLanguage value
    | none => d.defaultLanguage
  return { engine := { isolation, maxHops, maxVisits, maxFanOutDepth }, encoding, defaultLanguage }

end Settings
end MessageFlow
