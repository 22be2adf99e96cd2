import MessageFlow.Graph.Error
import MessageFlow.Stage.Basic

/-!
All that can go wrong between a flow document and a running flow.
-/

namespace MessageFlow

inductive FlowError where
  | compile (cause : CompileError)
  | deploy (cause : DeployError)
  /-- A setting has no meaning. -/
  | config (text : String)
  | flowNotFound (id : String)
  /-- A file cannot be read. -/
  | io
  /-- A document is not valid JSON, or not a flow document. -/
  | json
  /-- A document is not valid YAML, or not a flow document. -/
  | yaml
deriving DecidableEq

def FlowError.message : FlowError → String
  | .compile cause => "Compile error: " ++ cause.message
  | .deploy cause => "Deploy error: " ++ cause.message
  | .config text => "Configuration error: " ++ text
  | .flowNotFound id => "Flow '" ++ id ++ "' is not deployed"
  | .io => "The file cannot be read"
  | .json => "The document is not a flow document in JSON"
  | .yaml => "The document is not a flow document in YAML"

end MessageFlow
