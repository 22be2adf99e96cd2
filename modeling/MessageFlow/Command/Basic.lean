import MessageFlow.Deployment.Host
import MessageFlow.Flow.Document
import MessageFlow.Stage.Trace

/-!
The commands of the program. One shows how a flow document compiles; the other deploys the flow with
tracing steps and runs one message through it.
-/

namespace MessageFlow

/-- The message that a command runs through a flow, and how. -/
structure RunRequest where
  file : String
  /-- The body, as JSON text. -/
  payload : String := "\x7b\x7d"
  /-- Headers as texts with an equals sign. -/
  headers : List String := []
  isolation : Option BranchIsolation := none
deriving DecidableEq

inductive Command where
  | compile (file : String) (encoding : Option ParameterEncoding)
  | run (request : RunRequest)
deriving DecidableEq

namespace Command

/-- The flow document of a command. -/
def file : Command → String
  | .compile file _ => file
  | .run request => request.file

/-- A header from its text. A value that is JSON keeps its type, and anything else is a string. -/
def readHeader (raw : String) : Except String (String × Json) :=
  match Text.splitOnce '=' raw with
  | none => .error ("Header '" ++ raw ++ "' must look like key=value")
  | some (key, value) => .ok (Text.trimmed key, (Json.read? value).getD (.string value))

/-- Set headers one after another. -/
def addHeaders (m : Message) : List String → Except String Message
  | [] => .ok m
  | raw :: rest =>
    match readHeader raw with
    | .ok (key, value) => addHeaders (m.setHeader key value) rest
    | .error reason => .error reason

def report (o : Outcome) : Json :=
  Json.sorted (.object [("completion", .string o.completion.describe), ("message", o.message.toJson),
    ("error", optionalJson (o.message.error.map ExchangeError.message))])

/-- Deploy the flow of a document, then set up the message, then run it. -/
def runDocument (s : Settings) (d : FlowDocument) (fresh : Message) (r : RunRequest) :
    Except String Json := do
  let s := { s with engine.isolation := r.isolation.getD s.engine.isolation }
  let host ← (FlowHost.new d.catalog.lookup tracingFactory .new s).mapError FlowError.message
  let (deployed, host) := host.perform (.deploy d.flow)
  discard (deployed.mapError FlowError.message)
  let body ← match Json.read? r.payload with
    | some body => .ok body
    | none => .error "Payload is not valid JSON"
  let m ← addHeaders (fresh.setBody body) r.headers
  let engine ← (host.engine d.flow.id).mapError FlowError.message
  return report (engine.execute m)

/-- What a command shows, or the reason why it fails, given the contents of its file. -/
def perform (s : Settings) (contents : Option String) (fresh : Message) (c : Command) :
    Except String Json := do
  let d ← (FlowDocument.ofFile c.file contents).mapError FlowError.message
  match c with
  | .compile _ encoding =>
    let graph ← (d.flow.compile d.catalog.lookup).mapError CompileError.message
    return (RouteDescriptors.ofGraph (encoding.getD s.encoding) graph).toJson
  | .run request => runDocument s d fresh request

end Command
end MessageFlow
