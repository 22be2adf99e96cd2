import MessageFlow.Deployment.Error
import MessageFlow.Flow.Catalog
import MessageFlow.Json.Reader
import MessageFlow.Yaml.Document

/-!
Flow documents as text: in JSON or YAML, and in files whose names tell which.
-/

namespace MessageFlow

inductive DocumentFormat where
  | json
  | yaml
deriving DecidableEq, Inhabited

namespace DocumentFormat

/-- The last part of a path that is no point. -/
def fileName (path : String) : String :=
  (((Text.split '/' path).filter (fun part => part ≠ "" ∧ part ≠ ".")).getLast?).getD ""

/-- The part of a file name behind its last point; a point at the start parts nothing off. -/
def extension? (name : String) : Option String :=
  match Text.split '.' name with
  | [] | [_] | ["", _] => none
  | parts => if name = ".." then none else parts.getLast?

/-- The format of a file: JSON if its name says so, in whichever case, and YAML otherwise. -/
def ofPath (path : String) : DocumentFormat :=
  if (extension? (fileName path)).map Text.lowered = some "json" then .json else .yaml

end DocumentFormat

namespace FlowDocument

/-- A document from its text. -/
def parse (format : DocumentFormat) (text : String) : Except FlowError FlowDocument :=
  match format with
  | .json =>
    match ((Json.Tree.read? text).map Json.Place.root).bind read? with
    | some d => .ok d
    | none => .error .json
  | .yaml =>
    match Yaml.readText? read? text with
    | some d => .ok d
    | none => .error .yaml

/-- A document from the contents of a file; none stands for a file that cannot be read as text. -/
def ofFile (path : String) (contents : Option String) : Except FlowError FlowDocument :=
  match contents with
  | some text => parse (.ofPath path) text
  | none => .error .io

end FlowDocument
end MessageFlow
