import MessageFlow.Json.Basic
import MessageFlow.Json.Printer
import MessageFlow.Text.FormEncoding

/-!
Addresses of stages: the binding of a component with the parameters of the node as a query.
-/

namespace MessageFlow

/-- How parameters are written into an address. -/
inductive ParameterEncoding where
  /-- As a form query, so that any text survives. -/
  | percent
  /-- As they are. -/
  | legacy
deriving DecidableEq, Inhabited

namespace ParameterEncoding

def name : ParameterEncoding → String
  | .percent => "percent"
  | .legacy => "legacy"

/-- The exact name of an encoding. -/
def ofName? (s : String) : Option ParameterEncoding :=
  [ParameterEncoding.percent, .legacy].find? (fun e => e.name = s)

/-- An encoding as a person writes it: blanks around it and the case of letters do not matter, and each
encoding has a second name. -/
def ofText (s : String) : Except String ParameterEncoding :=
  match Text.lowered (Text.trimmed s) with
  | "percent" | "encoded" => .ok .percent
  | "legacy" | "raw" => .ok .legacy
  | other => .error ("Unknown parameter encoding: " ++ other)

end ParameterEncoding

/-- The text of a parameter: a string without quotes, nothing for null, else JSON. -/
def parameterText : Json → String
  | .string s => s
  | .null => ""
  | v => v.compact

def parameterPairs (params : Dict Json) : List (String × String) :=
  params.toList.map (fun p => (p.1, parameterText p.2))

/-- The parameters as a query, in the order of their names. -/
def queryText (params : Dict Json) : ParameterEncoding → String
  | .percent => Text.formQuery (parameterPairs params)
  | .legacy => Text.join "&" ((parameterPairs params).map (fun p => p.1 ++ "=" ++ p.2))

/-- A binding with its parameters. A binding that has a query already gets it extended. -/
def renderUri (binding : String) (params : Dict Json) (encoding : ParameterEncoding) : String :=
  if params.isEmpty then binding
  else binding ++ (if '?' ∈ binding.toList then "&" else "?") ++ queryText params encoding

end MessageFlow
