import MessageFlow.Condition.Eval

/-!
Predicates on messages and the languages in which they are written. Languages are kept by name, with one
of them as the default.
-/

namespace MessageFlow

/-- A test of a message that may fail to be decided. -/
abbrev Predicate := Message → Except PredicateError Bool

structure PredicateLanguage where
  name : String
  compile : String → Except PredicateError Predicate

/-- The language of conditions. -/
def simpleLanguage : PredicateLanguage where
  name := "simple"
  compile text := (Expression.read text).map (fun e m => e.eval m)

/-- Languages by name, and the name of the one for texts that name none. -/
structure PredicateLanguages where
  known : Dict PredicateLanguage
  default : String

namespace PredicateLanguages

/-- The language of conditions alone. -/
def new : PredicateLanguages where
  known := Dict.empty.insert simpleLanguage.name simpleLanguage
  default := simpleLanguage.name

/-- Add a language under its own name, in place of one that had the name. -/
def register (ls : PredicateLanguages) (l : PredicateLanguage) : PredicateLanguages :=
  { ls with known := ls.known.insert l.name l }

/-- Make a known language the default; `none` for an unknown name. -/
def setDefault? (ls : PredicateLanguages) (name : String) : Option PredicateLanguages :=
  if ls.known.contains name then some { ls with default := name } else none

/-- The name that a text's language has, given or not. -/
def nameFor (ls : PredicateLanguages) (name : Option String) : String := name.getD ls.default

def get? (ls : PredicateLanguages) (name : Option String) : Option PredicateLanguage :=
  ls.known.get? (ls.nameFor name)

end PredicateLanguages
end MessageFlow
