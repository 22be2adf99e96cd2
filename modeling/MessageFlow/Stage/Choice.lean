import MessageFlow.Condition.Language
import MessageFlow.Text.Quoted

/-!
Choices: stages that ask their predicates in order and note on the message which branch was selected.
-/

namespace MessageFlow

/-- A branch of a choice: the choice match it sets, its label, and its predicate. -/
structure ChoiceClause where
  key : String
  label : String
  predicate : Predicate

structure ChoiceStage where
  id : String
  clauses : List ChoiceClause
  otherwise : Option String

namespace ChoiceStage

/-- The key of the first clause that holds, or the label and the failure of a clause that could not be
decided before one held. -/
def select (m : Message) : List ChoiceClause → Except (String × PredicateError) (Option String)
  | [] => .ok none
  | c :: rest =>
    match c.predicate m with
    | .ok true => .ok (some c.key)
    | .ok false => select m rest
    | .error e => .error (c.label, e)

/-- Decide for a message, which forgets the choice match of the choice before. A failure is returned
and also attached to the message. -/
def process (s : ChoiceStage) (m : Message) : Message × Option ExchangeError :=
  let fresh := m.clearChoiceMatch
  match select fresh s.clauses with
  | .error (label, cause) =>
    let failure := .predicate s.id label cause
    (fresh.setError failure, some failure)
  | .ok selected =>
    match selected.or s.otherwise with
    | some key => (fresh.setChoiceMatch key, none)
    | none => (fresh, none)

/-- A record of named parts, as it is shown to people. -/
def shown (name : String) (parts : List String) : String :=
  name ++ " \x7b " ++ Text.join ", " parts ++ " \x7d"

def describeClause (c : ChoiceClause) : String :=
  shown "ChoiceClause" ["key: " ++ Text.quoted c.key, "label: " ++ Text.quoted c.label, ".."]

/-- A choice as it is shown to people. -/
def describe (s : ChoiceStage) : String :=
  let otherwise := match s.otherwise with
    | some key => "Some(" ++ Text.quoted key ++ ")"
    | none => "None"
  shown "ChoiceStage"
    ["id: " ++ Text.quoted s.id,
      "clauses: [" ++ Text.join ", " (s.clauses.map describeClause) ++ "]",
      "otherwise: " ++ otherwise]

end ChoiceStage
end MessageFlow
