import MessageFlow.Message.Basic

/-!
Joining copies of a message. Each copy was changed on its own; the join applies the changes of one copy
after another, so of two changes to one place the later stays.
-/

namespace MessageFlow

/-- Put into `target` the listed entries that `base` does not have, one after another. -/
def Dict.overlay {α : Type} [BEq α] (base : Dict α) (listed : List (String × α)) (target : Dict α) :
    Dict α :=
  listed.foldl (fun d e => if base.get? e.1 == some e.2 then d else d.insert e.1 e.2) target

namespace Message

/-- Apply to `target` what `copy` has changed since it was taken from `base`, with the entries of the copy
visited as they are listed. What the copy has removed stays. -/
def absorbListed (base target copy : Message) (headers properties : List (String × Json)) : Message :=
  { target with
    headers := base.headers.overlay headers target.headers
    properties := base.properties.overlay properties target.properties
    body := if copy.body == base.body then target.body else copy.body
    error := if copy.error = none ∨ copy.error = base.error then target.error else copy.error }

/-- Apply to `target` what `copy` has changed, visiting its entries in the order of their names. -/
def absorb (base target copy : Message) : Message :=
  absorbListed base target copy copy.headers.toList copy.properties.toList

/-- The choice match of another message, or none if that one has no text there. -/
def restoreChoiceMatch (base m : Message) : Message :=
  match base.choiceMatch? with
  | some key => m.setChoiceMatch key
  | none => m.clearChoiceMatch

/-- The message that continues after its copies are done. Which branches a copy chose is forgotten. -/
def joinCopies (base : Message) (copies : List Message) : Message :=
  restoreChoiceMatch base (copies.foldl (absorb base) base)

end Message
end MessageFlow
