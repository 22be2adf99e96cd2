import MessageFlow.Proofs.Selection
import MessageFlow.Proofs.StaleMatch

/-!
What a choice makes of a message. Its clauses are asked on the message without the old choice match. The one that
decides tells what becomes of the message; where there is none, the key for everything else does.
-/

namespace MessageFlow
namespace ChoiceStage
variable {s : ChoiceStage} {m : Message} {selected : Option String} {label : String} {cause : PredicateError}

/-- What a choice makes of a message: how it fails, the message that it leaves but for the choice match, and
the choice match. -/
structure Leaves (s : ChoiceStage) (m : Message) (failure : Option ExchangeError) (left : Message)
    (key : Option String) : Prop where
  failure : (s.process m).2 = failure
  alike : left.Alike (s.process m).1
  choiceMatch : (s.process m).1.property? choiceMatchKey = key.map Json.string

theorem leaves_selected (h : select m.clearChoiceMatch s.clauses = .ok selected) :
    s.Leaves m none m (selected.or s.otherwise) := by
  have hclear := m.alike_clearChoiceMatch
  cases hkey : selected.or s.otherwise with
  | none =>
    have hprocess : s.process m = (m.clearChoiceMatch, none) := by simp only [process, h, hkey]
    refine ⟨?_, ?_, ?_⟩ <;> rw [hprocess]
    · exact hclear
    · exact Message.property?_removeProperty.trans (if_pos rfl)
  | some key =>
    have hprocess : s.process m = (m.clearChoiceMatch.setChoiceMatch key, none) := by
      simp only [process, h, hkey]
    refine ⟨?_, ?_, ?_⟩ <;> rw [hprocess]
    · exact hclear.trans (m.clearChoiceMatch.alike_setProperty (.string key))
    · exact Message.property?_setProperty.trans (if_pos rfl)

theorem leaves_undecided (h : select m.clearChoiceMatch s.clauses = .error (label, cause)) :
    s.Leaves m (some (.predicate s.id label cause)) (m.setError (.predicate s.id label cause)) none := by
  have hprocess : s.process m = (m.clearChoiceMatch.setError (.predicate s.id label cause),
      some (.predicate s.id label cause)) := by
    simp only [process, h]
  refine ⟨?_, ?_, ?_⟩ <;> rw [hprocess]
  · exact m.alike_clearChoiceMatch.setError _
  · exact Message.property?_removeProperty.trans (if_pos rfl)

/-- A failure of a choice is attached to the message, and nothing else is changed but the choice match. -/
theorem leaves (s : ChoiceStage) (m : Message) : ∃ failure key,
    s.Leaves m failure (failure.elim m m.setError) key := by
  cases h : select m.clearChoiceMatch s.clauses with
  | ok selected => exact ⟨none, _, leaves_selected h⟩
  | error failed => exact ⟨some _, _, leaves_undecided h⟩

/-- A choice decides on the message without its choice match. The first clause that holds or cannot be decided
is the one that counts: if it holds, its key is set; if not, the choice fails with its label and the cause, and no
key is set, whatever the key for everything else is. Where there is no such clause, that key is set, if there is
one. Body, headers and all other properties stay as they are, and so does an earlier failure unless the choice
fails. The clauses after the one that counts make no difference, and neither does the old choice match. -/
theorem process_decides (s : ChoiceStage) (m : Message) :
    (∀ before c rest, DecidedBy m.clearChoiceMatch s.clauses before c rest →
      (c.predicate m.clearChoiceMatch = .ok true → s.Leaves m none m (some c.key)) ∧
      (∀ cause, c.predicate m.clearChoiceMatch = .error cause →
        s.Leaves m (some (.predicate s.id c.label cause)) (m.setError (.predicate s.id c.label cause)) none) ∧
      ∀ others otherwise,
        { s with clauses := before ++ c :: others, otherwise }.process m = s.process m) ∧
    ((∀ c ∈ s.clauses, c.predicate m.clearChoiceMatch = .ok false) → s.Leaves m none m s.otherwise) ∧
    ((∀ c ∈ s.clauses, c.predicate m.clearChoiceMatch = .ok false) ∨
      ∃ before c rest, DecidedBy m.clearChoiceMatch s.clauses before c rest) ∧
    ∀ n, m.Alike n → s.process n = s.process m := by
  refine ⟨?decided, ?passed, all_passed_or_decidedBy _ _, ?stale⟩
  case decided =>
    intro before c rest h
    refine ⟨?holds, ?fails, ?later⟩
    case holds =>
      intro hc
      exact leaves_selected (h.select_of_holds hc)
    case fails =>
      intro cause hc
      exact leaves_undecided (h.select_of_fails hc)
    case later =>
      intro others otherwise
      -- neither the other clauses nor the key for everything else are reached
      rcases h.holds_or_fails with hc | ⟨cause, hc⟩
      · have hothers := (h.followed others).select_of_holds hc
        simp only [process, hothers, h.select_of_holds hc, Option.some_or]
      · have hothers := (h.followed others).select_of_fails hc
        simp only [process, hothers, h.select_of_fails hc]
  case passed =>
    intro h
    exact leaves_selected (select_eq_none h)
  case stale =>
    intro n hn
    exact (s.process_alike hn).symm

/-- A clause that cannot be decided ends the choice, although the one behind it holds. -/
example (m : Message) :
    let undated : ChoiceClause := ⟨"mail:record", "late", fun _ => .error (.evaluation "no date")⟩
    let holding : ChoiceClause := ⟨"mail:deliver", "urgent", fun _ => .ok true⟩
    let sort : ChoiceStage := ⟨"mail:sort", [undated, holding], some "mail:store"⟩
    (sort.process m).2 = some (.predicate "mail:sort" "late" (.evaluation "no date")) := rfl

end ChoiceStage
end MessageFlow
