import MessageFlow.Stage.Choice

/-!
Which clause of a choice decides. Clauses are asked in their order, up to the first that holds or cannot be
decided; the clauses before it are passed over, and those after it are not looked at.
-/

namespace MessageFlow
namespace ChoiceStage
variable {m : Message} {before rest clauses : List ChoiceClause} {c : ChoiceClause} {cause : PredicateError}

/-- The clause `c` decides: a message fails all clauses before it, and `c` holds or cannot be decided. -/
structure DecidedBy (m : Message) (clauses before : List ChoiceClause) (c : ChoiceClause)
    (rest : List ChoiceClause) : Prop where
  split : clauses = before ++ c :: rest
  passed : ∀ b ∈ before, b.predicate m = .ok false
  decides : c.predicate m ≠ .ok false

/-- Clauses that do not hold are passed over. -/
theorem select_append (h : ∀ b ∈ before, b.predicate m = .ok false) :
    select m (before ++ rest) = select m rest := by
  induction before with
  | nil => rfl
  | cons b before ih =>
    obtain ⟨hb, hbefore⟩ := List.forall_mem_cons.1 h
    rw [List.cons_append, select, hb]
    exact ih hbefore

theorem select_eq_none (h : ∀ b ∈ clauses, b.predicate m = .ok false) : select m clauses = .ok none := by
  rw [← List.append_nil clauses, select_append h]
  rfl

/-- Either no clause of a list holds, and each can be decided, or one is the first to decide. -/
theorem all_passed_or_decidedBy (m : Message) (clauses : List ChoiceClause) :
    (∀ c ∈ clauses, c.predicate m = .ok false) ∨ ∃ before c rest, DecidedBy m clauses before c rest := by
  induction clauses with
  | nil => exact .inl (by simp)
  | cons c rest ih =>
    by_cases hc : c.predicate m = .ok false
    · rcases ih with hpassed | ⟨before, d, after, hsplit, hpassed, hd⟩
      · exact .inl (List.forall_mem_cons.2 ⟨hc, hpassed⟩)
      · have hcons : c :: rest = (c :: before) ++ d :: after := congrArg (c :: ·) hsplit
        exact .inr ⟨c :: before, d, after, hcons, List.forall_mem_cons.2 ⟨hc, hpassed⟩, hd⟩
    · exact .inr ⟨[], c, rest, rfl, by simp, hc⟩

theorem DecidedBy.holds_or_fails (h : DecidedBy m clauses before c rest) :
    c.predicate m = .ok true ∨ ∃ cause, c.predicate m = .error cause := by
  have hdecides := h.decides
  cases hc : c.predicate m with
  | error cause => exact .inr ⟨cause, rfl⟩
  | ok holds =>
    cases holds with
    | true => exact .inl rfl
    | false => exact absurd hc hdecides

theorem DecidedBy.select_of_holds (h : DecidedBy m clauses before c rest) (hc : c.predicate m = .ok true) :
    select m clauses = .ok (some c.key) := by
  rw [h.split, select_append h.passed, select, hc]

theorem DecidedBy.select_of_fails (h : DecidedBy m clauses before c rest)
    (hc : c.predicate m = .error cause) : select m clauses = .error (c.label, cause) := by
  rw [h.split, select_append h.passed, select, hc]

/-- A clause decides whatever comes after it. -/
theorem DecidedBy.followed (h : DecidedBy m clauses before c rest) (others : List ChoiceClause) :
    DecidedBy m (before ++ c :: others) before c others :=
  ⟨rfl, h.passed, h.decides⟩

end ChoiceStage
end MessageFlow
