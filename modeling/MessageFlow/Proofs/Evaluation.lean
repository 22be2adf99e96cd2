import MessageFlow.Condition.Eval

/-!
Which comparisons of a condition are looked at, and when a condition cannot be decided. Evaluation goes from left
to right; what a side cannot change any more is not looked at. It fails at the first comparison that asks for an
order where there is none, and at nothing else: a comparison that is not reached does no harm.
-/

namespace MessageFlow

/-- Whether an operator asks which of two numbers is the greater. -/
def CompareOp.isOrdered : CompareOp → Bool
  | .greater | .greaterEq | .less | .lessEq => true
  | .eq | .notEq | .contains => false

/-- A comparison in a condition. -/
structure Comparison where
  path : String
  op : CompareOp
  right : Literal

namespace Comparison

/-- The comparison asks for an order where there is none: its literal is no number, or its path leads to a value
that is neither a number nor null. -/
def Mismatched (m : Message) (c : Comparison) : Prop :=
  c.op.isOrdered ∧
    ((∀ x, c.right ≠ .number x) ∨ ∃ v, m.resolve? c.path = some v ∧ v ≠ .null ∧ ∀ n, v ≠ .number n)

/-- What is named as standing in no order: the literal, if it is no number, or else the value. -/
def found (m : Message) (c : Comparison) : String :=
  match c.right, m.resolve? c.path with
  | .number _, some v => v.compact
  | right, _ => "non-numeric literal " ++ right.text

/-- How a comparison fails if it is mismatched. -/
def mismatch (m : Message) (c : Comparison) : PredicateError :=
  .typeMismatch c.path c.op c.right.text (c.found m)

end Comparison

namespace Expression
variable {m : Message} {e : Expression} {path : String} {op : CompareOp} {lit : Literal} {value : Option Json}
  {c : Comparison} {before asked : List Comparison} {b : Bool} {err : PredicateError}

/-- Evaluation from left to right, no further than the answer is open, meets these comparisons in this order, can
decide each of them, and comes to this answer. -/
inductive Decides (m : Message) : Expression → List Comparison → Bool → Prop
  | always : Decides m .always [] true
  | never : Decides m .never [] false
  | compare {path : String} {op : CompareOp} {lit : Literal} {b : Bool} :
      evalCompare path op lit (m.resolve? path) = .ok b → Decides m (.compare path op lit) [⟨path, op, lit⟩] b
  | conjFalse {left right : Expression} {asked : List Comparison} :
      Decides m left asked false → Decides m (.conj left right) asked false
  | conjTrue {left right : Expression} {asked rest : List Comparison} {b : Bool} :
      Decides m left asked true → Decides m right rest b → Decides m (.conj left right) (asked ++ rest) b
  | disjTrue {left right : Expression} {asked : List Comparison} :
      Decides m left asked true → Decides m (.disj left right) asked true
  | disjFalse {left right : Expression} {asked rest : List Comparison} {b : Bool} :
      Decides m left asked false → Decides m right rest b → Decides m (.disj left right) (asked ++ rest) b
  | neg {inner : Expression} {asked : List Comparison} {b : Bool} :
      Decides m inner asked b → Decides m (.neg inner) asked !b

/-- Evaluation from left to right, no further than the answer is open, decides the comparisons `before` in this
order and comes to `c`. -/
inductive Reaches (m : Message) : Expression → List Comparison → Comparison → Prop
  | compare {path : String} {op : CompareOp} {lit : Literal} :
      Reaches m (.compare path op lit) [] ⟨path, op, lit⟩
  | conjLeft {left right : Expression} {before : List Comparison} {c : Comparison} :
      Reaches m left before c → Reaches m (.conj left right) before c
  | conjRight {left right : Expression} {asked before : List Comparison} {c : Comparison} :
      Decides m left asked true → Reaches m right before c → Reaches m (.conj left right) (asked ++ before) c
  | disjLeft {left right : Expression} {before : List Comparison} {c : Comparison} :
      Reaches m left before c → Reaches m (.disj left right) before c
  | disjRight {left right : Expression} {asked before : List Comparison} {c : Comparison} :
      Decides m left asked false → Reaches m right before c → Reaches m (.disj left right) (asked ++ before) c
  | neg {inner : Expression} {before : List Comparison} {c : Comparison} :
      Reaches m inner before c → Reaches m (.neg inner) before c

/-! One comparison -/

theorem evalCompare_unordered (path : String) (lit : Literal) (value : Option Json) (h : op.isOrdered = false) :
    ∃ b, evalCompare path op lit value = .ok b := by
  cases op with
  | eq => exact ⟨_, rfl⟩
  | notEq => exact ⟨_, rfl⟩
  | contains => exact ⟨_, rfl⟩
  | greater | greaterEq | less | lessEq => cases h

theorem evalCompare_ordered (h : op.isOrdered) :
    evalCompare path op lit value = compareOrdered path op lit value := by
  cases op with
  | greater | greaterEq | less | lessEq => rfl
  | eq | notEq | contains => cases h

/-- A missing value stands in no order to a number, and neither does null. -/
theorem evalCompare_blank {x : LiteralNumber} (h : op.isOrdered) (hv : value = none ∨ value = some .null) :
    evalCompare path op (.number x) value = .ok false := by
  rw [evalCompare_ordered h]
  rcases hv with rfl | rfl <;> rfl

theorem evalCompare_mismatched (h : c.Mismatched m) :
    evalCompare c.path c.op c.right (m.resolve? c.path) = .error (c.mismatch m) := by
  obtain ⟨path, op, lit⟩ := c
  obtain ⟨hop, hfound⟩ := h
  rw [evalCompare_ordered hop, Comparison.mismatch]
  cases lit with
  | string | boolean | null => rfl
  | number x =>
    rcases hfound with hlit | ⟨v, hv, hnull, hnumber⟩
    · exact absurd rfl (hlit x)
    · dsimp only at hv
      rw [hv, Comparison.found, hv]
      cases v with
      | null => exact absurd rfl hnull
      | number n => exact absurd rfl (hnumber n)
      | bool | string | array | object => rfl

theorem exists_evalCompare (h : ¬ c.Mismatched m) :
    ∃ b, evalCompare c.path c.op c.right (m.resolve? c.path) = .ok b := by
  obtain ⟨path, op, lit⟩ := c
  cases hop : op.isOrdered with
  | false => exact evalCompare_unordered path lit _ hop
  | true =>
    rw [evalCompare_ordered hop]
    cases lit with
    | string | boolean | null => exact absurd ⟨hop, .inl (by simp)⟩ h
    | number x =>
      cases hv : m.resolve? path with
      | none => exact ⟨_, rfl⟩
      | some v =>
        cases v with
        | null => exact ⟨_, rfl⟩
        | number n => exact ⟨_, rfl⟩
        | bool | string | array | object => exact absurd ⟨hop, .inr ⟨_, hv, by simp, by simp⟩⟩ h

/-- A comparison that is not mismatched can be decided, and no other can. -/
theorem not_mismatched_iff : ¬ c.Mismatched m ↔
    ∃ b, evalCompare c.path c.op c.right (m.resolve? c.path) = .ok b := by
  refine ⟨exists_evalCompare, ?_⟩
  rintro ⟨b, hb⟩ h
  cases hb.symm.trans (evalCompare_mismatched h)

/-! Conditions -/

theorem Decides.eval_eq (h : e.Decides m asked b) : eval m e = .ok b := by
  induction h with
  | always | never => rfl
  | compare hb => exact hb
  | conjFalse _ ih => rw [eval, ih]
  | conjTrue _ _ ihl ihr => rw [eval, ihl, ← ihr]
  | disjTrue _ ih => rw [eval, ih]
  | disjFalse _ _ ihl ihr => rw [eval, ihl, ← ihr]
  | neg _ ih => rw [eval, ih, Except.map]

/-- Whatever was decided on the way is not mismatched. -/
theorem Decides.not_mismatched (h : e.Decides m asked b) : ∀ d ∈ asked, ¬ d.Mismatched m := by
  induction h with
  | always | never => exact List.forall_mem_nil _
  | compare hb => exact List.forall_mem_singleton.2 (not_mismatched_iff.2 ⟨_, hb⟩)
  | conjFalse _ ih | disjTrue _ ih | neg _ ih => exact ih
  | conjTrue _ _ ihl ihr | disjFalse _ _ ihl ihr => exact List.forall_mem_append.2 ⟨ihl, ihr⟩

theorem Reaches.not_mismatched (h : e.Reaches m before c) : ∀ d ∈ before, ¬ d.Mismatched m := by
  induction h with
  | compare => exact List.forall_mem_nil _
  | conjLeft _ ih | disjLeft _ ih | neg _ ih => exact ih
  | conjRight hl _ ih | disjRight hl _ ih => exact List.forall_mem_append.2 ⟨hl.not_mismatched, ih⟩

/-- Evaluation goes no further than to a comparison that is mismatched. -/
theorem Reaches.eval_eq (h : e.Reaches m before c) (hc : c.Mismatched m) : eval m e = .error (c.mismatch m) := by
  induction h with
  | compare => exact evalCompare_mismatched hc
  | conjLeft _ ih => rw [eval, ih hc]
  | conjRight hl _ ih => rw [eval, hl.eval_eq, ← ih hc]
  | disjLeft _ ih => rw [eval, ih hc]
  | disjRight hl _ ih => rw [eval, hl.eval_eq, ← ih hc]
  | neg _ ih => rw [eval, ih hc, Except.map]

/-- Evaluation comes to an answer or to a comparison that is mismatched. -/
theorem exists_decides_or_reaches (m : Message) (e : Expression) :
    (∃ asked b, e.Decides m asked b) ∨ ∃ before c, e.Reaches m before c ∧ c.Mismatched m := by
  induction e with
  | always => exact .inl ⟨_, _, .always⟩
  | never => exact .inl ⟨_, _, .never⟩
  | compare path op lit =>
    by_cases hc : (⟨path, op, lit⟩ : Comparison).Mismatched m
    · exact .inr ⟨_, _, .compare, hc⟩
    · obtain ⟨b, hb⟩ := exists_evalCompare hc
      exact .inl ⟨_, _, .compare hb⟩
  | conj left right ihl ihr =>
    rcases ihl with ⟨asked, b, hl⟩ | ⟨before, c, hl, hc⟩
    · cases b with
      | false => exact .inl ⟨_, _, .conjFalse hl⟩
      | true =>
        rcases ihr with ⟨rest, b, hr⟩ | ⟨before, c, hr, hc⟩
        · exact .inl ⟨_, _, .conjTrue hl hr⟩
        · exact .inr ⟨_, _, .conjRight hl hr, hc⟩
    · exact .inr ⟨_, _, .conjLeft hl, hc⟩
  | disj left right ihl ihr =>
    rcases ihl with ⟨asked, b, hl⟩ | ⟨before, c, hl, hc⟩
    · cases b with
      | true => exact .inl ⟨_, _, .disjTrue hl⟩
      | false =>
        rcases ihr with ⟨rest, b, hr⟩ | ⟨before, c, hr, hc⟩
        · exact .inl ⟨_, _, .disjFalse hl hr⟩
        · exact .inr ⟨_, _, .disjRight hl hr, hc⟩
    · exact .inr ⟨_, _, .disjLeft hl, hc⟩
  | neg inner ih =>
    rcases ih with ⟨asked, b, h⟩ | ⟨before, c, h, hc⟩
    · exact .inl ⟨_, _, .neg h⟩
    · exact .inr ⟨_, _, .neg h, hc⟩

theorem eval_eq_ok_iff : eval m e = .ok b ↔ ∃ asked, e.Decides m asked b := by
  refine ⟨fun h => ?_, fun ⟨asked, h⟩ => h.eval_eq⟩
  rcases exists_decides_or_reaches m e with ⟨asked, b', hd⟩ | ⟨before, c, hr, hc⟩
  · cases h.symm.trans hd.eval_eq
    exact ⟨asked, hd⟩
  · cases h.symm.trans (hr.eval_eq hc)

theorem eval_eq_error_iff : eval m e = .error err ↔
    ∃ before c, e.Reaches m before c ∧ c.Mismatched m ∧ c.mismatch m = err := by
  constructor
  · intro h
    rcases exists_decides_or_reaches m e with ⟨asked, b, hd⟩ | ⟨before, c, hr, hc⟩
    · cases h.symm.trans hd.eval_eq
    · exact ⟨before, c, hr, hc, Except.error.inj ((hr.eval_eq hc).symm.trans h)⟩
  · rintro ⟨before, c, hr, hc, rfl⟩
    exact hr.eval_eq hc

/-- A condition cannot be decided if and only if evaluation, from left to right and no further than the answer is
open, comes to a comparison that asks for an order where there is none. The failure is a mismatch that names the
path and the operator of the first such comparison; whatever was looked at before it could be decided. In all
other cases the answer is the one that the comparisons looked at lead to. Equality, inequality and `contains` can
always be decided, and where there is nothing or null to compare with a number, the order does not hold. -/
theorem eval_fails_at_mismatch (m : Message) (e : Expression) :
    ((∃ err, eval m e = .error err) ↔ ∃ before c, e.Reaches m before c ∧ c.Mismatched m) ∧
    (∀ before c, e.Reaches m before c → c.Mismatched m →
      (∀ d ∈ before, ¬ d.Mismatched m) ∧
        eval m e = .error (.typeMismatch c.path c.op c.right.text (c.found m))) ∧
    (∀ b, eval m e = .ok b ↔ ∃ asked, e.Decides m asked b) ∧
    (∀ path op lit, op = .eq ∨ op = .notEq ∨ op = .contains →
      ∃ b, eval m (.compare path op lit) = .ok b) ∧
    ∀ path op x, op.isOrdered → m.resolve? path = none ∨ m.resolve? path = some .null →
      eval m (.compare path op (.number x)) = .ok false := by
  refine ⟨?fails, ?first, fun b => eval_eq_ok_iff, ?unordered, ?blank⟩
  case fails =>
    constructor
    · rintro ⟨err, herr⟩
      obtain ⟨before, c, hr, hc, -⟩ := eval_eq_error_iff.1 herr
      exact ⟨before, c, hr, hc⟩
    · rintro ⟨before, c, hr, hc⟩
      exact ⟨_, hr.eval_eq hc⟩
  case first =>
    intro before c hr hc
    exact ⟨hr.not_mismatched, hr.eval_eq hc⟩
  case unordered =>
    intro path op lit hop
    exact evalCompare_unordered path lit _ (by rcases hop with rfl | rfl | rfl <;> rfl)
  case blank =>
    intro path op x hop hv
    exact evalCompare_blank hop hv

/-- A comparison that is not reached does no harm. -/
example (m : Message) : eval m (.conj .never (.compare "x" .greater (.string "five"))) = .ok false := rfl

end Expression
end MessageFlow
