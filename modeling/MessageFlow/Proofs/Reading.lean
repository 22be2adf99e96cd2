import MessageFlow.Condition.Reader
import MessageFlow.Proofs.Except

/-!
How a condition is read, rule by rule. Blanks at the ends do not count, and parentheses around the whole text
are taken off. Then the text is cut at the first `or`, else at the first `and`, else behind a leading `not`;
what is left is a comparison. The rules relate exactly the texts and conditions that reading relates.
-/

namespace MessageFlow
namespace Expression

/-- Text that has to be cut into parts: no parentheses wrap it, and it is no constant. -/
structure Composite (s : List Char) : Prop where
  ne_nil : s ≠ []
  unwrapped : unwrap s = none
  ne_true : s ≠ "true".toList
  ne_false : s ≠ "false".toList

/-- A text that is read as a condition. -/
inductive Reads : List Char → Expression → Prop
  | parens {text inner : List Char} {e : Expression} :
      unwrap (Text.trim text) = some inner → Reads inner e → Reads text e
  | always {text : List Char} : Text.trim text = "true".toList → Reads text .always
  | never {text : List Char} : Text.trim text = "false".toList → Reads text .never
  | or {text l r : List Char} {left right : Expression} :
      Composite (Text.trim text) → splitTop " or ".toList 0 none (Text.trim text) = some (l, r) →
      Reads l left → Reads r right → Reads text (.disj left right)
  | and {text l r : List Char} {left right : Expression} :
      Composite (Text.trim text) → splitTop " or ".toList 0 none (Text.trim text) = none →
      splitTop " and ".toList 0 none (Text.trim text) = some (l, r) →
      Reads l left → Reads r right → Reads text (.conj left right)
  | not {text rest : List Char} {inner : Expression} :
      Composite (Text.trim text) → splitTop " or ".toList 0 none (Text.trim text) = none →
      splitTop " and ".toList 0 none (Text.trim text) = none → negated? (Text.trim text) = some rest →
      Reads rest inner → Reads text (.neg inner)
  | comparison {text : List Char} {e : Expression} :
      Composite (Text.trim text) → splitTop " or ".toList 0 none (Text.trim text) = none →
      splitTop " and ".toList 0 none (Text.trim text) = none → negated? (Text.trim text) = none →
      Expression.comparison (Text.trim text) operators = .ok e → Reads text e

variable {text s : List Char} {e : Expression} {ops : List (List Char × CompareOp)}

/-- Reading, without what the recursion keeps for its measure. -/
theorem ofChars_eq (text : List Char) : ofChars text =
    let s := Text.trim text
    if s = [] then .error (.parse "condition" "")
    else match unwrap s with
    | some inner => ofChars inner
    | none =>
      if s = "true".toList then .ok .always
      else if s = "false".toList then .ok .never
      else match splitTop " or ".toList 0 none s with
      | some (l, r) => do
        let left ← ofChars l
        let right ← ofChars r
        return .disj left right
      | none =>
        match splitTop " and ".toList 0 none s with
        | some (l, r) => do
          let left ← ofChars l
          let right ← ofChars r
          return .conj left right
        | none =>
          match negated? s with
          | some rest => (ofChars rest).map .neg
          | none => comparison s operators := by
  rw [ofChars]
  dsimp only
  split
  · rfl
  · split
    · next hw => rw [hw]
    · next hw =>
      rw [hw]
      dsimp only
      split
      · rfl
      · split
        · rfl
        · split
          · next ho => rw [ho]
          · next ho =>
            rw [ho]
            dsimp only
            split
            · next ha => rw [ha]
            · next ha =>
              rw [ha]
              dsimp only
              split
              · next hn => rw [hn]
              · next hn => rw [hn]

theorem ne_nil_of_unwrap {inner : List Char} (h : unwrap s = some inner) : s ≠ [] := by
  rintro rfl
  cases h

/-- The rules lead to what reading returns. -/
theorem Reads.ofChars_eq (h : Reads text e) : ofChars text = .ok e := by
  induction h with
  | parens hw _ ih =>
    rw [Expression.ofChars_eq]
    simp only [ne_nil_of_unwrap hw, hw, ih, if_false]
  | always ht =>
    rw [Expression.ofChars_eq, ht]
    rfl
  | never ht =>
    rw [Expression.ofChars_eq, ht]
    rfl
  | or hc ho _ _ ihl ihr =>
    rw [Expression.ofChars_eq]
    simp only [hc.ne_nil, hc.unwrapped, hc.ne_true, hc.ne_false, ho, ihl, ihr, if_false]
    rfl
  | and hc ho ha _ _ ihl ihr =>
    rw [Expression.ofChars_eq]
    simp only [hc.ne_nil, hc.unwrapped, hc.ne_true, hc.ne_false, ho, ha, ihl, ihr, if_false]
    rfl
  | not hc ho ha hn _ ih =>
    rw [Expression.ofChars_eq]
    simp only [hc.ne_nil, hc.unwrapped, hc.ne_true, hc.ne_false, ho, ha, hn, ih, if_false]
    rfl
  | comparison hc ho ha hn he =>
    rw [Expression.ofChars_eq]
    simp only [hc.ne_nil, hc.unwrapped, hc.ne_true, hc.ne_false, ho, ha, hn, he, if_false]

/-- What is read is read by the rules. -/
theorem reads_of_ofChars (h : ofChars text = .ok e) : Reads text e := by
  fun_induction ofChars text generalizing e
  case case1 => cases h
  case case2 hw ih => exact .parens hw (ih h)
  case case3 ht =>
    cases h
    exact .always ht
  case case4 ht =>
    cases h
    exact .never ht
  case case5 hs hw ht hf l r ho ihl ihr =>
    obtain ⟨left, hl, h⟩ := bind_eq_ok_iff.1 h
    obtain ⟨right, hr, h⟩ := bind_eq_ok_iff.1 h
    cases h
    exact .or ⟨hs, hw, ht, hf⟩ ho (ihl hl) (ihr hr)
  case case6 hs hw ht hf ho l r ha ihl ihr =>
    obtain ⟨left, hl, h⟩ := bind_eq_ok_iff.1 h
    obtain ⟨right, hr, h⟩ := bind_eq_ok_iff.1 h
    cases h
    exact .and ⟨hs, hw, ht, hf⟩ ho ha (ihl hl) (ihr hr)
  case case7 hs hw ht hf ho ha rest hn ih =>
    obtain ⟨inner, hi, rfl⟩ := map_eq_ok_iff.1 h
    exact .not ⟨hs, hw, ht, hf⟩ ho ha hn (ih hi)
  case case8 hs hw ht hf ho ha hn => exact .comparison ⟨hs, hw, ht, hf⟩ ho ha hn h

/-- A comparison is cut at the first operator, in the order in which they are looked for. -/
theorem comparison_eq_ok (h : comparison s ops = .ok e) :
    ∃ needle op left right lit, (needle, op) ∈ ops ∧ splitTop needle 0 none s = some (left, right) ∧
      literal right = .ok lit ∧ e = .compare (String.ofList (Text.trim left)) op lit := by
  induction ops with
  | nil => cases h
  | cons entry others ih =>
    obtain ⟨needle, op⟩ := entry
    rw [comparison] at h
    split at h
    · obtain ⟨needle', op', left, right, lit, hmem, hrest⟩ := ih h
      exact ⟨needle', op', left, right, lit, List.mem_cons_of_mem _ hmem, hrest⟩
    · next left right hs =>
      dsimp only at h
      split at h
      · cases h
      · obtain ⟨lit, hlit, rfl⟩ := map_eq_ok_iff.1 h
        exact ⟨needle, op, left, right, lit, List.mem_cons_self, hs, hlit, rfl⟩

end Expression
end MessageFlow
