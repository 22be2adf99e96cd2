import MessageFlow.Proofs.Evaluation

/-!
Nothing and null. A place that is not there and a place that holds null are the same to a condition, unless it
asks for `contains`: wherever a path leads, comparisons see at most what kind of value is there, and they see
nothing as null.
-/

namespace MessageFlow

namespace Json

/-- Somewhere in the value, an object gains a member that it did not have, and this member is null. -/
inductive GainsNull : Json → Json → Prop
  | here {members : List (String × Json)} {name : String} :
      Dict.find name members = none → GainsNull (.object members) (.object (Dict.put name .null members))
  | member {members : List (String × Json)} {name : String} {v w : Json} :
      Dict.find name members = some v → GainsNull v w →
      GainsNull (.object members) (.object (Dict.put name w members))
  | item {items : List Json} {i : Nat} {v w : Json} :
      items[i]? = some v → GainsNull v w → GainsNull (.array items) (.array (items.set i w))

/-- What a comparison sees of the value at the end of a path. -/
def outline : Option Json → Json
  | none => .null
  | some (.array _) => .array []
  | some (.object _) => .object []
  | some v => v

/-- Wherever a path leads from here, the same is seen. -/
def Indistinct (v w : Option Json) : Prop :=
  ∀ parts, outline (v.bind (Message.follow · parts)) = outline (w.bind (Message.follow · parts))

variable {v w : Json} {name : String} {members : List (String × Json)}

theorem indistinct_refl (v : Option Json) : Indistinct v v := fun _ => rfl

theorem indistinct_none_null : Indistinct none (some .null) := by
  intro parts
  cases parts <;> rfl

/-- Values of one kind are indistinct when all steps from them are. -/
theorem indistinct_of_descend (houtline : outline (some v) = outline (some w))
    (h : ∀ part, Indistinct (Message.descend v part) (Message.descend w part)) : Indistinct (some v) (some w) := by
  intro parts
  cases parts with
  | nil => exact houtline
  | cons part rest => exact h part rest

/-- What a change at one name means for a look-up of any name. -/
theorem indistinct_find_put (h : Indistinct (Dict.find name members) (some w)) (other : String) :
    Indistinct (Dict.find other members) (Dict.find other (Dict.put name w members)) := by
  rw [Dict.find_put]
  split
  · next heq => exact heq ▸ h
  · exact indistinct_refl _

theorem indistinct_getElem?_set {items : List Json} {i : Nat} (hi : items[i]? = some v)
    (h : Indistinct (some v) (some w)) (j : Nat) : Indistinct items[j]? (items.set i w)[j]? := by
  obtain ⟨hlt, -⟩ := List.getElem?_eq_some_iff.1 hi
  rw [List.getElem?_set]
  split
  · next heq => rwa [← heq, hi]
  · exact indistinct_refl _

theorem GainsNull.indistinct (h : v.GainsNull w) : Indistinct (some v) (some w) := by
  induction h with
  | here hnone =>
    exact indistinct_of_descend rfl (indistinct_find_put (hnone ▸ indistinct_none_null))
  | member hv _ ih =>
    exact indistinct_of_descend rfl (indistinct_find_put (hv ▸ ih))
  | @item items i v w hi _ ih =>
    refine indistinct_of_descend rfl fun part => ?_
    rw [Message.descend, Message.descend]
    cases Text.count? part.toList with
    | none => exact indistinct_refl none
    | some j => exact indistinct_getElem?_set hi ih j

theorem GainsNull.member? (h : v.GainsNull w) (name : String) : Indistinct (v.member? name) (w.member? name) := by
  cases h with
  | here hnone => exact indistinct_find_put (hnone ▸ indistinct_none_null) name
  | member hv hvw => exact indistinct_find_put (hv ▸ hvw.indistinct) name
  | item => exact indistinct_refl none

end Json

namespace Message
variable {m n : Message}

/-- One null more: in an object of the body or of a header, or as a header. -/
inductive GainsNull (m : Message) : Message → Prop
  | body {v : Json} : m.body.GainsNull v → GainsNull m (m.setBody v)
  | inHeader {name : String} {v w : Json} :
      m.header? name = some v → v.GainsNull w → GainsNull m (m.setHeader name w)
  | header {name : String} : m.header? name = none → GainsNull m (m.setHeader name .null)

/-- The same is seen along all paths into the messages. -/
structure Indistinct (m n : Message) : Prop where
  body : Json.Indistinct (some m.body) (some n.body)
  member (name : String) : Json.Indistinct (m.body.member? name) (n.body.member? name)
  header (name : String) : Json.Indistinct (m.header? name) (n.header? name)

theorem indistinct_setHeader {name : String} {w : Json} (h : Json.Indistinct (m.header? name) (some w)) :
    m.Indistinct (m.setHeader name w) where
  body := Json.indistinct_refl _
  member _ := Json.indistinct_refl _
  header other := by
    rw [header?_setHeader]
    split
    · next heq => exact heq ▸ h
    · exact Json.indistinct_refl _

theorem GainsNull.indistinct (h : m.GainsNull n) : m.Indistinct n := by
  cases h with
  | body hv => exact ⟨hv.indistinct, hv.member?, fun _ => Json.indistinct_refl _⟩
  | inHeader hv hvw => exact indistinct_setHeader (hv ▸ hvw.indistinct)
  | header hnone => exact indistinct_setHeader (hnone ▸ Json.indistinct_none_null)

theorem Indistinct.outline_resolve? (h : m.Indistinct n) (path : String) :
    Json.outline (m.resolve? path) = Json.outline (n.resolve? path) := by
  unfold resolve?
  split
  · rfl
  · next first rest _ =>
    split
    · cases rest with
      | nil => rfl
      | cons name rest => exact h.header name rest
    · split
      · exact h.body rest
      · exact h.member first rest

end Message

namespace Expression
variable {m n : Message} {e : Expression} {path : String} {op : CompareOp} {lit : Literal} {v w : Option Json}
  {r s t : Except PredicateError Bool}

/-- The comparisons that a condition is made of. -/
def comparisons : Expression → List Comparison
  | .always | .never => []
  | .compare path op lit => [⟨path, op, lit⟩]
  | .conj left right | .disj left right => left.comparisons ++ right.comparisons
  | .neg inner => inner.comparisons

/-- The same answer, or a mismatch at the same path and with the same operator. -/
inductive SameVerdict : Except PredicateError Bool → Except PredicateError Bool → Prop
  | decided (b : Bool) : SameVerdict (.ok b) (.ok b)
  | mismatched (path : String) (op : CompareOp) (expected found found' : String) :
      SameVerdict (.error (.typeMismatch path op expected found)) (.error (.typeMismatch path op expected found'))

theorem SameVerdict.symm (h : SameVerdict r s) : SameVerdict s r := by
  cases h with
  | decided => exact .decided _
  | mismatched => exact .mismatched ..

theorem SameVerdict.trans (h : SameVerdict r s) (h' : SameVerdict s t) : SameVerdict r t := by
  cases h with
  | decided => exact h'
  | mismatched =>
    cases h' with
    | mismatched => exact .mismatched ..

theorem valueEq_outline (v : Option Json) (lit : Literal) : valueEq (some (Json.outline v)) lit = valueEq v lit := by
  cases v with
  | none => cases lit <;> rfl
  | some v => cases v <;> rfl

theorem compareOrdered_outline (path : String) (op : CompareOp) (lit : Literal) (v : Option Json) :
    SameVerdict (compareOrdered path op lit v) (compareOrdered path op lit (some (Json.outline v))) := by
  cases lit with
  | string | boolean | null => exact .mismatched ..
  | number x =>
    cases v with
    | none => exact .decided _
    | some v =>
      cases v with
      | null | number => exact .decided _
      | bool | string | array | object => exact .mismatched ..

/-- But for `contains`, comparisons decide on what they see of a value. -/
theorem evalCompare_outline (path : String) (lit : Literal) (v : Option Json) (h : op ≠ .contains) :
    SameVerdict (evalCompare path op lit v) (evalCompare path op lit (some (Json.outline v))) := by
  cases op with
  | contains => exact absurd rfl h
  | eq | notEq =>
    simp only [evalCompare, valueEq_outline]
    exact .decided _
  | greater | greaterEq | less | lessEq => exact compareOrdered_outline path _ lit v

theorem evalCompare_sameVerdict (h : Json.outline v = Json.outline w) (hop : op ≠ .contains) :
    SameVerdict (evalCompare path op lit v) (evalCompare path op lit w) :=
  (evalCompare_outline path lit v hop).trans (h ▸ (evalCompare_outline path lit w hop).symm)

/-- Where the same is seen along all paths, conditions without `contains` come to the same verdict. -/
theorem eval_sameVerdict (h : m.Indistinct n) (hop : ∀ c ∈ e.comparisons, c.op ≠ .contains) :
    SameVerdict (eval m e) (eval n e) := by
  induction e with
  | always | never => exact .decided _
  | compare path op lit =>
    exact evalCompare_sameVerdict (h.outline_resolve? path) (hop _ List.mem_cons_self)
  | conj left right ihl ihr =>
    obtain ⟨hleft, hright⟩ := List.forall_mem_append.1 hop
    have hl := ihl hleft
    rw [eval, eval]
    generalize eval m left = x, eval n left = y at hl ⊢
    cases hl with
    | decided b =>
      cases b with
      | true => exact ihr hright
      | false => exact .decided _
    | mismatched => exact .mismatched ..
  | disj left right ihl ihr =>
    obtain ⟨hleft, hright⟩ := List.forall_mem_append.1 hop
    have hl := ihl hleft
    rw [eval, eval]
    generalize eval m left = x, eval n left = y at hl ⊢
    cases hl with
    | decided b =>
      cases b with
      | true => exact .decided _
      | false => exact ihr hright
    | mismatched => exact .mismatched ..
  | neg inner ih =>
    have hi := ih hop
    rw [eval, eval]
    generalize eval m inner = x, eval n inner = y at hi ⊢
    cases hi with
    | decided => exact .decided _
    | mismatched => exact .mismatched ..

/-- Conditions without `contains` do not tell apart what is missing and what is null: where a message gains a null,
in an object of the body or of a header or as a header, the answer stays the same, and so do the path and the
operator of a mismatch. -/
theorem eval_gaining_null (h : m.GainsNull n) (hop : ∀ c ∈ e.comparisons, c.op ≠ .contains) :
    SameVerdict (eval m e) (eval n e) :=
  eval_sameVerdict h.indistinct hop

/-- An order of which the price of a line may be missing. -/
def orderOf (line : List (String × Json)) : Message where
  id := ⟨0⟩
  createdAt := ⟨0, 0⟩
  body := .object [("lines", .array [.object line])]

/-- The price is missing or null, and a line is no number, whether it shows a price or not. -/
def unpriced : Expression :=
  .conj (.compare "lines.0.price" .eq .null) (.compare "lines.0" .greater (.number (.finite ⟨false, 0⟩)))

theorem eval_gaining_null_price :
    (orderOf [("sku", .string "a")]).GainsNull (orderOf [("price", .null), ("sku", .string "a")]) ∧
      (∀ c ∈ unpriced.comparisons, c.op ≠ .contains) ∧
      SameVerdict (eval (orderOf [("sku", .string "a")]) unpriced)
        (eval (orderOf [("price", .null), ("sku", .string "a")]) unpriced) := by
  have hline : Json.GainsNull (.object [("sku", .string "a")])
      (.object [("price", .null), ("sku", .string "a")]) := @Json.GainsNull.here _ "price" rfl
  have hgains : (orderOf [("sku", .string "a")]).GainsNull (orderOf [("price", .null), ("sku", .string "a")]) :=
    .body (@Json.GainsNull.member _ "lines" _ _ rfl (@Json.GainsNull.item _ 0 _ _ rfl hline))
  have hop : ∀ c ∈ unpriced.comparisons, c.op ≠ .contains := by decide
  exact ⟨hgains, hop, eval_gaining_null hgains hop⟩

end Expression
end MessageFlow
