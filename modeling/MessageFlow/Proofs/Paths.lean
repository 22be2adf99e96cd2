import MessageFlow.Message.Basic

/-!
Paths into messages. A path without a root of its own starts at the body, and so does a path that says `body`
first. The two are the same, but for one case: at the body itself, a bare path asks for a member and not for an
item.
-/

namespace MessageFlow

theorem Text.split_append {sep : Char} {l : String} (r : String) (h : sep ∉ l.toList) :
    split sep (l ++ String.singleton sep ++ r) = l :: split sep r := by
  simp [split, pieces_append h]

namespace Message
variable {m : Message} {v : Json} {path first : String} {rest : List String}

/-- The path has no root of its own. -/
def Bare (path : String) : Prop :=
  (Text.split '.' path).head? ∉ [some "headers", some "header", some "body"]

instance : Decidable (Bare path) := inferInstanceAs (Decidable (_ ∉ _))

/-- The path leads into an item of a body that is an array: its first part is the index of the item, and the other
parts lead from the item to `v`. -/
def LeadsIntoItem (m : Message) (path : String) (v : Json) : Prop :=
  ∃ items first rest i item, m.body = .array items ∧ Text.split '.' path = first :: rest ∧
    Text.count? first.toList = some i ∧ items[i]? = some item ∧ follow item rest = some v

theorem LeadsIntoItem.body_eq (h : m.LeadsIntoItem path v) : ∃ items, m.body = .array items := by
  obtain ⟨items, -, -, -, -, hbody, -⟩ := h
  exact ⟨items, hbody⟩

theorem exists_split (path : String) : ∃ first rest, Text.split '.' path = first :: rest := by
  have hne : Text.split '.' path ≠ [] := by
    rw [Text.split, ne_eq, List.map_eq_nil_iff]
    exact Text.pieces_ne_nil
  exact List.exists_cons_of_ne_nil hne

theorem resolve?_body (m : Message) (path : String) :
    m.resolve? ("body." ++ path) = follow m.body (Text.split '.' path) := by
  have hroot : "body." = "body" ++ String.singleton '.' := rfl
  rw [resolve?, hroot, Text.split_append path (by decide)]
  rfl

theorem resolve?_bare (h : Bare path) (hsplit : Text.split '.' path = first :: rest) :
    m.resolve? path = (m.body.member? first).bind (follow · rest) := by
  rw [Bare, hsplit] at h
  simp only [List.head?_cons, List.mem_cons, Option.some.injEq, List.not_mem_nil, or_false, not_or] at h
  obtain ⟨hheaders, hheader, hbody⟩ := h
  simp [resolve?, hsplit, hheaders, hheader, hbody]

/-- But for items, one step of a path is a look-up of a member. -/
theorem descend_eq_member? (part : String) (h : ∀ items, v ≠ .array items) : descend v part = v.member? part := by
  cases v with
  | array items => exact absurd rfl (h items)
  | null | bool | number | string | object => rfl

theorem resolve?_bare_eq (h : Bare path) (hbody : ∀ items, m.body ≠ .array items) :
    m.resolve? path = m.resolve? ("body." ++ path) := by
  obtain ⟨first, rest, hsplit⟩ := exists_split path
  rw [resolve?_bare h hsplit, resolve?_body, hsplit, follow, descend_eq_member? first hbody]

/-- A bare path leads nowhere in a body that is an array. -/
theorem resolve?_bare_array {items : List Json} (h : Bare path) (hbody : m.body = .array items) :
    m.resolve? path = none := by
  obtain ⟨first, rest, hsplit⟩ := exists_split path
  rw [resolve?_bare h hsplit, hbody]
  rfl

theorem resolve?_body_eq_some_iff {items : List Json} (hbody : m.body = .array items) :
    m.resolve? ("body." ++ path) = some v ↔ m.LeadsIntoItem path v := by
  obtain ⟨first, rest, hsplit⟩ := exists_split path
  rw [resolve?_body, hsplit, hbody, follow, descend, Option.bind_eq_some_iff]
  constructor
  · rintro ⟨item, hdescend, hfollow⟩
    obtain ⟨i, hi, hitem⟩ := Option.bind_eq_some_iff.1 hdescend
    exact ⟨items, first, rest, i, item, hbody, hsplit, hi, hitem, hfollow⟩
  · rintro ⟨items', first', rest', i, item, hbody', hsplit', hi, hitem, hfollow⟩
    cases hbody.symm.trans hbody'
    cases hsplit.symm.trans hsplit'
    exact ⟨item, Option.bind_eq_some_iff.2 ⟨i, hi, hitem⟩, hfollow⟩

/-- A bare path and the same path behind `body` lead to the same, unless the body is an array and the path leads
into one of its items. Then the longer path leads there, and the bare one leads nowhere. -/
theorem resolve?_bare_iff (m : Message) (path : String) (h : Bare path) :
    ((∀ items, m.body ≠ .array items) → m.resolve? path = m.resolve? ("body." ++ path)) ∧
      (m.resolve? path = m.resolve? ("body." ++ path) ↔ ∀ v, ¬ m.LeadsIntoItem path v) ∧
      ∀ v, m.LeadsIntoItem path v → m.resolve? path = none ∧ m.resolve? ("body." ++ path) = some v := by
  have hinto : ∀ v, m.LeadsIntoItem path v →
      m.resolve? path = none ∧ m.resolve? ("body." ++ path) = some v := by
    intro v hv
    obtain ⟨items, hbody⟩ := hv.body_eq
    exact ⟨resolve?_bare_array h hbody, (resolve?_body_eq_some_iff hbody).2 hv⟩
  refine ⟨resolve?_bare_eq h, ⟨fun heq v hv => ?_, fun hnot => ?_⟩, hinto⟩
  · obtain ⟨hnone, hsome⟩ := hinto v hv
    cases hnone.symm.trans (heq.trans hsome)
  · by_cases hbody : ∃ items, m.body = .array items
    · obtain ⟨items, hbody⟩ := hbody
      rw [resolve?_bare_array h hbody]
      exact (Option.eq_none_iff_forall_ne_some.2 fun v hv => hnot v ((resolve?_body_eq_some_iff hbody).1 hv)).symm
    · exact resolve?_bare_eq h fun items hitems => hbody ⟨items, hitems⟩

/-- A message whose body is a list of order lines. -/
def orderLines : Message where
  id := ⟨0⟩
  createdAt := ⟨0, 0⟩
  body := .array [.object [("sku", .string "a")], .object [("sku", .string "b")]]

theorem resolve?_bare_iff_lines :
    Bare "1.sku" ∧ orderLines.LeadsIntoItem "1.sku" (.string "b") ∧
      orderLines.resolve? "1.sku" = none ∧ orderLines.resolve? ("body." ++ "1.sku") = some (.string "b") := by
  have hbare : Bare "1.sku" := by decide
  have hinto : orderLines.LeadsIntoItem "1.sku" (.string "b") :=
    ⟨_, "1", ["sku"], 1, _, rfl, rfl, rfl, rfl, rfl⟩
  exact ⟨hbare, hinto, (resolve?_bare_iff orderLines "1.sku" hbare).2.2 _ hinto⟩

/-- The two are different at the index of an order line. -/
theorem bare_index_misses_item :
    Bare "1" ∧ orderLines.resolve? "1" ≠ orderLines.resolve? ("body." ++ "1") := by
  have hbare : Bare "1" := by decide
  refine ⟨hbare, ?_⟩
  rw [resolve?_bare_array hbare rfl, ne_comm, Option.ne_none_iff_exists']
  exact ⟨_, (resolve?_body_eq_some_iff rfl).2 ⟨_, "1", [], 1, _, rfl, rfl, rfl, rfl, rfl⟩⟩

end Message
end MessageFlow
