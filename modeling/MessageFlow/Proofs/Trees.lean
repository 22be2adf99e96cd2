import MessageFlow.DocumentNode
import MessageFlow.Proofs.Except

/-!
JSON values as texts have them, and what is read from texts. Reading puts the members of objects in order of their
names, so every value that was read is in order, and what was written comes back up to this order.
-/

namespace MessageFlow

namespace Json

mutual

/-- A value as JSON text has it. -/
def tree : Json → Tree
  | .null => .null
  | .bool b => .bool b
  | .number n => .number (some n)
  | .string s => .string (some s)
  | .array xs => .array (treeItems xs)
  | .object xs => .object (treeMembers xs)

def treeItems : List Json → List Tree
  | [] => []
  | x :: xs => x.tree :: treeItems xs

def treeMembers : List (String × Json) → List (Option String × Tree)
  | [] => []
  | (k, x) :: xs => (some k, x.tree) :: treeMembers xs

end

mutual

/-- How deeply arrays and objects stand inside each other. -/
def height : Json → Nat
  | .array xs => heightItems xs + 1
  | .object xs => heightMembers xs + 1
  | _ => 0

def heightItems : List Json → Nat
  | [] => 0
  | x :: xs => max x.height (heightItems xs)

def heightMembers : List (String × Json) → Nat
  | [] => 0
  | (_, x) :: xs => max x.height (heightMembers xs)

end

variable {v : Json} {xs : List Json} {members : List (String × Json)} {depth : Nat}

theorem treeItems_eq (xs : List Json) : treeItems xs = xs.map tree := by
  induction xs with
  | nil => rfl
  | cons x rest ih => rw [treeItems, ih, List.map_cons]

theorem treeMembers_eq (members : List (String × Json)) :
    treeMembers members = members.map (fun p => (some p.1, p.2.tree)) := by
  induction members with
  | nil => rfl
  | cons p rest ih => rw [treeMembers, ih, List.map_cons]

theorem sortedMembers_eq (members : List (String × Json)) :
    sortedMembers members = members.map (fun p => (p.1, p.2.sorted)) := by
  induction members with
  | nil => rfl
  | cons p rest ih => rw [sortedMembers, ih, List.map_cons]

theorem height_le_heightItems (h : v ∈ xs) : v.height ≤ heightItems xs := by
  induction xs with
  | nil => cases h
  | cons x rest ih =>
    rw [heightItems]
    rcases List.mem_cons.1 h with rfl | h
    · omega
    · have := ih h
      omega

theorem height_le_heightMembers {p : String × Json} (h : p ∈ members) : p.2.height ≤ heightMembers members := by
  induction members with
  | nil => cases h
  | cons q rest ih =>
    rw [heightMembers]
    rcases List.mem_cons.1 h with rfl | h
    · omega
    · have := ih h
      omega

/-- The items of an array that is nested not too deeply have one level less to go. -/
theorem height_lt_of_mem_array (hv : v ∈ xs) (h : (Json.array xs).height < depth) : v.height < depth - 1 := by
  have hle := height_le_heightItems hv
  rw [height] at h
  omega

theorem height_lt_of_mem_object {p : String × Json} (hp : p ∈ members) (h : (Json.object members).height < depth) :
    p.2.height < depth - 1 := by
  have hle := height_le_heightMembers hp
  rw [height] at h
  omega

theorem Tree.enter?_of_lt (h : 1 < depth) : Tree.enter? depth = some (depth - 1) := if_neg (by omega)

mutual

/-- A value that is not nested too deeply can be read back from its tree. -/
theorem value?_tree (v : Json) (depth : Nat) (h : v.height < depth) : v.tree.value? depth = some v.sorted := by
  cases v with
  | array xs =>
    rw [height] at h
    rw [tree, Tree.value?, Tree.enter?_of_lt (by omega), sorted]
    simp only [valueItems?_tree xs (depth - 1) (by omega), Option.map_some]
  | object xs =>
    rw [height] at h
    rw [tree, Tree.value?, Tree.enter?_of_lt (by omega), sorted]
    simp only [valueMembers?_tree xs (depth - 1) (by omega), Option.map_some]
  | _ => rfl

theorem valueItems?_tree (xs : List Json) (depth : Nat) (h : heightItems xs < depth) :
    Tree.valueItems? depth (treeItems xs) = some (sortedItems xs) := by
  cases xs with
  | nil => rfl
  | cons x rest =>
    rw [heightItems] at h
    simp [treeItems, Tree.valueItems?, sortedItems, value?_tree x depth (by omega),
      valueItems?_tree rest depth (by omega)]

theorem valueMembers?_tree (members : List (String × Json)) (depth : Nat) (h : heightMembers members < depth) :
    Tree.valueMembers? depth (treeMembers members) = some (sortedMembers members) := by
  cases members with
  | nil => rfl
  | cons p rest =>
    rw [heightMembers] at h
    simp [treeMembers, Tree.valueMembers?, sortedMembers, value?_tree p.2 depth (by omega),
      valueMembers?_tree rest depth (by omega)]

end

/-! Values at places of a text -/

/-- The place of a value below which so many levels of nesting are allowed. -/
def place (v : Json) (depth : Nat) : Place := ⟨v.tree, depth⟩

/-- The members of an object at their places. -/
def placed (members : List (String × Json)) (depth : Nat) : List (String × Place) :=
  members.map (fun p => (p.1, p.2.place depth))

theorem below?_place (h : 0 < v.height) (hdepth : v.height < depth) : (v.place depth).below? = some (depth - 1) := by
  have hlt : 1 < depth := by omega
  exact Tree.enter?_of_lt hlt

theorem members?_place (h : (Json.object members).height < depth) :
    ((Json.object members).place depth).members? = some (placed members (depth - 1)) := by
  have hbelow : ((Json.object members).place depth).below? = some (depth - 1) :=
    below?_place (Nat.succ_pos _) h
  have hnamed : Place.named? (depth - 1) (treeMembers members) = some (placed members (depth - 1)) := by
    rw [Place.named?, mapM_eq_some_iff, treeMembers_eq, placed, List.map_map, List.map_map]
    rfl
  exact Option.bind_eq_some_iff.2 ⟨_, hbelow, hnamed⟩

theorem items?_place (h : (Json.array xs).height < depth) :
    DocumentNode.items? ((Json.array xs).place depth) = some (xs.map (fun v => v.place (depth - 1))) := by
  have hbelow : ((Json.array xs).place depth).below? = some (depth - 1) := below?_place (Nat.succ_pos _) h
  refine Option.map_eq_some_iff.2 ⟨_, hbelow, ?_⟩
  rw [treeItems_eq, List.map_map]
  rfl

end Json

/-! Values in order -/

/-- Values as readers build them: the members of their objects stand in order of their names. -/
def Dict.InOrder (d : Dict Json) : Prop := ∀ p ∈ d.toList, p.2.sorted = p.2

theorem Dict.InOrder.ofList {es : List (String × Json)} (h : ∀ p ∈ es, p.2.sorted = p.2) :
    (Dict.ofList es).InOrder := by
  intro p hp
  exact h p (Dict.mem_of_mem_ofList hp)

theorem sorted_ofDict {d : Dict Json} (h : d.InOrder) : (Json.ofDict d).sorted = .ofDict d := by
  have hmembers : Json.sortedMembers d.entries = d.entries := by
    rw [Json.sortedMembers_eq]
    calc d.entries.map (fun p => (p.1, p.2.sorted))
      _ = d.entries.map id := List.map_congr_left (fun p hp => Prod.ext rfl (h p hp))
      _ = d.entries := List.map_id _
  rw [Json.ofDict, Json.sorted, Json.ofMembers, hmembers]
  exact congrArg Json.ofDict d.ofList_toList

namespace Json

mutual

/-- Values that are read from texts are in order. -/
theorem sorted_of_value? {t : Tree} {depth : Nat} {v : Json} (h : t.value? depth = some v) : v.sorted = v := by
  cases t with
  | array ts =>
    rw [Tree.value?] at h
    split at h
    · obtain ⟨xs, hxs, rfl⟩ := Option.map_eq_some_iff.1 h
      rw [sorted, sorted_of_valueItems? hxs]
    · cases h
  | object ts =>
    rw [Tree.value?] at h
    split at h
    · obtain ⟨members, hmembers, rfl⟩ := Option.map_eq_some_iff.1 h
      exact sorted_ofDict (.ofList (sorted_of_valueMembers? hmembers))
    · cases h
  | null =>
    cases h
    rfl
  | bool b =>
    cases h
    rfl
  | number n =>
    obtain ⟨n, -, rfl⟩ := Option.map_eq_some_iff.1 h
    rfl
  | string s =>
    obtain ⟨s, -, rfl⟩ := Option.map_eq_some_iff.1 h
    rfl

theorem sorted_of_valueItems? {ts : List Tree} {depth : Nat} {xs : List Json}
    (h : Tree.valueItems? depth ts = some xs) : sortedItems xs = xs := by
  cases ts with
  | nil =>
    cases h
    rfl
  | cons t rest =>
    simp only [Tree.valueItems?, Option.bind_eq_bind, Option.bind_eq_some_iff, Option.pure_def,
      Option.some.injEq] at h
    obtain ⟨v, hv, vs, hvs, rfl⟩ := h
    rw [sortedItems, sorted_of_value? hv, sorted_of_valueItems? hvs]

theorem sorted_of_valueMembers? {ts : List (Option String × Tree)} {depth : Nat} {members : List (String × Json)}
    (h : Tree.valueMembers? depth ts = some members) : ∀ p ∈ members, p.2.sorted = p.2 := by
  cases ts with
  | nil =>
    cases h
    exact nofun
  | cons t rest =>
    simp only [Tree.valueMembers?, Option.bind_eq_bind, Option.bind_eq_some_iff, Option.pure_def,
      Option.some.injEq] at h
    obtain ⟨name, hname, v, hv, vs, hvs, rfl⟩ := h
    exact List.forall_mem_cons.2 ⟨sorted_of_value? hv, sorted_of_valueMembers? hvs⟩

end

end Json

open DocumentNode in
theorem inOrder_of_values? {p : Json.Place} {d : Dict Json} (h : values? p = some d) : d.InOrder := by
  obtain ⟨_, -, h⟩ := Option.bind_eq_some_iff.1 h
  obtain ⟨es, hes, h⟩ := Option.bind_eq_some_iff.1 h
  cases h
  apply Dict.InOrder.ofList
  intro e he
  obtain ⟨_, -, he⟩ := exists_of_mem_mapM hes he
  obtain ⟨v, hv, he⟩ := Option.bind_eq_some_iff.1 he
  cases he
  exact Json.sorted_of_value? hv

end MessageFlow
