/-!
Finite maps from names to values, kept in the order of their names. The order is part of the type, so
two maps that answer every look-up alike are equal, and every traversal visits names in one order.
-/

namespace MessageFlow

/-- A finite map whose entries stand in strictly increasing order of their names. -/
structure Dict (α : Type) where
  entries : List (String × α)
  sorted : entries.Pairwise (fun a b => a.1 < b.1)

namespace Dict
variable {α β : Type} {k l : String} {v : α} {es : List (String × α)}

/-- The value stored under a name in a list of entries. -/
def find (k : String) : List (String × α) → Option α
  | [] => none
  | (l, v) :: rest => if k = l then some v else find k rest

/-- Put an entry at its place, replacing the one of the same name. -/
def put (k : String) (v : α) : List (String × α) → List (String × α)
  | [] => [(k, v)]
  | (l, w) :: rest =>
    if k < l then (k, v) :: (l, w) :: rest
    else if k = l then (k, v) :: rest
    else (l, w) :: put k v rest

theorem mem_put {e : String × α} : e ∈ put k v es → e = (k, v) ∨ e ∈ es := by
  induction es with
  | nil => simp [put]
  | cons f rest ih =>
    simp only [put]
    split
    · simp
    · split <;> simp only [List.mem_cons]
      · exact fun h => h.elim Or.inl (fun h => Or.inr (Or.inr h))
      · rintro (h | h)
        · exact Or.inr (Or.inl h)
        · exact (ih h).imp_right Or.inr

theorem sorted_put (h : es.Pairwise (fun a b => a.1 < b.1)) :
    (put k v es).Pairwise (fun a b => a.1 < b.1) := by
  induction es with
  | nil => simp [put]
  | cons f rest ih =>
    obtain ⟨hf, hr⟩ := List.pairwise_cons.1 h
    simp only [put]
    split
    · next hlt =>
      refine List.pairwise_cons.2 ⟨fun e he => ?_, h⟩
      rcases List.mem_cons.1 he with rfl | he
      · exact hlt
      · exact String.lt_trans hlt (hf e he)
    · next hnlt =>
      split
      · next heq => exact List.pairwise_cons.2 ⟨fun e he => heq ▸ hf e he, hr⟩
      · next hne =>
        refine List.pairwise_cons.2 ⟨fun e he => ?_, ih hr⟩
        rcases mem_put he with rfl | he
        · show f.1 < k
          grind
        · exact hf e he

/-- The map without entries. -/
def empty : Dict α := ⟨[], .nil⟩

instance : EmptyCollection (Dict α) := ⟨empty⟩
instance : Inhabited (Dict α) := ⟨empty⟩

instance [BEq α] : BEq (Dict α) := ⟨fun d e => d.entries == e.entries⟩

instance [DecidableEq α] : DecidableEq (Dict α) := fun d e =>
  if h : d.entries = e.entries then
    .isTrue (by cases d; cases e; simp_all)
  else
    .isFalse (fun he => h (by rw [he]))

def get? (d : Dict α) (k : String) : Option α := find k d.entries

def contains (d : Dict α) (k : String) : Bool := (d.get? k).isSome

def insert (d : Dict α) (k : String) (v : α) : Dict α := ⟨put k v d.entries, sorted_put d.sorted⟩

def erase (d : Dict α) (k : String) : Dict α :=
  ⟨d.entries.filter (fun e => e.1 ≠ k), d.sorted.filter _⟩

def map (f : α → β) (d : Dict α) : Dict β :=
  ⟨d.entries.map (fun e => (e.1, f e.2)), by
    simpa [List.pairwise_map] using d.sorted⟩

/-- Entries given in any order; of two under one name the later stays. -/
def ofList (es : List (String × α)) : Dict α := es.foldl (fun d e => d.insert e.1 e.2) empty

def toList (d : Dict α) : List (String × α) := d.entries
def keys (d : Dict α) : List String := d.entries.map (·.1)
def values (d : Dict α) : List α := d.entries.map (·.2)
def size (d : Dict α) : Nat := d.entries.length
def isEmpty (d : Dict α) : Bool := d.entries.isEmpty

@[ext] theorem ext {d e : Dict α} (h : d.entries = e.entries) : d = e := by
  cases d; cases e; simp_all

@[simp] theorem get?_empty : (empty : Dict α).get? k = none := rfl

theorem find_put : find l (put k v es) = if l = k then some v else find l es := by
  induction es with
  | nil => simp [put, find]
  | cons f rest ih =>
    simp only [put]
    split
    · grind [find]
    · split <;> grind [find]

@[simp] theorem get?_insert {d : Dict α} :
    (d.insert k v).get? l = if l = k then some v else d.get? l := find_put

theorem find_filter_ne : find l (es.filter (fun e => e.1 ≠ k)) = if l = k then none else find l es := by
  induction es with
  | nil => simp [find]
  | cons f rest ih => grind [find]

@[simp] theorem get?_erase {d : Dict α} :
    (d.erase k).get? l = if l = k then none else d.get? l := find_filter_ne

@[simp] theorem get?_map {f : α → β} {d : Dict α} : (d.map f).get? k = (d.get? k).map f := by
  show find k (d.entries.map (fun e => (e.1, f e.2))) = (find k d.entries).map f
  induction d.entries with
  | nil => rfl
  | cons e rest ih =>
    simp only [List.map_cons, find]
    split
    · rfl
    · exact ih

@[simp] theorem keys_map {f : α → β} {d : Dict α} : (d.map f).keys = d.keys := by
  simp [keys, map]

theorem nodup_keys (d : Dict α) : (d.entries.map (·.1)).Nodup := by
  rw [List.Nodup, List.pairwise_map]
  exact d.sorted.imp String.ne_of_lt

theorem find_eq_some_iff (h : (es.map (·.1)).Nodup) : find k es = some v ↔ (k, v) ∈ es := by
  induction es with
  | nil => simp [find]
  | cons e rest ih =>
    obtain ⟨hn, hr⟩ := List.nodup_cons.1 h
    have hk : (k, v) ∈ rest → k ≠ e.1 := by
      rintro hm rfl
      exact hn (List.mem_map.2 ⟨_, hm, rfl⟩)
    grind [find]

theorem get?_eq_some_iff {d : Dict α} : d.get? k = some v ↔ (k, v) ∈ d.toList := find_eq_some_iff d.nodup_keys

theorem exists_of_mem_keys {d : Dict α} (h : k ∈ d.keys) : ∃ v, d.get? k = some v := by
  obtain ⟨⟨l, v⟩, he, rfl⟩ := List.mem_map.1 h
  exact ⟨v, get?_eq_some_iff.2 he⟩

/-- With one entry for each name, the order of the entries does not matter. -/
theorem find_perm {fs : List (String × α)} (h : es.Perm fs) (hn : (es.map (·.1)).Nodup) :
    find k es = find k fs := by
  have hm : (fs.map (·.1)).Nodup := (h.map _).nodup_iff.1 hn
  apply Option.ext
  intro v
  rw [find_eq_some_iff hn, find_eq_some_iff hm, h.mem_iff]

/-- Maps that answer every look-up alike are equal. -/
theorem ext_get? {d e : Dict α} (h : ∀ k, d.get? k = e.get? k) : d = e := by
  have hm : ∀ a, a ∈ d.entries ↔ a ∈ e.entries := by
    intro a
    rw [← find_eq_some_iff d.nodup_keys, ← find_eq_some_iff e.nodup_keys]
    exact iff_of_eq (congrArg (· = some a.2) (h a.1))
  have hp : d.entries.Perm e.entries := by
    apply (List.perm_ext_iff_of_nodup _ _).2 hm
    · exact List.Pairwise.of_map _ (fun _ _ h he => h (congrArg _ he)) d.nodup_keys
    · exact List.Pairwise.of_map _ (fun _ _ h he => h (congrArg _ he)) e.nodup_keys
  apply Dict.ext
  apply hp.eq_of_pairwise _ d.sorted e.sorted
  intro a b _ _ hab hba
  exact (String.lt_asymm hab hba).elim

theorem find_eq_none_iff : find k es = none ↔ k ∉ es.map (·.1) := by
  induction es with
  | nil => simp [find]
  | cons e rest ih =>
    rw [find, List.map_cons, List.mem_cons, not_or]
    split
    · next hk => simp [hk]
    · next hk => simp [hk, ih]

theorem get?_foldl_insert {d : Dict α} (hn : (es.map (·.1)).Nodup) :
    (es.foldl (fun d e => d.insert e.1 e.2) d).get? k = (find k es).or (d.get? k) := by
  induction es generalizing d with
  | nil => rfl
  | cons e rest ih =>
    obtain ⟨hnot, hrest⟩ := List.nodup_cons.1 hn
    rw [List.foldl_cons, ih hrest, get?_insert, find]
    by_cases hk : k = e.1
    · have hnone : find k rest = none := find_eq_none_iff.2 (hk ▸ hnot)
      rw [if_pos hk, if_pos hk, hnone, Option.none_or, Option.some_or]
    · rw [if_neg hk, if_neg hk]

/-- A map is made of its own entries. -/
theorem ofList_toList (d : Dict α) : ofList d.toList = d := by
  apply ext_get?
  intro k
  exact (get?_foldl_insert d.nodup_keys).trans Option.or_none

theorem mem_or_mem_of_mem_foldl_insert {d : Dict α} {e : String × α}
    (h : e ∈ (es.foldl (fun d e => d.insert e.1 e.2) d).toList) : e ∈ d.toList ∨ e ∈ es := by
  induction es generalizing d with
  | nil => exact .inl h
  | cons f rest ih =>
    rw [List.foldl_cons] at h
    rcases ih h with h | h
    · rcases mem_put h with rfl | h
      · exact .inr List.mem_cons_self
      · exact .inl h
    · exact .inr (List.mem_cons_of_mem _ h)

theorem mem_of_mem_ofList {e : String × α} (h : e ∈ (ofList es).toList) : e ∈ es := by
  rcases mem_or_mem_of_mem_foldl_insert h with h | h
  · cases h
  · exact h

theorem map_insert {f : α → β} {d : Dict α} : (d.insert k v).map f = (d.map f).insert k (f v) := by
  apply ext_get?
  intro l
  rw [get?_map, get?_insert, get?_insert, get?_map]
  split <;> rfl

theorem map_erase {f : α → β} {d : Dict α} : (d.erase k).map f = (d.map f).erase k := by
  apply ext_get?
  intro l
  rw [get?_map, get?_erase, get?_erase, get?_map]
  split <;> rfl

end Dict
end MessageFlow
