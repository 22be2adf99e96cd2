import MessageFlow.Flow.Definition
import MessageFlow.Graph.Arena

/-!
Graphs built from lists of edges. The edges are connected one after another; what counts afterwards is only
which edges there are.
-/

namespace MessageFlow

namespace Arena
variable {a : Arena} {e : Edge} {edges : List Edge} {i j : Nat}

/-- The ends of an edge are these vertices. -/
structure Ends (a : Arena) (e : Edge) (i j : Nat) : Prop where
  source : a.find? e.source = some i
  target : a.find? e.target = some j

/-- Connect the ends of an edge, if both are there. -/
def link (a : Arena) (e : Edge) : Arena :=
  match a.find? e.source, a.find? e.target with
  | some i, some j => a.connect i j
  | _, _ => a

/-- A vertex has an in-degree if and only if some edge leads to it. -/
def Counted (a : Arena) : Prop := ∀ j, 0 < a.inDegree j ↔ ∃ i, j ∈ a.successors i

theorem Ends.unique {k l : Nat} (h : a.Ends e i j) (h' : a.Ends e k l) : k = i ∧ l = j :=
  ⟨Option.some.inj (h'.source.symm.trans h.source), Option.some.inj (h'.target.symm.trans h.target)⟩

/-- Linking is connecting the ends, or nothing. -/
theorem link_cases (a : Arena) (e : Edge) :
    (∃ i j, a.Ends e i j ∧ a.link e = a.connect i j) ∨ (∀ i j, ¬ a.Ends e i j) ∧ a.link e = a := by
  unfold link
  cases hs : a.find? e.source with
  | none => exact .inr ⟨fun i j h => absurd (hs.symm.trans h.source) (by simp), rfl⟩
  | some i =>
    cases ht : a.find? e.target with
    | none => exact .inr ⟨fun i j h => absurd (ht.symm.trans h.target) (by simp), rfl⟩
    | some j => exact .inl ⟨i, j, ⟨hs, ht⟩, rfl⟩

theorem link_of_ends (h : a.Ends e i j) : a.link e = a.connect i j := by
  rw [link, h.source, h.target]

theorem names_link (a : Arena) (e : Edge) : (a.link e).names = a.names := by
  obtain ⟨i, j, -, he⟩ | ⟨-, he⟩ := a.link_cases e
  · rw [he, names_connect]
  · rw [he]

theorem ends_iff_of_names {b : Arena} (h : b.names = a.names) : b.Ends e i j ↔ a.Ends e i j := by
  have hf (s : String) : b.find? s = a.find? s := by rw [find?_eq_findIdx?, find?_eq_findIdx?, h]
  constructor
  · rintro ⟨hs, ht⟩
    exact ⟨(hf _).symm.trans hs, (hf _).symm.trans ht⟩
  · rintro ⟨hs, ht⟩
    exact ⟨(hf _).trans hs, (hf _).trans ht⟩

theorem mem_successors_link : j ∈ (a.link e).successors i ↔ j ∈ a.successors i ∨ a.Ends e i j := by
  obtain ⟨k, l, hkl, he⟩ | ⟨hn, he⟩ := a.link_cases e
  · rw [he, mem_successors_connect (lt_size_of_find? hkl.source)]
    constructor
    · rintro (h | ⟨rfl, rfl⟩)
      · exact .inl h
      · exact .inr hkl
    · rintro (h | h)
      · exact .inl h
      · exact .inr (hkl.unique h)
  · rw [he]
    exact ⟨.inl, fun h => h.resolve_right (hn i j)⟩

theorem Counted.inDegree_eq_zero_iff (h : a.Counted) : a.inDegree j = 0 ↔ ∀ i, j ∉ a.successors i := by
  rw [← not_exists, ← h j, Nat.pos_iff_ne_zero, Decidable.not_not]

theorem Counted.link (h : a.Counted) (e : Edge) : (a.link e).Counted := by
  intro j
  simp only [mem_successors_link]
  obtain ⟨k, l, hkl, he⟩ | ⟨hn, he⟩ := a.link_cases e
  · rw [he, inDegree_connect (lt_size_of_find? hkl.target)]
    by_cases hj : j = l ∧ l ∉ a.successors k
    · rw [if_pos hj]
      obtain ⟨rfl, -⟩ := hj
      exact ⟨fun _ => ⟨k, .inr hkl⟩, fun _ => Nat.succ_pos _⟩
    · rw [if_neg hj, Nat.add_zero, h j]
      constructor
      · rintro ⟨i, hi⟩
        exact ⟨i, .inl hi⟩
      · rintro ⟨i, hi | hi⟩
        · exact ⟨i, hi⟩
        · -- the edge was there before
          obtain ⟨rfl, rfl⟩ := hkl.unique hi
          exact ⟨i, by simpa using hj⟩
  · rw [he, h j]
    constructor
    · rintro ⟨i, hi⟩
      exact ⟨i, .inl hi⟩
    · rintro ⟨i, hi⟩
      exact ⟨i, hi.resolve_right (hn i j)⟩

theorem nodup_successors_link (hn : (a.successors i).Nodup) (e : Edge) :
    ((a.link e).successors i).Nodup := by
  obtain ⟨k, l, hkl, he⟩ | ⟨-, he⟩ := a.link_cases e
  · rw [he]
    exact nodup_successors_connect (lt_size_of_find? hkl.source) hn
  · rwa [he]

/-- Connect the ends of edges, one edge after another. -/
def linked (a : Arena) (edges : List Edge) : Arena := edges.foldl link a

theorem names_linked (a : Arena) (edges : List Edge) : (a.linked edges).names = a.names := by
  induction edges generalizing a with
  | nil => rfl
  | cons e rest ih => exact (ih (a.link e)).trans (a.names_link e)

/-- The successors are the ends of the edges. -/
theorem mem_successors_linked :
    j ∈ (a.linked edges).successors i ↔ j ∈ a.successors i ∨ ∃ e ∈ edges, a.Ends e i j := by
  induction edges generalizing a with
  | nil => simp [linked]
  | cons e rest ih =>
    have hends (d : Edge) : (a.link e).Ends d i j ↔ a.Ends d i j := ends_iff_of_names (a.names_link e)
    have hstep : j ∈ (a.linked (e :: rest)).successors i ↔
        j ∈ (a.link e).successors i ∨ ∃ d ∈ rest, (a.link e).Ends d i j := ih
    rw [hstep, mem_successors_link]
    simp only [hends, List.mem_cons, exists_eq_or_imp, or_assoc]

theorem Counted.linked (h : a.Counted) (edges : List Edge) : (a.linked edges).Counted := by
  induction edges generalizing a with
  | nil => exact h
  | cons e rest ih => exact ih (h.link e)

theorem nodup_successors_linked (hn : (a.successors i).Nodup) (edges : List Edge) :
    ((a.linked edges).successors i).Nodup := by
  induction edges generalizing a with
  | nil => exact hn
  | cons e rest ih => exact ih (nodup_successors_link hn e)

/-- The vertices of names, without edges. -/
def ofNames (names : List String) : Arena := ⟨names.map (fun name => { name })⟩

@[simp] theorem names_ofNames (names : List String) : (ofNames names).names = names := by
  simp [ofNames, Arena.names, Function.comp_def]

@[simp] theorem successors_ofNames (names : List String) (i : Nat) : (ofNames names).successors i = [] := by
  rw [successors, ofNames, List.getElem?_map]
  cases names[i]? <;> rfl

theorem counted_ofNames (names : List String) : (ofNames names).Counted := by
  intro j
  have hd : (ofNames names).inDegree j = 0 := by
    rw [inDegree, ofNames, List.getElem?_map]
    cases names[j]? <;> rfl
  simp [hd]

end Arena

end MessageFlow
