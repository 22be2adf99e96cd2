/-!
Directed graphs over named vertices. Vertices are numbered in the order in which they were added; the
successors of a vertex stand in the order in which they were first connected, each of them once. The numbers are
unbounded; a store that keeps them in 32 bits numbers its vertices alike as long as it has no more than 2 ^ 32.
-/

namespace MessageFlow

/-- A vertex: its name, the vertices that its edges lead to, and how many vertices lead to it. -/
structure Vertex where
  name : String
  successors : List Nat := []
  inDegree : Nat := 0
deriving DecidableEq, Inhabited

structure Arena where
  vertices : List Vertex := []
deriving DecidableEq, Inhabited

namespace Arena
variable {a b : Arena} {i j : Nat} {s : String}

def size (a : Arena) : Nat := a.vertices.length

/-- The number of the vertex of a name. -/
def find? (a : Arena) (name : String) : Option Nat := a.vertices.findIdx? (fun v => v.name = name)

def name (a : Arena) (i : Nat) : String := (a.vertices[i]?.map Vertex.name).getD ""

def successors (a : Arena) (i : Nat) : List Nat := (a.vertices[i]?.map Vertex.successors).getD []

def inDegree (a : Arena) (i : Nat) : Nat := (a.vertices[i]?.map Vertex.inDegree).getD 0

/-- Add a vertex under a new name; a name that is taken is refused. -/
def insert? (a : Arena) (name : String) : Option Arena :=
  match a.find? name with
  | some _ => none
  | none => some ⟨a.vertices ++ [{ name }]⟩

/-- Connect two vertices. An edge that is already there stays as it is. -/
def connect (a : Arena) (i j : Nat) : Arena :=
  if j ∈ a.successors i then a
  else
    ⟨(a.vertices.modify i (fun v => { v with successors := v.successors ++ [j] })).modify j
      (fun v => { v with inDegree := v.inDegree + 1 })⟩

/-- The vertices that no edge leads to, in the order in which they were added. -/
def roots (a : Arena) : List Nat := (List.range a.size).filter (fun i => a.inDegree i = 0)

/-- The names of the vertices, in the order of their numbers. -/
def names (a : Arena) : List String := a.vertices.map Vertex.name

@[simp] theorem length_names : a.names.length = a.size := List.length_map _

theorem find?_eq_findIdx? : a.find? s = a.names.findIdx? (fun n => n = s) := by
  simp [find?, names, List.findIdx?_map, Function.comp_def]

theorem name_eq (a : Arena) (i : Nat) : a.name i = (a.names[i]?).getD "" := by
  simp [name, names]

theorem find?_eq_none_iff : a.find? s = none ↔ s ∉ a.names := by
  rw [find?_eq_findIdx?, List.findIdx?_eq_none_iff]
  constructor
  · intro h hm
    simpa using h s hm
  · intro h n hm
    simp only [decide_eq_false_iff_not]
    rintro rfl
    exact h hm

theorem names_of_find? (h : a.find? s = some i) : a.names[i]? = some s := by
  rw [find?_eq_findIdx?, List.findIdx?_eq_some_iff_getElem] at h
  obtain ⟨hi, hs, -⟩ := h
  rw [List.getElem?_eq_getElem hi]
  simpa using hs

theorem lt_size_of_find? (h : a.find? s = some i) : i < a.size := by
  rw [← length_names]
  exact (List.getElem?_eq_some_iff.1 (names_of_find? h)).1

/-- Where no name is given twice, a name belongs to one number. -/
theorem find?_eq_some_iff (hn : a.names.Nodup) : a.find? s = some i ↔ a.names[i]? = some s := by
  constructor
  · exact names_of_find?
  · intro h
    cases hf : a.find? s with
    | none => exact absurd (List.mem_of_getElem? h) (find?_eq_none_iff.1 hf)
    | some j =>
      have hj := names_of_find? hf
      have hi := (List.getElem?_eq_some_iff.1 h).1
      rw [(List.getElem?_inj hi hn).1 (h.trans hj.symm)]

theorem connect_of_mem (h : j ∈ a.successors i) : a.connect i j = a := by simp [connect, h]

/-- What a new edge does to a vertex. -/
theorem getElem?_connect (h : j ∉ a.successors i) (k : Nat) :
    (a.connect i j).vertices[k]? = a.vertices[k]?.map (fun v =>
      { v with
        successors := if i = k then v.successors ++ [j] else v.successors
        inDegree := if j = k then v.inDegree + 1 else v.inDegree }) := by
  simp only [connect, if_neg h, List.getElem?_modify]
  cases a.vertices[k]? with
  | none => rfl
  | some v => by_cases hi : i = k <;> by_cases hj : j = k <;> simp [hi, hj]

@[simp] theorem names_connect : (a.connect i j).names = a.names := by
  by_cases h : j ∈ a.successors i
  · rw [connect_of_mem h]
  · apply List.ext_getElem?
    intro k
    simp only [names, List.getElem?_map, getElem?_connect h, Option.map_map]
    rfl

/-- A new edge puts its end behind the successors of its start. -/
theorem successors_connect {k : Nat} (hi : i < a.size) : (a.connect i j).successors k =
    a.successors k ++ if k = i ∧ j ∉ a.successors i then [j] else [] := by
  by_cases h : j ∈ a.successors i
  · simp [connect_of_mem h, h]
  · simp only [successors, getElem?_connect h]
    by_cases hk : i = k
    · subst hk
      have hj : j ∉ a.vertices[i].successors := by
        simpa [successors, List.getElem?_eq_getElem hi] using h
      simp [List.getElem?_eq_getElem hi, hj]
    · cases a.vertices[k]? <;> simp [hk, Ne.symm hk]

theorem mem_successors_connect {k l : Nat} (hi : i < a.size) :
    l ∈ (a.connect i j).successors k ↔ l ∈ a.successors k ∨ (k = i ∧ l = j) := by
  rw [successors_connect hi, List.mem_append]
  by_cases h : k = i ∧ j ∉ a.successors i
  · simp [h]
  · rw [if_neg h]
    constructor
    · rintro (hl | hl)
      · exact .inl hl
      · cases hl
    · rintro (hl | ⟨rfl, rfl⟩)
      · exact .inl hl
      · exact .inl (by simpa using h)

/-- Connecting never repeats a successor. -/
theorem nodup_successors_connect {k : Nat} (hi : i < a.size) (hn : (a.successors k).Nodup) :
    ((a.connect i j).successors k).Nodup := by
  rw [successors_connect hi]
  split
  · next h =>
    obtain ⟨rfl, hj⟩ := h
    refine List.nodup_append.2 ⟨hn, by simp, fun l hl r hr he => ?_⟩
    rw [he, List.mem_singleton.1 hr] at hl
    exact hj hl
  · rwa [List.append_nil]

theorem inDegree_connect {k : Nat} (hj : j < a.size) :
    (a.connect i j).inDegree k = a.inDegree k + if k = j ∧ j ∉ a.successors i then 1 else 0 := by
  by_cases h : j ∈ a.successors i
  · simp [connect_of_mem h, h]
  · simp only [inDegree, getElem?_connect h]
    by_cases hk : j = k
    · subst hk
      simp [List.getElem?_eq_getElem hj, h]
    · cases a.vertices[k]? <;> simp [hk, Ne.symm hk]

theorem insert?_eq_some_iff :
    a.insert? s = some b ↔ s ∉ a.names ∧ b = ⟨a.vertices ++ [{ name := s }]⟩ := by
  unfold insert?
  cases hf : a.find? s with
  | none => simp [find?_eq_none_iff.1 hf, eq_comm]
  | some i => simp [List.mem_of_getElem? (names_of_find? hf)]

end Arena
end MessageFlow
