import Mathlib.Data.Finset.Card
import Mathlib.Data.Finset.Range
import MessageFlow.Proofs.Targets

/-!
Graphs as they are built, call by call. Names and edges may be given again, and vertices may be added between
edges. Whatever the calls, the graph says what they have asked for: each name and each successor once, in the order
in which they first came, and for each vertex the number of those that lead to it.
-/

namespace MessageFlow

/-- What is asked of a graph that is being built. -/
inductive ArenaCall where
  | insert (name : String)
  | connect (i j : Nat)
deriving DecidableEq

namespace ArenaCall

def name? : ArenaCall → Option String
  | .insert name => some name
  | .connect _ _ => none

/-- Where a call leads from a vertex. -/
def target? (i : Nat) : ArenaCall → Option Nat
  | .insert _ => none
  | .connect k j => if k = i then some j else none

/-- The names that calls have given, with repetitions. -/
def names (calls : List ArenaCall) : List String := calls.filterMap name?

/-- The vertices that calls have connected a vertex to, with repetitions. -/
def targets (calls : List ArenaCall) (i : Nat) : List Nat := calls.filterMap (target? i)

theorem mem_targets_iff {calls : List ArenaCall} {i j : Nat} : j ∈ targets calls i ↔ .connect i j ∈ calls := by
  rw [targets, List.mem_filterMap]
  constructor
  · rintro ⟨c, hc, ht⟩
    cases c with
    | insert name => cases ht
    | connect k l =>
      obtain ⟨rfl, rfl⟩ : k = i ∧ l = j := by simpa [target?] using ht
      exact hc
  · intro h
    exact ⟨_, h, by simp [target?]⟩

end ArenaCall

namespace Arena
variable {a b : Arena} {i j k : Nat} {s : String} {c : ArenaCall} {done calls : List ArenaCall}

/-- The graph after a call. A name that is taken changes nothing. -/
def perform (a : Arena) : ArenaCall → Arena
  | .insert name => (a.insert? name).getD a
  | .connect i j => a.connect i j

/-- Only vertices that are there may be connected. -/
def Permits (a : Arena) : ArenaCall → Prop
  | .insert _ => True
  | .connect i j => i < a.size ∧ j < a.size

instance : Decidable (a.Permits c) :=
  match c with
  | .insert _ => inferInstanceAs (Decidable True)
  | .connect _ _ => inferInstanceAs (Decidable (_ ∧ _))

/-- Each of the calls is permitted when its turn comes. -/
def PermitsAll (a : Arena) : List ArenaCall → Prop
  | [] => True
  | c :: rest => a.Permits c ∧ (a.perform c).PermitsAll rest

/-- A new graph after calls. -/
def afterCalls (calls : List ArenaCall) : Arena := calls.foldl perform {}

/-- The vertices that lead to a vertex. -/
def sources (a : Arena) (j : Nat) : Finset Nat := {i ∈ Finset.range a.size | j ∈ a.successors i}

theorem mem_sources_iff : i ∈ a.sources j ↔ i < a.size ∧ j ∈ a.successors i := by simp [sources]

/-! New vertices -/

theorem perform_insert (a : Arena) (s : String) :
    a.perform (.insert s) = if s ∈ a.names then a else ⟨a.vertices ++ [{ name := s }]⟩ := by
  change (a.insert? s).getD a = _
  split
  · next h =>
    have hnone : a.insert? s = none := by
      rw [Option.eq_none_iff_forall_ne_some]
      intro b hb
      exact (insert?_eq_some_iff.1 hb).1 h
    rw [hnone, Option.getD_none]
  · next h => rw [insert?_eq_some_iff.2 ⟨h, rfl⟩, Option.getD_some]

/-- What is asked of a vertex that is not there is answered as by a new one. -/
theorem getD_append_vertex {α : Type} (part : Vertex → α) (vertices : List Vertex) (v : Vertex) (i : Nat) :
    ((vertices ++ [v])[i]?.map part).getD (part v) = (vertices[i]?.map part).getD (part v) := by
  rw [List.getElem?_append]
  split
  · rfl
  · next h =>
    rw [List.getElem?_eq_none (Nat.le_of_not_lt h)]
    cases i - vertices.length <;> rfl

@[simp] theorem successors_perform_insert (a : Arena) (s : String) (i : Nat) :
    (a.perform (.insert s)).successors i = a.successors i := by
  rw [perform_insert]
  split
  · rfl
  · exact getD_append_vertex Vertex.successors a.vertices { name := s } i

@[simp] theorem inDegree_perform_insert (a : Arena) (s : String) (i : Nat) :
    (a.perform (.insert s)).inDegree i = a.inDegree i := by
  rw [perform_insert]
  split
  · rfl
  · exact getD_append_vertex Vertex.inDegree a.vertices { name := s } i

theorem names_perform_insert (a : Arena) (s : String) :
    (a.perform (.insert s)).names = a.names ++ if s ∉ a.names then [s] else [] := by
  rw [perform_insert]
  by_cases h : s ∈ a.names
  · rw [if_pos h, if_neg (not_not.2 h), List.append_nil]
  · rw [if_neg h, if_pos h, names, List.map_append]
    rfl

theorem size_le_perform_insert (a : Arena) (s : String) : a.size ≤ (a.perform (.insert s)).size := by
  rw [← length_names, ← length_names, names_perform_insert, List.length_append]
  exact Nat.le_add_right _ _

/-! New edges -/

@[simp] theorem size_connect : (a.connect i j).size = a.size := by
  rw [← length_names, names_connect, length_names]

/-- The sources with an edge more: a new edge adds its start to the sources of its end. -/
theorem card_sources_connect (hi : i < a.size) : ((a.connect i j).sources k).card =
    (a.sources k).card + if k = j ∧ j ∉ a.successors i then 1 else 0 := by
  split
  · next hnew =>
    obtain ⟨rfl, hnew⟩ := hnew
    have hsources : (a.connect i k).sources k = Insert.insert i (a.sources k) := by
      ext l
      rw [Finset.mem_insert, mem_sources_iff, mem_sources_iff, size_connect, mem_successors_connect hi]
      constructor
      · rintro ⟨hl, hk | ⟨rfl, -⟩⟩
        · exact .inr ⟨hl, hk⟩
        · exact .inl rfl
      · rintro (rfl | ⟨hl, hk⟩)
        · exact ⟨hi, .inr ⟨rfl, rfl⟩⟩
        · exact ⟨hl, .inl hk⟩
    rw [hsources, Finset.card_insert_of_notMem]
    rw [mem_sources_iff]
    exact fun hl => hnew hl.2
  · next hold =>
    rw [Nat.add_zero]
    congr 1
    ext l
    rw [mem_sources_iff, mem_sources_iff, size_connect, mem_successors_connect hi]
    constructor
    · rintro ⟨hl, hk | ⟨rfl, rfl⟩⟩
      · exact ⟨hl, hk⟩
      · -- the edge was there before
        exact ⟨hl, by simpa using hold⟩
    · rintro ⟨hl, hk⟩
      exact ⟨hl, .inl hk⟩

/-! What the graph says of the calls -/

/-- What a graph says is what these calls have asked for. -/
structure Reflects (a : Arena) (done : List ArenaCall) : Prop where
  names : a.names = (ArenaCall.names done).eraseDups
  successors : ∀ i, a.successors i = (ArenaCall.targets done i).eraseDups
  inside : ∀ i j, .connect i j ∈ done → i < a.size ∧ j < a.size
  inDegree : ∀ j, a.inDegree j = (a.sources j).card

theorem reflects_empty : Reflects {} [] where
  names := rfl
  successors _ := rfl
  inside _ _ h := absurd h List.not_mem_nil
  inDegree _ := rfl

namespace Reflects

theorem mem_successors_iff (h : a.Reflects done) : j ∈ a.successors i ↔ .connect i j ∈ done := by
  rw [h.successors, List.mem_eraseDups, ArenaCall.mem_targets_iff]

/-- A vertex that is not there has no successors, so it does not matter up to where the sources are looked for. -/
theorem sources_eq (h : a.Reflects done) (hsize : a.size ≤ b.size)
    (hsuccessors : ∀ i, b.successors i = a.successors i) : b.sources j = a.sources j := by
  ext i
  rw [mem_sources_iff, mem_sources_iff, hsuccessors]
  constructor
  · rintro ⟨-, hj⟩
    exact ⟨(h.inside i j (h.mem_successors_iff.1 hj)).1, hj⟩
  · rintro ⟨hi, hj⟩
    exact ⟨Nat.lt_of_lt_of_le hi hsize, hj⟩

/-- A name more. -/
theorem insert (h : a.Reflects done) (s : String) : (a.perform (.insert s)).Reflects (done ++ [.insert s]) where
  names := by
    have hgiven : ArenaCall.names (done ++ [.insert s]) = ArenaCall.names done ++ [s] := by
      simp [ArenaCall.names, ArenaCall.name?]
    rw [names_perform_insert, hgiven, eraseDups_concat, h.names]
  successors i := by
    have htargets : ArenaCall.targets (done ++ [.insert s]) i = ArenaCall.targets done i := by
      simp [ArenaCall.targets, ArenaCall.target?]
    rw [successors_perform_insert, htargets, h.successors]
  inside i j hc := by
    have hold := h.inside i j (by simpa using hc)
    have hgrows := a.size_le_perform_insert s
    exact ⟨Nat.lt_of_lt_of_le hold.1 hgrows, Nat.lt_of_lt_of_le hold.2 hgrows⟩
  inDegree j := by
    rw [inDegree_perform_insert, h.inDegree,
      h.sources_eq (a.size_le_perform_insert s) (a.successors_perform_insert s)]

/-- An edge more. -/
theorem connect (h : a.Reflects done) (hi : i < a.size) (hj : j < a.size) :
    (a.connect i j).Reflects (done ++ [.connect i j]) where
  names := by
    have hgiven : ArenaCall.names (done ++ [.connect i j]) = ArenaCall.names done := by
      simp [ArenaCall.names, ArenaCall.name?]
    rw [names_connect, hgiven, h.names]
  successors k := by
    rw [successors_connect hi, h.successors, h.successors]
    by_cases hk : k = i
    · subst hk
      have htargets : ArenaCall.targets (done ++ [.connect k j]) k = ArenaCall.targets done k ++ [j] := by
        simp [ArenaCall.targets, ArenaCall.target?]
      rw [htargets, eraseDups_concat]
      simp only [true_and]
    · have htargets : ArenaCall.targets (done ++ [.connect i j]) k = ArenaCall.targets done k := by
        simp [ArenaCall.targets, ArenaCall.target?, Ne.symm hk]
      rw [htargets, if_neg (fun hnew => hk hnew.1), List.append_nil]
  inside k l hc := by
    rw [size_connect]
    rcases List.mem_append.1 hc with hc | hc
    · exact h.inside k l hc
    · obtain ⟨rfl, rfl⟩ : k = i ∧ l = j := by simpa using hc
      exact ⟨hi, hj⟩
  inDegree k := by rw [inDegree_connect hj, card_sources_connect hi, h.inDegree]

/-- One call more. -/
theorem perform (h : a.Reflects done) (hc : a.Permits c) : (a.perform c).Reflects (done ++ [c]) := by
  cases c with
  | insert s => exact h.insert s
  | connect i j => exact h.connect hc.1 hc.2

/-- Any number of calls. -/
theorem performAll (h : a.Reflects done) (hc : a.PermitsAll calls) :
    (calls.foldl Arena.perform a).Reflects (done ++ calls) := by
  induction calls generalizing a done with
  | nil =>
    rw [List.append_nil]
    exact h
  | cons c rest ih =>
    have hrest := ih (h.perform hc.1) hc.2
    rwa [List.append_assoc] at hrest

theorem nodup_names (h : a.Reflects done) : a.names.Nodup := h.names ▸ nodup_eraseDups _

/-- A name and a number belong together in both directions. -/
theorem find?_eq_some_iff (h : a.Reflects done) : a.find? s = some i ↔ i < a.size ∧ a.name i = s := by
  rw [Arena.find?_eq_some_iff h.nodup_names, name_eq, ← length_names, List.getElem?_eq_some_iff]
  constructor
  · rintro ⟨hi, hs⟩
    exact ⟨hi, by rw [List.getElem?_eq_getElem hi, Option.getD_some, hs]⟩
  · rintro ⟨hi, hs⟩
    rw [List.getElem?_eq_getElem hi, Option.getD_some] at hs
    exact ⟨hi, hs⟩

theorem inDegree_eq_zero_iff (h : a.Reflects done) : a.inDegree j = 0 ↔ ∀ i, .connect i j ∉ done := by
  rw [h.inDegree, Finset.card_eq_zero, Finset.eq_empty_iff_forall_notMem]
  refine forall_congr' fun i => not_congr ?_
  rw [mem_sources_iff, h.mem_successors_iff]
  exact ⟨fun hi => hi.2, fun hc => ⟨(h.inside i j hc).1, hc⟩⟩

theorem mem_roots_iff (h : a.Reflects done) : j ∈ a.roots ↔ j < a.size ∧ ∀ i, .connect i j ∉ done := by
  rw [roots, List.mem_filter, List.mem_range, decide_eq_true_eq, h.inDegree_eq_zero_iff]

end Reflects

/-- The roots stand in the order of their numbers, which is that of their addition. -/
theorem sorted_roots (a : Arena) : a.roots.Pairwise (· < ·) := List.pairwise_lt_range.filter _

/-- A graph that is built by any calls from an empty one, each edge between vertices that are there, is consistent
in all that it says. Its names are those that were given, each once, in the order in which they first came; a name
is found at its own number and nowhere else. The successors of a vertex are those that it was connected to, each
once, in the order of the first connections, and all of them are there. The in-degree of a vertex is the number of
vertices that have it among their successors. The roots are, in the order of addition, the vertices that nothing
was connected to. -/
theorem afterCalls_reflects (calls : List ArenaCall) (h : PermitsAll {} calls) :
    let a := afterCalls calls
    (a.names.Nodup ∧ a.names = (ArenaCall.names calls).eraseDups) ∧
      ((∀ i < a.size, a.find? (a.name i) = some i) ∧
        ∀ s i, a.find? s = some i → i < a.size ∧ a.name i = s) ∧
      (∀ i, a.successors i = (ArenaCall.targets calls i).eraseDups ∧ (a.successors i).Nodup ∧
        ∀ j ∈ a.successors i, j < a.size) ∧
      (∀ j, a.inDegree j = (a.sources j).card) ∧
      a.roots.Pairwise (· < ·) ∧ ∀ j, j ∈ a.roots ↔ j < a.size ∧ ∀ i, .connect i j ∉ calls := by
  intro a
  have hr : a.Reflects calls := reflects_empty.performAll h
  refine ⟨⟨hr.nodup_names, hr.names⟩, ⟨?own, ?other⟩, ?successors, hr.inDegree, a.sorted_roots,
    fun j => hr.mem_roots_iff⟩
  case own =>
    intro i hi
    exact hr.find?_eq_some_iff.2 ⟨hi, rfl⟩
  case other =>
    intro s i hs
    exact hr.find?_eq_some_iff.1 hs
  case successors =>
    intro i
    refine ⟨hr.successors i, ?_, fun j hj => (hr.inside i j (hr.mem_successors_iff.1 hj)).2⟩
    rw [hr.successors]
    exact nodup_eraseDups _

/-- A name and an edge are given twice, a vertex is connected to itself, and one comes after the first edges. -/
theorem afterCalls_reflects_repeated :
    let calls : List ArenaCall := [.insert "a", .insert "b", .insert "a", .connect 0 1, .connect 1 1,
      .connect 0 1, .insert "c", .connect 0 2, .insert "d", .connect 0 1]
    PermitsAll {} calls ∧ (afterCalls calls).names = ["a", "b", "c", "d"] ∧
      (afterCalls calls).successors 0 = [1, 2] ∧ (afterCalls calls).inDegree 1 = 2 ∧
      3 ∈ (afterCalls calls).roots := by
  intro calls
  have hpermits : PermitsAll {} calls := by
    refine ⟨?_, ?_, ?_, ?_, ?_, ?_, ?_, ?_, ?_, ?_, trivial⟩ <;> decide
  obtain ⟨⟨-, hnames⟩, -, hsuccessors, hdegree, -, hroots⟩ := afterCalls_reflects calls hpermits
  refine ⟨hpermits, hnames, (hsuccessors 0).1, (hdegree 1).trans rfl, (hroots 3).2 ⟨by decide, ?_⟩⟩
  intro i
  simp [calls]

end Arena
end MessageFlow
