/-!
Where the labelled edges of a graph lead: for each vertex and label the targets, in the order in which they
were noted, each of them once.
-/

namespace MessageFlow

/-- Targets by vertex and label. Of two rows with one key the one further ahead counts. -/
structure BranchTable where
  rows : List ((Nat × String) × List String) := []
deriving DecidableEq, Inhabited

namespace BranchTable
variable {t : BranchTable} {i j : Nat} {label other target : String}

/-- The targets under a label of a vertex, if any were noted. -/
def get? (t : BranchTable) (i : Nat) (label : String) : Option (List String) := t.rows.lookup (i, label)

/-- Note a target under a label of a vertex. One that is noted already stays where it is. -/
def note (t : BranchTable) (i : Nat) (label target : String) : BranchTable :=
  let targets := (t.get? i label).getD []
  if target ∈ targets then t else ⟨((i, label), targets ++ [target]) :: t.rows⟩

@[simp] theorem get?_empty : ({} : BranchTable).get? i label = none := rfl

theorem note_of_mem (h : target ∈ (t.get? i label).getD []) : t.note i label target = t := by
  simp [note, h]

/-- A new target comes behind those that its label has; other labels keep theirs. -/
theorem get?_note (h : target ∉ (t.get? i label).getD []) :
    (t.note i label target).get? j other =
      if j = i ∧ other = label then some ((t.get? i label).getD [] ++ [target]) else t.get? j other := by
  have hrow : t.note i label target = ⟨((i, label), (t.get? i label).getD [] ++ [target]) :: t.rows⟩ :=
    if_neg h
  rw [hrow, get?, List.lookup_cons]
  by_cases hk : j = i ∧ other = label
  · obtain ⟨rfl, rfl⟩ := hk
    simp
  · have hne : ((j, other) == (i, label)) = false := by simpa using hk
    rw [hne, if_neg hk]
    rfl

end BranchTable
end MessageFlow
