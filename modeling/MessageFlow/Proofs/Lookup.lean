import MessageFlow.Proofs.Identifier
import MessageFlow.Proofs.Registration

/-!
Stages looked up by their ids. A registry looks for an id in the flow that the id names before its first
separator; a flow may have registered its stages under any ids. What a flow holds under ids that name it is found,
and what it holds under others is not: nor is anything else found in its place.
-/

namespace MessageFlow

/-- The flow that an id names: what stands before its first separator. -/
def StageId.flow? (id : String) : Option String := (StageId.split? id).map Prod.fst

theorem StageId.flow?_qualify {flow : String} (h : namespaceSeparator ∉ flow.toList) (node : String) :
    StageId.flow? (StageId.qualify flow node) = some flow := by
  rw [StageId.flow?, StageId.split?_qualify h, Option.map_some]

namespace StageRegistry
variable {r : StageRegistry} {set : StageSet} {stage : Stage} {flow id : String}

theorem get?_eq_some_iff : r.get? id = some stage ↔
    ∃ flow set, StageId.flow? id = some flow ∧ r.flow? flow = some set ∧ set.get? id = some stage := by
  unfold get? StageId.flow?
  cases hsplit : StageId.split? id with
  | none => simp
  | some parts => simp [Option.bind_eq_some_iff]

theorem owns_of_flow? (hset : r.flow? flow = some set) (hid : set.get? id = some stage) : r.Owns flow id :=
  ⟨set, hset, StageSet.mem_ids_iff.2 (Option.isSome_iff_exists.2 ⟨stage, hid⟩)⟩

/-- An id that belongs to a flow is not found if it names another one or none: the flow that it names has no
stage under it. -/
theorem Apart.get?_eq_none (h : r.Apart) (ho : r.Owns flow id) (hn : StageId.flow? id ≠ some flow) :
    r.get? id = none := by
  rw [Option.eq_none_iff_forall_ne_some]
  intro stage hget
  obtain ⟨other, set, hnamed, hset, hid⟩ := get?_eq_some_iff.1 hget
  obtain rfl : flow = other := h flow other id ho (owns_of_flow? hset hid)
  exact hn hnamed

/-- After any calls on a new registry, a stage that some flow holds is found by its id if the id names this flow;
under another id nothing is found. So every stage is found that a flow holds under its own id, if that has no
separator, and the id of a node. Under an id that no flow has, nothing is found either. -/
theorem afterCalls_finds_named (calls : List RegistryCall) :
    let r := afterCalls calls
    (∀ flow set id stage, r.flow? flow = some set → set.get? id = some stage →
      r.get? id = if StageId.flow? id = some flow then some stage else none) ∧
      (∀ flow set node stage, namespaceSeparator ∉ flow.toList → r.flow? flow = some set →
        set.get? (StageId.qualify flow node) = some stage →
          r.get? (StageId.qualify flow node) = some stage) ∧
      ∀ id, (∀ flow, ¬ r.Owns flow id) → r.get? id = none := by
  intro r
  have hapart : r.Apart := afterCalls_apart calls
  refine ⟨?held, ?made, ?unheld⟩
  case held =>
    intro flow set id stage hset hid
    split
    · next hnamed => exact get?_eq_some_iff.2 ⟨flow, set, hnamed, hset, hid⟩
    · next hother => exact hapart.get?_eq_none (owns_of_flow? hset hid) hother
  case made =>
    intro flow set node stage hflow hset hid
    exact get?_eq_some_iff.2 ⟨flow, set, StageId.flow?_qualify hflow node, hset, hid⟩
  case unheld =>
    intro id hnone
    rw [Option.eq_none_iff_forall_ne_some]
    intro stage hget
    obtain ⟨flow, set, -, hset, hid⟩ := get?_eq_some_iff.1 hget
    exact hnone flow (owns_of_flow? hset hid)

/-- A flow with a separator in its id, and stages under an id that names no flow, one that names another flow, and
one that was meant to name this flow. -/
def strays : StageSet where
  flowId := "a:b"
  stages := .ofList (["n", "c:n", "a:b:n"].map (fun id => (id, .step ⟨id, fun m => (m, none)⟩)))

/-- Such stages are accepted and counted, but none of them is found. -/
theorem get?_misses_strays :
    let r := afterCalls [.register strays]
    r.size = 3 ∧ ∀ id ∈ ["n", "c:n", "a:b:n"], r.Owns "a:b" id ∧ r.get? id = none := by
  intro r
  have howns : ∀ id ∈ strays.ids, r.Owns "a:b" id := fun id hid => ⟨strays, rfl, hid⟩
  refine ⟨rfl, fun id hid => ⟨howns id ?_, ?_⟩⟩
  · have hids : strays.ids = ["a:b:n", "c:n", "n"] := rfl
    rw [hids]
    exact List.mem_reverse.1 hid
  · simp only [List.mem_cons, List.not_mem_nil, or_false] at hid
    rcases hid with rfl | rfl | rfl <;> rfl

end StageRegistry
end MessageFlow
