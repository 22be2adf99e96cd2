import Mathlib.Data.List.Nodup
import MessageFlow.Graph.Basic

/-!
Walks along the edges of a compiled flow. A walk is given by the nodes behind its start, so it has as many
edges as nodes; it may come to a node more than once.
-/

namespace MessageFlow
namespace CompiledGraph

/-- Each node of the walk follows the one before it. -/
def IsWalk (g : CompiledGraph) : (start : Nat) → List Nat → Prop
  | _, [] => True
  | start, node :: rest => node ∈ g.successors start ∧ g.IsWalk node rest

/-- The walks from a node with at least one edge and at most as many as the bound. Each comes before the walks
that go on from its end. -/
def walks (g : CompiledGraph) : (bound start : Nat) → List (List Nat)
  | 0, _ => []
  | bound + 1, start => (g.successors start).flatMap (fun node => [node] :: (g.walks bound node).map (node :: ·))

variable {g : CompiledGraph} {bound start node : Nat} {w rest : List Nat}

/-- Every node of a walk follows some node. -/
theorem IsWalk.exists_mem_successors (h : g.IsWalk start w) (hn : node ∈ w) :
    ∃ i, node ∈ g.successors i := by
  induction w generalizing start with
  | nil => cases hn
  | cons first rest ih =>
    rcases List.mem_cons.1 hn with rfl | hn
    · exact ⟨start, h.1⟩
    · exact ih h.2 hn

theorem mem_walks_succ : w ∈ g.walks (bound + 1) start ↔
    ∃ node ∈ g.successors start, w = [node] ∨ ∃ rest ∈ g.walks bound node, node :: rest = w := by
  simp only [walks, List.mem_flatMap, List.mem_cons, List.mem_map]

theorem mem_walks_iff : w ∈ g.walks bound start ↔ g.IsWalk start w ∧ 1 ≤ w.length ∧ w.length ≤ bound := by
  induction bound generalizing start w with
  | zero =>
    simp only [walks, List.not_mem_nil, false_iff]
    omega
  | succ bound ih =>
    rw [mem_walks_succ]
    constructor
    · rintro ⟨node, hn, rfl | ⟨rest, hrest, rfl⟩⟩
      · exact ⟨⟨hn, trivial⟩, Nat.le_refl 1, Nat.succ_le_succ (Nat.zero_le bound)⟩
      · obtain ⟨hwalk, -, hlength⟩ := ih.1 hrest
        exact ⟨⟨hn, hwalk⟩, Nat.succ_le_succ (Nat.zero_le _), Nat.succ_le_succ hlength⟩
    · rintro ⟨hwalk, hone, hlength⟩
      cases w with
      | nil => simp at hone
      | cons node rest =>
        obtain ⟨hn, hwalk⟩ := hwalk
        refine ⟨node, hn, ?_⟩
        cases rest with
        | nil => exact .inl rfl
        | cons next rest =>
          refine .inr ⟨next :: rest, ih.2 ⟨hwalk, ?_, ?_⟩, rfl⟩
          · simp
          · simpa using hlength

/-- Where no node follows another twice, no walk is listed twice. -/
theorem nodup_walks (h : ∀ node, (g.successors node).Nodup) (bound start : Nat) : (g.walks bound start).Nodup := by
  induction bound generalizing start with
  | zero => exact List.nodup_nil
  | succ bound ih =>
    rw [walks, List.nodup_flatMap]
    constructor
    · intro node _
      refine List.nodup_cons.2 ⟨?_, (ih node).map (List.cons_injective)⟩
      intro hmem
      obtain ⟨rest, hrest, heq⟩ := List.mem_map.1 hmem
      cases heq
      exact absurd (mem_walks_iff.1 hrest).2.1 (by simp)
    · -- Walks through different nodes differ in their first node.
      have hfirst {node : Nat} {w : List Nat} (hw : w ∈ [node] :: (g.walks bound node).map (node :: ·)) :
          w.head? = some node := by
        rcases List.mem_cons.1 hw with rfl | hw
        · rfl
        · obtain ⟨rest, -, rfl⟩ := List.mem_map.1 hw
          rfl
      refine (h start).imp fun hne w ha hb => hne ?_
      exact Option.some.inj ((hfirst ha).symm.trans (hfirst hb))

end CompiledGraph
end MessageFlow
