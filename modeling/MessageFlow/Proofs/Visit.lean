import MessageFlow.Engine.Execution

/-!
Walks on the message itself, read as a plain recursion. The paths that wait on the stack are walked in the
order in which nested calls would walk them, and a mark on a root stands for the failed calls below it.
-/

namespace MessageFlow
namespace Engine

variable {e : Engine} {hops root : Nat} {branches : List Nat} {failed : List Bool} {p : Progress}

/-- Walk from nodes one after another, and count those below which some path failed. -/
def visitEach (walk : Nat → Progress → Bool × Progress) : List Nat → Progress → Nat × Progress
  | [], p => (0, p)
  | node :: rest, p =>
    let (bad, q) := walk node p
    let (failed, r) := visitEach walk rest q
    ((if bad then 1 else 0) + failed, r)

/-- Visit a node and then, each with one hop less, all nodes that follow it, in their order and on the same
message. It fails at a limit, where the stage fails, and where the visit of a following node fails. -/
def visit (e : Engine) : (hopsLeft node : Nat) → Progress → Bool × Progress
  | 0, node, p => (true, p.fail (.hopLimitExceeded (e.graph.qualified node) e.options.maxHops))
  | hops + 1, node, p =>
    match p.visitsLeft with
    | 0 => (true, p.fail (.visitBudgetExceeded (e.graph.qualified node) e.options.maxVisits))
    | visits + 1 =>
      match e.invoke node { p with visitsLeft := visits } with
      | (none, q) => (true, q)
      | (some following, q) =>
        let (failed, r) := visitEach (e.visit hops) following q
        (failed > 0, r)

/-- One round of a path, with the fan-out at its end left open. -/
theorem walkBranch_succ (e : Engine) (fanOut : FanOut) (hops node : Nat) (p : Progress) :
    e.walkBranch fanOut (hops + 1) node p =
      match p.visitsLeft with
      | 0 => (true, p.fail (.visitBudgetExceeded (e.graph.qualified node) e.options.maxVisits))
      | visits + 1 =>
        match e.invoke node { p with visitsLeft := visits } with
        | (none, q) => (true, q)
        | (some [], q) => (false, q)
        | (some [next], q) => e.walkBranch fanOut hops next q
        | (some branches, q) =>
          ((fanOut node branches hops q).1 > 0, (fanOut node branches hops q).2) := by
  cases hv : p.visitsLeft with
  | zero => rw [walkBranch, follow_refused hv]
  | succ visits =>
    rw [walkBranch, follow_visit hv]
    dsimp only
    rcases e.invoke node { p with visitsLeft := visits } with ⟨_ | _ | ⟨next, _ | ⟨second, rest⟩⟩, q⟩
    · rfl
    · rfl
    · rfl
    · rfl

/-- The recursion goes along a path just as a walk does, and calls itself for the branches at its end. -/
theorem visit_eq_walkBranch (e : Engine) (hops node : Nat) (p : Progress) :
    e.visit hops node p =
      e.walkBranch (fun _ branches hops q => visitEach (e.visit hops) branches q) hops node p := by
  induction hops generalizing node p with
  | zero => rfl
  | succ hops ih =>
    rw [visit, walkBranch_succ]
    cases p.visitsLeft with
    | zero => rfl
    | succ visits =>
      dsimp only
      rcases e.invoke node { p with visitsLeft := visits } with ⟨_ | _ | ⟨next, _ | ⟨second, rest⟩⟩, q⟩
      · rfl
      · rfl
      · refine Eq.trans ?_ (ih next q)
        cases hv : (e.visit hops next q).1 <;> simp [visitEach, hv, Prod.ext_iff]
      · rfl

/-- What a waiting path does to the marks and the progress. -/
def settle (e : Engine) (s : List Bool × Progress) (path : PendingPath) : List Bool × Progress :=
  let (bad, q) := e.visit path.hopsLeft path.node s.2
  (if bad then s.1.set path.root true else s.1, q)

/-- The branches of one fan-out mark the root that they have in common. -/
theorem foldl_settle_branches :
    (branches.map (⟨·, hops, root⟩)).foldl e.settle (failed, p) =
      (if (visitEach (e.visit hops) branches p).1 > 0 then failed.set root true else failed,
        (visitEach (e.visit hops) branches p).2) := by
  induction branches generalizing failed p with
  | nil => rfl
  | cons node rest ih =>
    rw [List.map_cons, List.foldl_cons, settle, ih]
    cases hv : (e.visit hops node p).1
    · simp [visitEach, hv]
    · simp [visitEach, hv, Nat.add_comm 1]

/-- Draining the stack settles the waiting paths from the top. -/
theorem drain_eq_foldl (e : Engine) (pending : List PendingPath) (failed : List Bool) (p : Progress) :
    e.drain pending failed p = pending.foldl e.settle (failed, p) := by
  fun_induction drain e pending failed p with
  | case1 => rfl
  | case2 failed p path rest q h ih =>
    rw [ih, List.foldl_cons, settle, visit_eq_walkBranch, walkBranch, h]
    rfl
  | case3 failed p path rest q h ih =>
    rw [ih, List.foldl_cons, settle, visit_eq_walkBranch, walkBranch, h]
    rfl
  | case4 failed p path rest source branches hops q h ih =>
    rw [ih, List.foldl_append, foldl_settle_branches, List.foldl_cons, settle, visit_eq_walkBranch,
      walkBranch, h]
    simp

/-- Each root has a mark of its own, and the marks behind it are still unset. -/
theorem foldl_settle_roots (e : Engine) (hops : Nat) (roots : List Nat) (failed : List Bool) (n : Nat)
    (hn : n = failed.length) (p : Progress) :
    ∃ marks, ((roots.zipIdx n).map (fun r => ⟨r.1, hops, r.2⟩)).foldl e.settle
        (failed ++ List.replicate roots.length false, p) =
          (failed ++ marks, (visitEach (e.visit hops) roots p).2) ∧
      marks.count true = (visitEach (e.visit hops) roots p).1 := by
  induction roots generalizing failed n p with
  | nil => exact ⟨[], rfl, rfl⟩
  | cons node rest ih =>
    subst hn
    obtain ⟨marks, hf, hc⟩ := ih (failed ++ [(e.visit hops node p).1]) (failed.length + 1) (by simp)
      (e.visit hops node p).2
    refine ⟨(e.visit hops node p).1 :: marks, ?_, ?_⟩
    · cases hv : (e.visit hops node p).1 <;>
        simpa [settle, visitEach, hv, List.replicate_succ] using hf
    · cases hv : (e.visit hops node p).1 <;> simp [visitEach, hv, ← hc, Nat.add_comm]

theorem walkShared_eq_visitEach (e : Engine) (roots : List Nat) (hopsLeft : Nat) (p : Progress) :
    e.walkShared roots hopsLeft p = visitEach (e.visit hopsLeft) roots p := by
  obtain ⟨marks, hf, hc⟩ := foldl_settle_roots e hopsLeft roots [] 0 rfl p
  rw [List.nil_append, List.nil_append] at hf
  simp only [walkShared, drain_eq_foldl, hf, hc]

/-- The recursion with the hops counted upwards. A visit with `hops` stages before it fails where one more
would exceed the hop limit, then where no visit is left, then where the stage fails. The path ends without a
successor, goes on with one, and visits several in turn on the same message. -/
def visitFrom (e : Engine) (hops node : Nat) (p : Progress) : Bool × Progress :=
  if hops + 1 > e.options.maxHops then
    (true, p.fail (.hopLimitExceeded (e.graph.qualified node) e.options.maxHops))
  else if p.visitsLeft = 0 then
    (true, p.fail (.visitBudgetExceeded (e.graph.qualified node) e.options.maxVisits))
  else
    match e.invoke node { p with visitsLeft := p.visitsLeft - 1 } with
    | (none, q) => (true, q)
    | (some [], q) => (false, q)
    | (some [next], q) => e.visitFrom (hops + 1) next q
    | (some branches, q) =>
      let (failed, r) := visitEach (e.visitFrom (hops + 1)) branches q
      (failed > 0, r)
termination_by e.options.maxHops - hops

theorem visitFrom_eq_visit (e : Engine) (hops : Nat) :
    e.visitFrom hops = e.visit (e.options.maxHops - hops) := by
  generalize hl : e.options.maxHops - hops = left
  induction left generalizing hops with
  | zero =>
    funext node p
    rw [visitFrom, if_pos (by omega), visit]
  | succ left ih =>
    have hnext : e.visitFrom (hops + 1) = e.visit left := ih (hops + 1) (by omega)
    funext node p
    rw [visitFrom, if_neg (by omega), visit, hnext]
    cases hv : p.visitsLeft with
    | zero => rfl
    | succ visits =>
      rw [if_neg (Nat.succ_ne_zero visits), Nat.add_sub_cancel]
      dsimp only
      rcases e.invoke node { p with visitsLeft := visits } with ⟨_ | _ | ⟨next, _ | ⟨second, rest⟩⟩, q⟩
      · rfl
      · rfl
      · cases hw : (e.visit left next q).1 <;> simp [visitEach, hw, Prod.ext_iff]
      · rfl

/-- A walk on the message itself is the recursion from each root in turn: it makes the same visits in the
same order, leaves the same message, and counts the same roots as failed. -/
theorem walkShared_eq_recursion (e : Engine) (roots : List Nat) (hops : Nat) (p : Progress) :
    e.walkShared roots (e.options.maxHops - hops) p = visitEach (e.visitFrom hops) roots p := by
  rw [walkShared_eq_visitEach, visitFrom_eq_visit]

end Engine
end MessageFlow
