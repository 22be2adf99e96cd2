import MessageFlow.Proofs.Visit

/-!
Executions as one recursion, the same for both isolations. It counts upwards: the stages on a path, from
the entry through every fan-out that the path descends, and the fan-outs on copies around it.
-/

namespace MessageFlow
namespace Engine

variable {e : Engine} {hops depth source node : Nat} {branches : List Nat} {base : Message}
  {p : Progress} {walk : Nat → Progress → Bool × Progress}

/-- Carry out a fan-out in the isolation of the engine. The levels count for copies only. -/
def fanOut (e : Engine) (levels : Nat) : FanOut :=
  match e.options.isolation with
  | .shared => fun _ branches hopsLeft p => e.walkShared branches hopsLeft p
  | .snapshot => e.snapshot levels

/-- All that happens from a node on, with `hops` stages before it on its path and `depth` fan-outs on copies
around it. -/
def walkFrom (e : Engine) (hops depth node : Nat) (p : Progress) : Bool × Progress :=
  e.walkBranch (e.fanOut (e.options.maxFanOutDepth - depth)) (e.options.maxHops - hops) node p

/-- All that happens in a fan-out behind `hops` stages and inside `depth` fan-outs on copies. -/
def fanOutFrom (e : Engine) (hops depth source : Nat) (branches : List Nat) (p : Progress) :
    Nat × Progress :=
  e.fanOut (e.options.maxFanOutDepth - depth) source branches (e.options.maxHops - hops) p

/-- A fan-out on copies is refused when too many others are around it. -/
def RefusesFanOut (e : Engine) (depth : Nat) : Prop :=
  e.options.isolation = .snapshot ∧ e.options.maxFanOutDepth ≤ depth

instance : Decidable (e.RefusesFanOut depth) := inferInstanceAs (Decidable (_ ∧ _))

/-- The progress with which a branch starts: on the message itself, or on a copy of it. -/
def enterBranch (e : Engine) (base : Message) (p : Progress) : Progress :=
  match e.options.isolation with
  | .shared => p
  | .snapshot => { p with message := base }

/-- The progress behind a fan-out, when all its branches have ended. -/
def leaveFanOut (e : Engine) (base : Message) (copies : List Message) (p : Progress) : Progress :=
  match e.options.isolation with
  | .shared => p
  | .snapshot => { p with message := base.joinCopies copies }

/-- Walk branches one after another: the messages they end with, how many of them failed, and the progress
of the last one. -/
def walkEach (e : Engine) (walk : Nat → Progress → Bool × Progress) (base : Message) :
    List Nat → Progress → List Message × Nat × Progress
  | [], p => ([], 0, p)
  | branch :: rest, p =>
    let (bad, q) := walk branch (e.enterBranch base p)
    let (copies, failed, r) := walkEach e walk base rest q
    (q.message :: copies, (if bad then 1 else 0) + failed, r)

theorem walkEach_shared (hs : e.options.isolation = .shared) (branches : List Nat) (p : Progress) :
    (e.walkEach walk base branches p).2 = visitEach walk branches p := by
  induction branches generalizing p with
  | nil => rfl
  | cons branch rest ih =>
    have hp : e.enterBranch base p = p := by simp only [enterBranch, hs]
    simp only [walkEach, visitEach, hp, ← ih]

theorem walkEach_snapshot (hs : e.options.isolation = .snapshot) (branches : List Nat) (p : Progress) :
    e.walkEach walk base branches p = walkCopies walk base branches p := by
  induction branches generalizing p with
  | nil => rfl
  | cons branch rest ih =>
    have hp : e.enterBranch base p = { p with message := base } := by simp only [enterBranch, hs]
    simp only [walkEach, walkCopies, hp, ih]

theorem fanOut_shared (hs : e.options.isolation = .shared) (levels : Nat) :
    e.fanOut levels = fun _ branches hops q => visitEach (e.visit hops) branches q := by
  funext source branches hops q
  simp only [fanOut, hs, walkShared_eq_visitEach]

theorem visit_eq_walkFrom (hs : e.options.isolation = .shared) :
    e.visit (e.options.maxHops - hops) = e.walkFrom hops depth := by
  funext node p
  rw [walkFrom, fanOut_shared hs]
  exact visit_eq_walkBranch e _ node p

theorem fanOutFrom_refused (h : e.RefusesFanOut depth) : e.fanOutFrom hops depth source branches p =
    (branches.length,
      p.fail (.fanOutDepthExceeded (e.graph.qualified source) e.options.maxFanOutDepth)) := by
  simp only [fanOutFrom, fanOut, h.1, Nat.sub_eq_zero_of_le h.2, snapshot]

theorem fanOutFrom_eq (h : ¬ e.RefusesFanOut depth) :
    e.fanOutFrom hops depth source branches p =
      let (copies, failed, q) := e.walkEach (e.walkFrom hops (depth + 1)) p.message branches p
      (failed, e.leaveFanOut p.message copies q) := by
  cases hs : e.options.isolation with
  | shared =>
    have hv : e.visit (e.options.maxHops - hops) = e.walkFrom hops (depth + 1) := visit_eq_walkFrom hs
    have hw : (e.walkEach (e.walkFrom hops (depth + 1)) p.message branches p).2 =
        visitEach (e.walkFrom hops (depth + 1)) branches p := walkEach_shared hs branches p
    simp only [fanOutFrom, fanOut_shared hs, leaveFanOut, hs, hv]
    exact hw.symm
  | snapshot =>
    have hd : e.options.maxFanOutDepth - depth = e.options.maxFanOutDepth - (depth + 1) + 1 := by
      have hn : ¬ e.options.maxFanOutDepth ≤ depth := fun hd => h ⟨hs, hd⟩
      omega
    have hf : e.fanOut (e.options.maxFanOutDepth - (depth + 1)) =
        e.snapshot (e.options.maxFanOutDepth - (depth + 1)) := by simp only [fanOut, hs]
    simp only [fanOutFrom, hd, fanOut, hs, snapshot, leaveFanOut, walkEach_snapshot hs]
    simp only [← hf]
    rfl

theorem walkFrom_hopLimit (h : e.options.maxHops ≤ hops) : e.walkFrom hops depth node p =
    (true, p.fail (.hopLimitExceeded (e.graph.qualified node) e.options.maxHops)) := by
  simp only [walkFrom, Nat.sub_eq_zero_of_le h, walkBranch, follow]

theorem walkFrom_visitBudget (h : hops < e.options.maxHops) (hv : p.visitsLeft = 0) :
    e.walkFrom hops depth node p =
      (true, p.fail (.visitBudgetExceeded (e.graph.qualified node) e.options.maxVisits)) := by
  have hh : e.options.maxHops - hops = e.options.maxHops - (hops + 1) + 1 := by omega
  simp only [walkFrom, hh, walkBranch_succ, hv]

theorem walkFrom_visit (h : hops < e.options.maxHops) (hv : 0 < p.visitsLeft) :
    e.walkFrom hops depth node p =
      match e.invoke node { p with visitsLeft := p.visitsLeft - 1 } with
      | (none, q) => (true, q)
      | (some [], q) => (false, q)
      | (some [next], q) => e.walkFrom (hops + 1) depth next q
      | (some branches, q) =>
        ((e.fanOutFrom (hops + 1) depth node branches q).1 > 0,
          (e.fanOutFrom (hops + 1) depth node branches q).2) := by
  have hh : e.options.maxHops - hops = e.options.maxHops - (hops + 1) + 1 := by omega
  obtain ⟨visits, hvs⟩ := Nat.exists_eq_succ_of_ne_zero (Nat.pos_iff_ne_zero.1 hv)
  rw [walkFrom, hh, walkBranch_succ]
  simp only [hvs]
  rfl

theorem walkSingle_eq (e : Engine) (node : Nat) (p : Progress) :
    e.walkSingle node p = (e.walkFrom 0 0 node p).2 := by
  cases hs : e.options.isolation with
  | shared =>
    simp only [walkSingle, hs, walkShared_eq_visitEach, ← visit_eq_walkFrom hs, Nat.sub_zero, visitEach]
  | snapshot => simp only [walkSingle, hs, walkFrom, fanOut, Nat.sub_zero]

theorem walkBranches_eq (e : Engine) (branches : List Nat) (p : Progress) :
    e.walkBranches branches p = e.fanOutFrom 0 0 e.graph.entryNode branches p := by
  cases hs : e.options.isolation <;> simp only [walkBranches, fanOutFrom, fanOut, hs, Nat.sub_zero]

end Engine
end MessageFlow
