import MessageFlow.Proofs.Recursion

/-!
Executions unfolded. The rules say what may happen from a node on; they count hops and fan-outs upwards and
know no bound for what they unfold, which may be a cycle. An unfolding is a finite tree, so to find one
for each execution is to show that the execution ends.
-/

namespace MessageFlow

/-- What a path unfolds into, from the node where it starts. -/
inductive PathTree where
  /-- A limit ends the path before the stage of the node is looked for. -/
  | cut (node : Nat)
  /-- The path ends in failure at the node: the stage fails, or the fan-out behind it is refused. -/
  | broken (node : Nat)
  /-- The stage ends well and the paths go on: none, one, or the branches of a fan-out. -/
  | passed (node : Nat) (next : List PathTree)

namespace PathTree

mutual

/-- The visited nodes in the order of their visits. -/
def visited : PathTree → List Nat
  | .cut _ => []
  | .broken node => [node]
  | .passed node next => node :: visitedEach next

def visitedEach : List PathTree → List Nat
  | [] => []
  | t :: ts => t.visited ++ visitedEach ts

end

mutual

/-- The number of visits on the longest way down. -/
def height : PathTree → Nat
  | .cut _ => 0
  | .broken _ => 1
  | .passed _ next => heightEach next + 1

def heightEach : List PathTree → Nat
  | [] => 0
  | t :: ts => max t.height (heightEach ts)

end

mutual

/-- The number of fan-outs on the way down that has most of them. -/
def nesting : PathTree → Nat
  | .cut _ | .broken _ => 0
  | .passed _ next => nestingEach next + if 1 < next.length then 1 else 0

def nestingEach : List PathTree → Nat
  | [] => 0
  | t :: ts => max t.nesting (nestingEach ts)

end

/-- The nesting among the paths that go on from one place, their own fan-out included. -/
def nestingFrom (next : List PathTree) : Nat := nestingEach next + if 1 < next.length then 1 else 0

mutual

/-- Whether some path ends in failure. -/
def fails : PathTree → Bool
  | .cut _ | .broken _ => true
  | .passed _ next => failsAny next

def failsAny : List PathTree → Bool
  | [] => false
  | t :: ts => t.fails || failsAny ts

end

theorem failsAny_eq (ts : List PathTree) : failsAny ts = decide (ts.countP fails > 0) := by
  induction ts with
  | nil => rfl
  | cons t ts ih => cases hf : t.fails <;> simp [failsAny, ih, hf]

end PathTree

/-- The id of the stage that a visit looks for. -/
def Event.visited? : Event → Option String
  | .step id | .choice id | .missing id => some id
  | .failed _ | .signalled _ => none

/-- The ids of the visited stages, in the order of the visits. -/
def Progress.visits (p : Progress) : List String := p.events.reverse.filterMap Event.visited?

def Outcome.visits (o : Outcome) : List String := o.events.filterMap Event.visited?

/-- The outcome of an execution that ends here. -/
def Progress.outcome (p : Progress) (completion : Completion) : Outcome :=
  ⟨p.message, completion, p.events.reverse⟩

namespace Engine

/-- A node is visited: there are a hop and a visit for it, and its stage runs. -/
structure Visits (e : Engine) (hops node : Nat) (p : Progress) (next : Option (List Nat))
    (q : Progress) : Prop where
  hop : hops < e.options.maxHops
  visit : 0 < p.visitsLeft
  invoked : e.invoke node { p with visitsLeft := p.visitsLeft - 1 } = (next, q)

mutual

/-- All that happens from a node on, with `hops` stages before it on its path and `depth` fan-outs around
it, unfolds into a tree and leads to a progress. -/
inductive Walks (e : Engine) : (hops depth node : Nat) → Progress → PathTree → Progress → Prop
  | hopLimit {hops depth node : Nat} {p : Progress} :
      e.options.maxHops ≤ hops →
      Walks e hops depth node p (.cut node)
        (p.fail (.hopLimitExceeded (e.graph.qualified node) e.options.maxHops))
  | visitBudget {hops depth node : Nat} {p : Progress} :
      hops < e.options.maxHops → p.visitsLeft = 0 →
      Walks e hops depth node p (.cut node)
        (p.fail (.visitBudgetExceeded (e.graph.qualified node) e.options.maxVisits))
  | stops {hops depth node : Nat} {p q : Progress} :
      e.Visits hops node p none q →
      Walks e hops depth node p (.broken node) q
  | ends {hops depth node : Nat} {p q : Progress} :
      e.Visits hops node p (some []) q →
      Walks e hops depth node p (.passed node []) q
  | continues {hops depth node next : Nat} {p q r : Progress} {t : PathTree} :
      e.Visits hops node p (some [next]) q →
      Walks e (hops + 1) depth next q t r →
      Walks e hops depth node p (.passed node [t]) r
  | refused {hops depth node : Nat} {branches : List Nat} {p q : Progress} :
      e.Visits hops node p (some branches) q → 1 < branches.length → e.RefusesFanOut depth →
      Walks e hops depth node p (.broken node)
        (q.fail (.fanOutDepthExceeded (e.graph.qualified node) e.options.maxFanOutDepth))
  | fansOut {hops depth node : Nat} {branches : List Nat} {p q r : Progress} {ts : List PathTree}
      {copies : List Message} :
      e.Visits hops node p (some branches) q → 1 < branches.length → ¬ e.RefusesFanOut depth →
      WalksEach e (hops + 1) (depth + 1) q.message branches q ts copies r →
      Walks e hops depth node p (.passed node ts) (e.leaveFanOut q.message copies r)

/-- The branches of a fan-out unfold one after another; each leaves the message it ends with. -/
inductive WalksEach (e : Engine) : (hops depth : Nat) → Message → List Nat → Progress →
    List PathTree → List Message → Progress → Prop
  | nil {hops depth : Nat} {base : Message} {p : Progress} :
      WalksEach e hops depth base [] p [] [] p
  | cons {hops depth branch : Nat} {rest : List Nat} {base : Message} {p q r : Progress}
      {t : PathTree} {ts : List PathTree} {copies : List Message} :
      Walks e hops depth branch (e.enterBranch base p) t q →
      WalksEach e hops depth base rest q ts copies r →
      WalksEach e hops depth base (branch :: rest) p (t :: ts) (q.message :: copies) r

end

/-- An execution unfolds into the paths that go on from the entry, and has an outcome. -/
inductive Executes (e : Engine) (m : Message) : List PathTree → Outcome → Prop
  | endsAtEntry :
      e.graph.successors e.graph.entryNode = [] →
      Executes e m [] (((e.start m).record (.signalled .noSuccessors)).outcome .noSuccessors)
  | proceeds {next : Nat} {q : Progress} {t : PathTree} :
      e.graph.successors e.graph.entryNode = [next] →
      e.Walks 0 0 next ((e.start m).record (.signalled .proceeding)) t q →
      Executes e m [t] (q.outcome .proceeding)
  | refused {branches : List Nat} {completion : Completion} :
      e.graph.successors e.graph.entryNode = branches → 1 < branches.length → e.RefusesFanOut 0 →
      completion = .joined branches.length branches.length →
      Executes e m []
        ((((e.start m).fail (.fanOutDepthExceeded (e.graph.qualified e.graph.entryNode)
          e.options.maxFanOutDepth)).record (.signalled completion)).outcome completion)
  | joins {branches : List Nat} {r : Progress} {ts : List PathTree} {copies : List Message}
      {completion : Completion} :
      e.graph.successors e.graph.entryNode = branches → 1 < branches.length →
      ¬ e.RefusesFanOut 0 →
      e.WalksEach 0 1 m branches (e.start m) ts copies r →
      completion = .joined branches.length (ts.countP PathTree.fails) →
      Executes e m ts
        (((e.leaveFanOut m copies r).record (.signalled completion)).outcome completion)

variable {e : Engine} {hops depth node : Nat} {base m : Message} {branches : List Nat}
  {p q r : Progress} {t : PathTree} {ts : List PathTree} {copies : List Message} {o : Outcome}

theorem exists_walksEach (h : ∀ node p, ∃ t q, e.Walks hops depth node p t q) (base : Message)
    (branches : List Nat) (p : Progress) :
    ∃ ts copies r, e.WalksEach hops depth base branches p ts copies r := by
  induction branches generalizing p with
  | nil => exact ⟨_, _, _, .nil⟩
  | cons branch rest ih =>
    obtain ⟨t, q, ht⟩ := h branch (e.enterBranch base p)
    obtain ⟨ts, copies, r, hts⟩ := ih q
    exact ⟨_, _, _, .cons ht hts⟩

/-- Whatever the graph, all that happens from a node on comes to an end: each visit leaves one hop less to
every path behind it. -/
theorem exists_walks (left : Nat) (h : e.options.maxHops ≤ hops + left) (depth node : Nat)
    (p : Progress) : ∃ t q, e.Walks hops depth node p t q := by
  induction left generalizing hops depth node p with
  | zero => exact ⟨_, _, .hopLimit h⟩
  | succ left ih =>
    by_cases hh : e.options.maxHops ≤ hops
    · exact ⟨_, _, .hopLimit hh⟩
    by_cases hv : p.visitsLeft = 0
    · exact ⟨_, _, .visitBudget (by omega) hv⟩
    have hvisit : ∀ next q, e.invoke node { p with visitsLeft := p.visitsLeft - 1 } = (next, q) →
        e.Visits hops node p next q := fun _ _ hi => ⟨by omega, by omega, hi⟩
    have hnext : ∀ depth node p, ∃ t q, e.Walks (hops + 1) depth node p t q := ih (by omega)
    rcases hi : e.invoke node { p with visitsLeft := p.visitsLeft - 1 } with
      ⟨_ | _ | ⟨next, _ | ⟨second, rest⟩⟩, q⟩
    · exact ⟨_, _, .stops (hvisit _ _ hi)⟩
    · exact ⟨_, _, .ends (hvisit _ _ hi)⟩
    · obtain ⟨t, r, ht⟩ := hnext depth next q
      exact ⟨_, _, .continues (hvisit _ _ hi) ht⟩
    · have hl : 1 < (next :: second :: rest).length := by simp
      by_cases hr : e.RefusesFanOut depth
      · exact ⟨_, _, .refused (hvisit _ _ hi) hl hr⟩
      · obtain ⟨ts, copies, r, hts⟩ :=
          exists_walksEach (hnext (depth + 1)) q.message (next :: second :: rest) q
        exact ⟨_, _, .fansOut (hvisit _ _ hi) hl hr hts⟩

theorem walkFrom_fanOut (h : e.Visits hops node p (some branches) q) (hl : 1 < branches.length) :
    e.walkFrom hops depth node p =
      (decide ((e.fanOutFrom (hops + 1) depth node branches q).1 > 0),
        (e.fanOutFrom (hops + 1) depth node branches q).2) := by
  rw [walkFrom_visit h.hop h.visit, h.invoked]
  rcases branches with _ | ⟨first, _ | ⟨second, rest⟩⟩
  · simp at hl
  · simp at hl
  · rfl

mutual

/-- An unfolding is what the engine does from a node on. -/
theorem Walks.eq_walkFrom {hops depth node : Nat} {p q : Progress} {t : PathTree}
    (h : e.Walks hops depth node p t q) : e.walkFrom hops depth node p = (t.fails, q) := by
  cases h with
  | hopLimit hh => rw [walkFrom_hopLimit hh, PathTree.fails]
  | visitBudget hh hv => rw [walkFrom_visitBudget hh hv, PathTree.fails]
  | stops hv => rw [walkFrom_visit hv.hop hv.visit, hv.invoked, PathTree.fails]
  | ends hv => rw [walkFrom_visit hv.hop hv.visit, hv.invoked, PathTree.fails, PathTree.failsAny]
  | continues hv hw =>
    rw [walkFrom_visit hv.hop hv.visit, hv.invoked, PathTree.fails, PathTree.failsAny,
      PathTree.failsAny, Bool.or_false]
    exact hw.eq_walkFrom
  | refused hv hl hr =>
    rw [walkFrom_fanOut hv hl, fanOutFrom_refused hr, PathTree.fails]
    simp [Nat.zero_lt_of_lt hl]
  | fansOut hv hl hr hw =>
    rw [walkFrom_fanOut hv hl, fanOutFrom_eq hr, hw.eq_walkEach, PathTree.fails, PathTree.failsAny_eq]

theorem WalksEach.eq_walkEach {hops depth : Nat} {base : Message} {branches : List Nat}
    {p r : Progress} {ts : List PathTree} {copies : List Message}
    (h : e.WalksEach hops depth base branches p ts copies r) :
    e.walkEach (e.walkFrom hops depth) base branches p = (copies, ts.countP PathTree.fails, r) := by
  cases h with
  | nil => rfl
  | cons hw hrest =>
    simp only [walkEach, hw.eq_walkFrom, hrest.eq_walkEach, List.countP_cons, Nat.add_comm]

end

theorem execute_many (hb : e.graph.successors e.graph.entryNode = branches) (hl : 1 < branches.length) :
    e.execute m =
      (((e.fanOutFrom 0 0 e.graph.entryNode branches (e.start m)).2.record
        (.signalled (.joined branches.length
          (e.fanOutFrom 0 0 e.graph.entryNode branches (e.start m)).1))).outcome
        (.joined branches.length (e.fanOutFrom 0 0 e.graph.entryNode branches (e.start m)).1)) := by
  subst hb
  unfold execute
  rcases hs : e.graph.successors e.graph.entryNode with _ | ⟨first, _ | ⟨second, rest⟩⟩
  · simp [hs] at hl
  · simp [hs] at hl
  · simp only [walkBranches_eq]
    rfl

/-- An unfolding of an execution has the outcome of the execution. -/
theorem Executes.eq_execute (h : e.Executes m ts o) : o = e.execute m := by
  cases h with
  | endsAtEntry hb =>
    simp only [execute, hb]
    rfl
  | @proceeds next q t hb hw =>
    have hq : e.walkSingle next ((e.start m).record (.signalled .proceeding)) = q := by
      rw [walkSingle_eq, hw.eq_walkFrom]
    simp only [execute, hb, hq]
    rfl
  | refused hb hl hr hc => rw [execute_many hb hl, fanOutFrom_refused hr, hc]
  | joins hb hl hr hw hc =>
    have hm : (e.start m).message = m := rfl
    rw [execute_many hb hl, fanOutFrom_eq hr, hm, hw.eq_walkEach, hc]

/-- Every execution ends: it has an unfolding. -/
theorem exists_executes (e : Engine) (m : Message) : ∃ ts o, e.Executes m ts o := by
  have hwalk : ∀ depth node p, ∃ t q, e.Walks 0 depth node p t q :=
    fun depth node p => exists_walks e.options.maxHops (by omega) depth node p
  rcases hb : e.graph.successors e.graph.entryNode with _ | ⟨first, _ | ⟨second, rest⟩⟩
  · exact ⟨_, _, .endsAtEntry hb⟩
  · obtain ⟨t, q, ht⟩ := hwalk 0 first ((e.start m).record (.signalled .proceeding))
    exact ⟨_, _, .proceeds hb ht⟩
  · have hl : 1 < (first :: second :: rest).length := by simp
    by_cases hr : e.RefusesFanOut 0
    · exact ⟨_, _, .refused hb hl hr rfl⟩
    · obtain ⟨ts, copies, r, hts⟩ := exists_walksEach (hwalk 1) m (first :: second :: rest) (e.start m)
      exact ⟨_, _, .joins hb hl hr hts rfl⟩

end Engine
end MessageFlow
