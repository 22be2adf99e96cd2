import MessageFlow.Proofs.Unfolding

/-!
The limits of an execution, read off its unfolding: the visits on all paths together, the visits on one
path, and the fan-outs on copies inside each other.
-/

namespace MessageFlow

@[simp] theorem Progress.visits_record (p : Progress) (event : Event) :
    (p.record event).visits = p.visits ++ event.visited?.toList := by
  cases h : event.visited? <;> simp [Progress.visits, Progress.record, h]

@[simp] theorem Progress.visits_fail (p : Progress) (failure : ExchangeError) :
    (p.fail failure).visits = p.visits := by
  simp [Progress.visits, Progress.fail, Event.visited?]

@[simp] theorem Progress.visits_withMessage (p : Progress) (m : Message) :
    { p with message := m }.visits = p.visits := rfl

namespace Engine

variable {e : Engine} {hops depth node : Nat} {base m : Message} {branches : List Nat}
  {next : Option (List Nat)} {p q r : Progress} {t : PathTree} {ts : List PathTree}
  {copies : List Message} {o : Outcome}

theorem visits_invoke (e : Engine) (node : Nat) (p : Progress) :
    (e.invoke node p).2.visits = p.visits ++ [e.graph.qualified node] := by
  simp only [invoke]
  split
  · simp [Event.visited?]
  · split <;> simp [Event.visited?]
  · split <;> simp [Event.visited?]

theorem enterBranch_visits (e : Engine) (base : Message) (p : Progress) :
    (e.enterBranch base p).visits = p.visits ∧ (e.enterBranch base p).visitsLeft = p.visitsLeft := by
  cases hs : e.options.isolation <;> simp [enterBranch, hs, Progress.visits]

theorem leaveFanOut_visits (e : Engine) (base : Message) (copies : List Message) (p : Progress) :
    (e.leaveFanOut base copies p).visits = p.visits ∧
      (e.leaveFanOut base copies p).visitsLeft = p.visitsLeft := by
  cases hs : e.options.isolation <;> simp [leaveFanOut, hs, Progress.visits]

/-- A visit uses up one of the visits left, and is noted. -/
theorem Visits.spends (h : e.Visits hops node p next q) :
    q.visits = p.visits ++ [e.graph.qualified node] ∧ q.visitsLeft + 1 = p.visitsLeft := by
  have hn := e.visits_invoke node { p with visitsLeft := p.visitsLeft - 1 }
  have hv := e.visitsLeft_invoke node { p with visitsLeft := p.visitsLeft - 1 }
  rw [h.invoked] at hn hv
  have := h.visit
  dsimp only at hv
  exact ⟨hn, by omega⟩

mutual

/-- The visits of a walk are those of its tree, from the node down and branch after branch, and each uses
up one of the visits left. -/
theorem Walks.spends {hops depth node : Nat} {p q : Progress} {t : PathTree}
    (h : e.Walks hops depth node p t q) :
    q.visits = p.visits ++ t.visited.map e.graph.qualified ∧
      q.visitsLeft + t.visited.length = p.visitsLeft := by
  cases h with
  | hopLimit _ | visitBudget _ _ =>
    rw [Progress.visits_fail]
    simp [PathTree.visited, Progress.fail]
  | stops hv => simpa [PathTree.visited] using hv.spends
  | ends hv => simpa [PathTree.visited, PathTree.visitedEach] using hv.spends
  | continues hv hw =>
    obtain ⟨hn, hl⟩ := hv.spends
    obtain ⟨hn', hl'⟩ := hw.spends
    simp only [PathTree.visited, PathTree.visitedEach, hn', hn, List.map_cons, List.append_nil,
      List.append_assoc, List.cons_append, List.nil_append, List.length_cons, true_and]
    omega
  | refused hv _ _ =>
    obtain ⟨hn, hl⟩ := hv.spends
    rw [Progress.visits_fail]
    simpa [PathTree.visited, Progress.fail] using ⟨hn, hl⟩
  | @fansOut _ _ _ _ _ q r _ copies hv _ _ hw =>
    obtain ⟨hn, hl⟩ := hv.spends
    obtain ⟨hn', hl'⟩ := hw.spends
    obtain ⟨hn'', hl''⟩ := e.leaveFanOut_visits q.message copies r
    simp only [PathTree.visited, hn'', hn', hn, List.map_cons, List.append_assoc, List.cons_append,
      List.nil_append, List.length_cons, true_and]
    omega

theorem WalksEach.spends {hops depth : Nat} {base : Message} {branches : List Nat}
    {p r : Progress} {ts : List PathTree} {copies : List Message}
    (h : e.WalksEach hops depth base branches p ts copies r) :
    r.visits = p.visits ++ (PathTree.visitedEach ts).map e.graph.qualified ∧
      r.visitsLeft + (PathTree.visitedEach ts).length = p.visitsLeft := by
  cases h with
  | nil => simp [PathTree.visitedEach]
  | cons hw hrest =>
    obtain ⟨hn, hl⟩ := hw.spends
    obtain ⟨hn', hl'⟩ := hrest.spends
    obtain ⟨hp, hlp⟩ := e.enterBranch_visits base p
    simp only [PathTree.visitedEach, hn', hn, hp, List.map_append, List.append_assoc,
      List.length_append, true_and]
    omega

end

mutual

/-- No path is longer than the hops that are left to it. -/
theorem Walks.height_le {hops depth node : Nat} {p q : Progress} {t : PathTree}
    (h : e.Walks hops depth node p t q) : t.height ≤ e.options.maxHops - hops := by
  cases h with
  | hopLimit _ => exact Nat.zero_le _
  | visitBudget _ _ => exact Nat.zero_le _
  | stops hv | refused hv _ _ =>
    have := hv.hop
    simp only [PathTree.height]
    omega
  | ends hv =>
    have := hv.hop
    simp only [PathTree.height, PathTree.heightEach]
    omega
  | continues hv hw =>
    have := hv.hop
    have := hw.height_le
    simp only [PathTree.height, PathTree.heightEach]
    omega
  | fansOut hv _ _ hw =>
    have := hv.hop
    have := hw.height_le
    simp only [PathTree.height]
    omega

theorem WalksEach.height_le {hops depth : Nat} {base : Message} {branches : List Nat}
    {p r : Progress} {ts : List PathTree} {copies : List Message}
    (h : e.WalksEach hops depth base branches p ts copies r) :
    PathTree.heightEach ts ≤ e.options.maxHops - hops := by
  cases h with
  | nil => exact Nat.zero_le _
  | cons hw hrest => exact Nat.max_le.2 ⟨hw.height_le, hrest.height_le⟩

end

theorem WalksEach.length_eq (h : e.WalksEach hops depth base branches p ts copies r) :
    ts.length = branches.length := by
  induction branches generalizing p ts copies with
  | nil => cases h; rfl
  | cons branch rest ih =>
    cases h with
    | cons _ hrest => simp [ih hrest]

theorem lt_of_not_refuses (hs : e.options.isolation = .snapshot) (h : ¬ e.RefusesFanOut depth) :
    depth < e.options.maxFanOutDepth := by
  have hn : ¬ e.options.maxFanOutDepth ≤ depth := fun hd => h ⟨hs, hd⟩
  omega

mutual

/-- Fan-outs on copies stand inside each other no more deeply than the limit leaves room for. -/
theorem Walks.nesting_le {hops depth node : Nat} {p q : Progress} {t : PathTree}
    (hs : e.options.isolation = .snapshot) (h : e.Walks hops depth node p t q) :
    t.nesting ≤ e.options.maxFanOutDepth - depth := by
  cases h with
  | hopLimit _ => exact Nat.zero_le _
  | visitBudget _ _ => exact Nat.zero_le _
  | stops _ => exact Nat.zero_le _
  | refused _ _ _ => exact Nat.zero_le _
  | ends _ => exact Nat.zero_le _
  | continues _ hw =>
    have := hw.nesting_le hs
    simpa [PathTree.nesting, PathTree.nestingEach] using this
  | fansOut _ hl hr hw =>
    have := hw.nesting_le hs
    have := lt_of_not_refuses hs hr
    simp only [PathTree.nesting, hw.length_eq, if_pos hl]
    omega

theorem WalksEach.nesting_le {hops depth : Nat} {base : Message} {branches : List Nat}
    {p r : Progress} {ts : List PathTree} {copies : List Message} (hs : e.options.isolation = .snapshot)
    (h : e.WalksEach hops depth base branches p ts copies r) :
    PathTree.nestingEach ts ≤ e.options.maxFanOutDepth - depth := by
  cases h with
  | nil => exact Nat.zero_le _
  | cons hw hrest => exact Nat.max_le.2 ⟨hw.nesting_le hs, hrest.nesting_le hs⟩

end

theorem start_visits (e : Engine) (m : Message) :
    (e.start m).visits = [] ∧ (e.start m).visitsLeft = e.options.maxVisits :=
  ⟨rfl, rfl⟩

/-- The visits of an execution are those of its paths, and all of them together stay in the budget. -/
theorem Executes.visits_eq (h : e.Executes m ts o) :
    o.visits = (PathTree.visitedEach ts).map e.graph.qualified ∧
      (PathTree.visitedEach ts).length ≤ e.options.maxVisits := by
  have hs := e.start_visits m
  cases h with
  | endsAtEntry _ => exact ⟨rfl, Nat.zero_le _⟩
  | @proceeds _ q _ _ hw =>
    obtain ⟨hn, hl⟩ := hw.spends
    have hv : (q.outcome .proceeding).visits = q.visits := rfl
    have hb : ((e.start m).record (.signalled .proceeding)).visitsLeft = e.options.maxVisits := rfl
    constructor
    · simp [hv, hn, hs.1, PathTree.visitedEach, Event.visited?]
    · simp only [PathTree.visitedEach, List.append_nil]
      omega
  | refused _ _ _ hc =>
    subst hc
    exact ⟨rfl, Nat.zero_le _⟩
  | @joins _ r _ copies completion _ _ _ hw hc =>
    obtain ⟨hn, hl⟩ := hw.spends
    have hv : (((e.leaveFanOut m copies r).record (.signalled completion)).outcome completion).visits =
        ((e.leaveFanOut m copies r).record (.signalled completion)).visits := rfl
    constructor
    · simp [hv, (e.leaveFanOut_visits m copies r).1, hn, hs.1, Event.visited?]
    · omega

theorem Executes.height_le (h : e.Executes m ts o) : PathTree.heightEach ts ≤ e.options.maxHops := by
  cases h with
  | endsAtEntry _ => exact Nat.zero_le _
  | proceeds _ hw => exact Nat.max_le.2 ⟨hw.height_le, Nat.zero_le _⟩
  | refused _ _ _ _ => exact Nat.zero_le _
  | joins _ _ _ hw _ => exact hw.height_le

theorem Executes.nesting_le (hs : e.options.isolation = .snapshot) (h : e.Executes m ts o) :
    PathTree.nestingFrom ts ≤ e.options.maxFanOutDepth := by
  cases h with
  | endsAtEntry _ => exact Nat.zero_le _
  | proceeds _ hw =>
    have := hw.nesting_le hs
    simpa [PathTree.nestingFrom, PathTree.nestingEach] using this
  | refused _ _ _ _ => exact Nat.zero_le _
  | joins _ hl hr hw _ =>
    have := hw.nesting_le hs
    have := lt_of_not_refuses hs hr
    simp only [PathTree.nestingFrom, hw.length_eq, if_pos hl]
    omega

/-- Every execution ends, and stays within its limits. It unfolds into a finite tree of paths that holds
all its visits in their order; they are no more than the budget allows, none stands deeper on its path than
the hop limit, and fan-outs on copies stand inside each other no more deeply than the depth limit. -/
theorem execute_within_limits (e : Engine) (m : Message) :
    (∃ paths, e.Executes m paths (e.execute m)) ∧
      ∀ paths outcome, e.Executes m paths outcome →
        outcome = e.execute m ∧
        outcome.visits = (PathTree.visitedEach paths).map e.graph.qualified ∧
        outcome.visits.length ≤ e.options.maxVisits ∧
        PathTree.heightEach paths ≤ e.options.maxHops ∧
        (e.options.isolation = .snapshot →
          PathTree.nestingFrom paths ≤ e.options.maxFanOutDepth) := by
  constructor
  · obtain ⟨paths, outcome, h⟩ := exists_executes e m
    exact ⟨paths, h.eq_execute ▸ h⟩
  · intro paths outcome h
    obtain ⟨hv, hl⟩ := h.visits_eq
    have hlength : outcome.visits.length ≤ e.options.maxVisits := by
      rw [hv, List.length_map]
      exact hl
    exact ⟨h.eq_execute, hv, hlength, h.height_le, fun hs => h.nesting_le hs⟩

end Engine
end MessageFlow
