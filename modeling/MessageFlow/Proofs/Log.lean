import Mathlib.Data.List.Forall2
import MessageFlow.Proofs.Failure

/-!
The log of a walk. A walk only adds to the log; what it adds falls into the parts of its branches, and each part
tells the visits of its own tree and whether a path of this tree has failed.
-/

namespace MessageFlow

def Event.tellsFailure (event : Event) : Bool := event.failure?.isSome

namespace Progress
variable {p q r : Progress} {log rest : List Event}

/-- These events, in their order, lead from one progress to a later one. -/
def Adds (p : Progress) (log : List Event) (q : Progress) : Prop := q.events = log.reverse ++ p.events

theorem adds_record (p : Progress) (event : Event) : p.Adds [event] (p.record event) := rfl

theorem adds_fail (p : Progress) (failure : ExchangeError) : p.Adds [.failed failure] (p.fail failure) := rfl

theorem Adds.trans (h : p.Adds log q) (h' : q.Adds rest r) : p.Adds (log ++ rest) r := by
  rw [Adds, List.reverse_append, List.append_assoc, ← h]
  exact h'

/-- The events of an outcome are those that lead to it from the start. -/
theorem Adds.outcome_events {e : Engine} {m : Message} (h : (e.start m).Adds log q)
    (completion : Completion) : (q.outcome completion).events = log := by
  rw [outcome, show q.events = log.reverse ++ [] from h, List.append_nil, List.reverse_reverse]

end Progress

namespace Engine
variable {e : Engine} {hops node : Nat} {visited others : List Nat} {failed bad : Bool}
  {log rest : List Event} {logs : List (List Event)} {p q : Progress} {ts : List PathTree}

/-- A part of a log: it has these visits, it has failures or not, and no completion is told in it. -/
structure Logs (e : Engine) (visited : List Nat) (failed : Bool) (log : List Event) : Prop where
  visits : log.filterMap Event.visited? = visited.map e.graph.qualified
  failures : log.any Event.tellsFailure = failed
  silent : log.filterMap Event.signalled? = []

/-- The log of what a path unfolds into. -/
abbrev LogsPath (e : Engine) (t : PathTree) (log : List Event) : Prop := e.Logs t.visited t.fails log

theorem logs_failure (e : Engine) (failure : ExchangeError) : e.Logs [] true [.failed failure] :=
  ⟨rfl, rfl, rfl⟩

theorem Logs.append (h : e.Logs visited failed log) (h' : e.Logs others bad rest) :
    e.Logs (visited ++ others) (failed || bad) (log ++ rest) where
  visits := by rw [List.filterMap_append, h.visits, h'.visits, List.map_append]
  failures := by rw [List.any_append, h.failures, h'.failures]
  silent := by rw [List.filterMap_append, h.silent, h'.silent, List.append_nil]

/-- The logs of paths that are walked one after another. -/
theorem logs_flatten (h : List.Forall₂ e.LogsPath ts logs) :
    e.Logs (PathTree.visitedEach ts) (PathTree.failsAny ts) logs.flatten := by
  induction h with
  | nil => exact ⟨rfl, rfl, rfl⟩
  | cons ht _ ih => exact ht.append ih

theorem countP_logs (h : List.Forall₂ e.LogsPath ts logs) :
    logs.countP (fun log => log.any Event.tellsFailure) = ts.countP PathTree.fails := by
  induction h with
  | nil => rfl
  | cons ht _ ih => rw [List.countP_cons, List.countP_cons, ih, ht.failures]

/-- The stage of a node notes its visit, and a failure if it leaves no successors. -/
theorem Invokes.logged {next : Option (List Nat)} (h : e.Invokes node p next q) :
    ∃ log, p.Adds log q ∧ e.Logs [node] next.isNone log := by
  cases h with
  | missing _ => exact ⟨[.missing _, .failed _], rfl, rfl, rfl, rfl⟩
  | stepPasses _ _ => exact ⟨[.step _], rfl, rfl, rfl, rfl⟩
  | stepFails _ _ => exact ⟨[.step _, .failed _], rfl, rfl, rfl, rfl⟩
  | choicePasses _ _ => exact ⟨[.choice _], rfl, rfl, rfl, rfl⟩
  | choiceFails _ _ => exact ⟨[.choice _, .failed _], rfl, rfl, rfl, rfl⟩

theorem Visits.logged {next : Option (List Nat)} (h : e.Visits hops node p next q) :
    ∃ log, p.Adds log q ∧ e.Logs [node] next.isNone log :=
  h.invokes.logged

mutual

/-- What a walk adds to the log is the log of its tree. -/
theorem Walks.logged {hops depth node : Nat} {p q : Progress} {t : PathTree}
    (h : e.Walks hops depth node p t q) : ∃ log, p.Adds log q ∧ e.LogsPath t log := by
  cases h with
  | hopLimit _ | visitBudget _ _ => exact ⟨_, p.adds_fail _, e.logs_failure _⟩
  | stops hv | ends hv => exact hv.logged
  | continues hv hw =>
    obtain ⟨log, hq, hlog⟩ := hv.logged
    obtain ⟨rest, hr, hrest⟩ := hw.logged
    refine ⟨log ++ rest, hq.trans hr, ?_⟩
    simpa [LogsPath, PathTree.visited, PathTree.visitedEach, PathTree.fails, PathTree.failsAny]
      using hlog.append hrest
  | @refused _ _ _ _ _ q hv _ _ =>
    obtain ⟨log, hq, hlog⟩ := hv.logged
    exact ⟨_, hq.trans (q.adds_fail _), hlog.append (e.logs_failure _)⟩
  | @fansOut _ _ _ _ _ q r _ copies hv _ _ hw =>
    obtain ⟨log, hq, hlog⟩ := hv.logged
    obtain ⟨logs, hr, hlogs⟩ := hw.logged
    have hleave : q.Adds logs.flatten (e.leaveFanOut q.message copies r) :=
      (e.events_leaveFanOut q.message copies r).trans hr
    exact ⟨_, hq.trans hleave, hlog.append (logs_flatten hlogs)⟩

theorem WalksEach.logged {hops depth : Nat} {base : Message} {branches : List Nat} {p r : Progress}
    {ts : List PathTree} {copies : List Message}
    (h : e.WalksEach hops depth base branches p ts copies r) :
    ∃ logs : List (List Event), p.Adds logs.flatten r ∧ List.Forall₂ e.LogsPath ts logs := by
  cases h with
  | nil => exact ⟨[], rfl, .nil⟩
  | @cons _ _ _ _ _ _ q _ _ _ _ hw hrest =>
    obtain ⟨log, hq, hlog⟩ := hw.logged
    obtain ⟨logs, hr, hlogs⟩ := hrest.logged
    have henter : p.Adds log q := by
      rw [Progress.Adds, ← e.events_enterBranch base p]
      exact hq
    exact ⟨log :: logs, henter.trans hr, .cons hlog hlogs⟩

end

end Engine
end MessageFlow
