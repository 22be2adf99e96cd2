import MessageFlow.Proofs.Isolation
import MessageFlow.Proofs.Oblivious

/-!
Limits that are not reached. The three limits are looked at in three places: before each stage of a path, before
each visit of the execution, and before each fan-out on copies. An execution that is stopped in none of them goes
on in the same way under wider limits, with the same number of spare visits from the start to the end.
-/

namespace MessageFlow

/-- A path has come to the end of its hops or of the visits, or a fan-out was refused. -/
def ExchangeError.OfLimit : ExchangeError → Prop
  | .hopLimitExceeded _ _ | .visitBudgetExceeded _ _ | .fanOutDepthExceeded _ _ => True
  | .stage _ _ | .predicate _ _ _ | .missingStage _ => False

/-- The isolation is the same, and no limit is smaller. -/
structure EngineOptions.Within (narrow wide : EngineOptions) : Prop where
  isolation : wide.isolation = narrow.isolation
  maxHops : narrow.maxHops ≤ wide.maxHops
  maxVisits : narrow.maxVisits ≤ wide.maxVisits
  maxFanOutDepth : narrow.maxFanOutDepth ≤ wide.maxFanOutDepth

namespace Engine

/-- The same engine under other options. -/
def under (e : Engine) (options : EngineOptions) : Engine := { e with options }

variable {e : Engine} {wide : EngineOptions} {depth hops node spare : Nat} {next : Option (List Nat)}
  {base : Message} {copies copies' : List Message} {p q : Progress}

section Wider
variable (h : e.options.Within wide)
include h

/-- A visit is made with spare visits as well, and they are left over. -/
theorem Visits.lift (hv : e.Visits hops node p next q) :
    (e.under wide).Visits hops node (p.lift spare []) next (q.lift spare []) where
  hop := Nat.lt_of_lt_of_le hv.hop h.maxHops
  visit := Nat.lt_of_lt_of_le hv.visit (Nat.le_add_right _ _)
  invoked := by
    have hinvoke : (e.under wide).invoke = e.invoke := rfl
    rw [hinvoke, Progress.spend_lift hv.visit, lift_invoke, hv.invoked]

theorem not_refuses_under (hd : ¬ e.RefusesFanOut depth) : ¬ (e.under wide).RefusesFanOut depth := by
  rintro ⟨hs, hlimit⟩
  exact hd ⟨h.isolation.symm.trans hs, Nat.le_trans h.maxFanOutDepth hlimit⟩

theorem enterBranch_under (base : Message) :
    (e.under wide).enterBranch base (p.lift spare []) = (e.enterBranch base p).lift spare [] := by
  have hs : (e.under wide).options.isolation = e.options.isolation := h.isolation
  simp only [enterBranch, hs]
  split <;> rfl

theorem leaveFanOut_under (base : Message) (copies : List Message) :
    (e.under wide).leaveFanOut base copies (p.lift spare []) =
      (e.leaveFanOut base copies p).lift spare [] := by
  have hs : (e.under wide).options.isolation = e.options.isolation := h.isolation
  simp only [leaveFanOut, hs]
  split <;> rfl

end Wider

/-- Where the runs meet, they have the same message. -/
theorem copies_eq_of_meet
    (h : List.Forall₂ (Meet fun p p' => p' = p.lift spare []) copies copies') : copies' = copies := by
  induction h with
  | nil => rfl
  | cons hm _ ih =>
    obtain ⟨p, _, rfl, rfl, rfl⟩ := hm
    rw [ih, Progress.message_lift]

/-- Under wider limits each step is matched, but for those that a limit stops. -/
theorem simulates_under (h : e.options.Within wide) (spare : Nat) :
    e.Simulates (e.under wide) ExchangeError.OfLimit (fun p p' => p' = p.lift spare []) where
  graph := rfl
  visit {_ _ _ _ _ q} hp hv := by
    subst hp
    exact ⟨q.lift spare [], hv.lift h, rfl⟩
  cut _ hfree hc := by
    cases hc with
    | hopLimit _ | visitBudget _ _ => exact absurd trivial hfree
  refuse _ hfree _ := absurd trivial hfree
  permit hd := not_refuses_under h hd
  enter {p _ _ _} hp hq := by
    subst hp hq
    exact enterBranch_under h p.message
  leave {p _ _ _ copies _} hp hq hcopies := by
    subst hp hq
    rw [copies_eq_of_meet hcopies]
    exact leaveFanOut_under h p.message copies
  signal hp := by
    subst hp
    rfl

/-- Limits that are not reached are invisible. Where no path of an execution has come to the end of its hops or
of the visits, and no fan-out was refused, the execution under limits of which none is smaller unfolds into the
same paths and has the same outcome: the same events in the same order, the same completion, and the same
message. -/
theorem execute_under_wider (e : Engine) (m : Message) (wide : EngineOptions) (h : e.options.Within wide)
    (hfree : ∀ failure, failure.OfLimit → .failed failure ∉ (e.execute m).events) :
    (∃ paths, e.Executes m paths (e.execute m) ∧ (e.under wide).Executes m paths ((e.under wide).execute m)) ∧
      (e.under wide).execute m = e.execute m ∧ (e.under wide).process m = e.process m := by
  obtain ⟨paths, o, hx⟩ := e.exists_executes m
  obtain rfl : o = e.execute m := hx.eq_execute
  have hstart : (e.under wide).start m = (e.start m).lift (wide.maxVisits - e.options.maxVisits) [] := by
    have hvisits := Nat.add_sub_cancel' h.maxVisits
    simp only [start, under, Progress.lift, hvisits, List.append_nil]
  obtain ⟨q, _, completion, rfl, ho, hx'⟩ := hx.simulated (simulates_under h _) hstart hfree
  have houtcome : (q.lift (wide.maxVisits - e.options.maxVisits) []).outcome completion =
      q.outcome completion := by
    simp only [Progress.outcome, Progress.lift, List.append_nil]
  have hsame : (e.under wide).execute m = e.execute m := by rw [← hx'.eq_execute, houtcome, ho]
  refine ⟨⟨paths, hx, hx'.eq_execute ▸ hx'⟩, hsame, ?_⟩
  rw [process, process, hsame]

/-- Two branches that fail or end well need one hop each, two visits and one fan-out, and no more. -/
theorem execute_under_wider_forked :
    let tight := forkedEngine.under
      { isolation := .snapshot, maxHops := 1, maxVisits := 2, maxFanOutDepth := 1 }
    tight.options.Within { isolation := .snapshot } ∧
      (∀ failure, failure.OfLimit → .failed failure ∉ (tight.execute blank).events) ∧
      ((tight.under { isolation := .snapshot }).execute blank).completion = .joined 2 1 ∧
      ((tight.under { isolation := .snapshot }).execute blank).message.error =
        some (.stage "f:writer" "full") := by
  intro tight
  have hwithin : tight.options.Within { isolation := .snapshot } := ⟨rfl, by decide, by decide, by decide⟩
  have hevents : (tight.execute blank).events = [.step "f:writer", .failed (.stage "f:writer" "full"),
      .step "f:reader", .signalled (.joined 2 1)] := rfl
  have hfree : ∀ failure, failure.OfLimit → .failed failure ∉ (tight.execute blank).events := by
    intro failure hlimit hmem
    simp only [hevents, List.mem_cons, Event.failed.injEq, reduceCtorEq, List.not_mem_nil, or_false,
      false_or] at hmem
    subst hmem
    exact hlimit
  obtain ⟨-, hsame, -⟩ := execute_under_wider tight blank { isolation := .snapshot } hwithin hfree
  refine ⟨hwithin, hfree, ?_, ?_⟩
  · rw [hsame]
    rfl
  · rw [hsame]
    rfl

end Engine
end MessageFlow
