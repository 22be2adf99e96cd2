import MessageFlow.Proofs.Log

/-!
The completion of an execution. It is told once: at once where nothing or one path follows the entry, and
behind everything else where the entry fans out. The log of such an execution falls into the logs of the
branches, and a branch counts as failed when its own log has a failure.
-/

namespace MessageFlow

/-- The node where a path starts. -/
def PathTree.node : PathTree → Nat
  | .cut node | .broken node | .passed node _ => node

namespace Engine
variable {e : Engine} {hops depth node : Nat} {branches : List Nat} {m : Message} {p q r : Progress}
  {t : PathTree} {ts : List PathTree} {o : Outcome}

theorem Walks.node_eq (h : e.Walks hops depth node p t q) : t.node = node := by
  cases h <;> rfl

theorem WalksEach.nodes_eq {base : Message} {copies : List Message}
    (h : e.WalksEach hops depth base branches p ts copies r) : ts.map PathTree.node = branches := by
  induction branches generalizing p ts copies with
  | nil => cases h; rfl
  | cons branch rest ih =>
    cases h with
    | cons hw hrest => rw [List.map_cons, hw.node_eq, ih hrest]

/-- The entry fans out: its branches are walked one after another, each with a log of its own, and what they
leave is joined; only then is the completion told. A branch has failed where its log has a failure. -/
structure Joins (e : Engine) (m : Message) (branches : List Nat) (o : Outcome) (failed : Nat)
    (paths : List PathTree) (logs : List (List Event)) : Prop where
  walked : ∃ copies last, e.WalksEach 0 1 m branches (e.start m) paths copies last ∧
    o = ((e.leaveFanOut m copies last).record (.signalled o.completion)).outcome o.completion
  nodes : paths.map PathTree.node = branches
  logged : List.Forall₂ e.LogsPath paths logs
  events : o.events = logs.flatten ++ [.signalled o.completion]
  failed : failed = logs.countP (fun log => log.any Event.tellsFailure)

/-- Nothing follows the entry: the message goes as it came. -/
theorem Executes.ends_untouched (h : e.Executes m ts o)
    (hb : e.graph.successors e.graph.entryNode = []) :
    o.message = m ∧ o.events = [.signalled .noSuccessors] := by
  cases h with
  | endsAtEntry _ => exact ⟨rfl, rfl⟩
  | proceeds hb' _ => simp [hb] at hb'
  | refused hb' hl _ _ | joins hb' hl _ _ _ => simp [← hb', hb] at hl

/-- One path follows the entry: the completion is told before anything else happens. -/
theorem Executes.proceeds_first {next : Nat} (h : e.Executes m ts o)
    (hb : e.graph.successors e.graph.entryNode = [next]) : ∃ path log, ts = [path] ∧ path.node = next ∧
      o.events = .signalled .proceeding :: log ∧ e.LogsPath path log := by
  cases h with
  | endsAtEntry hb' => simp [hb] at hb'
  | refused hb' hl _ _ | joins hb' hl _ _ _ => simp [← hb', hb] at hl
  | @proceeds first q t hb' hw =>
    obtain ⟨log, hq, hlog⟩ := hw.logged
    have hevents := (((e.start m).adds_record (.signalled .proceeding)).trans hq).outcome_events .proceeding
    rw [hb, List.singleton_inj] at hb'
    exact ⟨t, log, rfl, hw.node_eq.trans hb'.symm, hevents, hlog⟩

/-- The entry fans out and the fan-out is refused: no branch is walked, and all of them count as failed. -/
theorem Executes.refused_all (h : e.Executes m ts o)
    (hb : e.graph.successors e.graph.entryNode = branches) (hl : 1 < branches.length)
    (hr : e.RefusesFanOut 0) :
    o.completion = .joined branches.length branches.length ∧ o.visits = [] := by
  cases h with
  | endsAtEntry hb' | proceeds hb' _ => simp [← hb, hb'] at hl
  | refused hb' _ _ hc =>
    subst hb' hb hc
    exact ⟨rfl, rfl⟩
  | joins _ _ hr' _ _ => exact absurd hr hr'

/-- The entry fans out, and the fan-out is not refused. -/
theorem Executes.joins_last (h : e.Executes m ts o)
    (hb : e.graph.successors e.graph.entryNode = branches) (hl : 1 < branches.length)
    (hr : ¬ e.RefusesFanOut 0) :
    ∃ failed logs, o.completion = .joined branches.length failed ∧ e.Joins m branches o failed ts logs := by
  cases h with
  | endsAtEntry hb' | proceeds hb' _ => simp [← hb, hb'] at hl
  | refused _ _ hr' _ => exact absurd hr' hr
  | @joins _ last _ copies completion hb' _ _ hw hc =>
    obtain rfl := hb'.symm.trans hb
    obtain ⟨logs, hq, hlogs⟩ := hw.logged
    have hleave : (e.start m).Adds logs.flatten (e.leaveFanOut m copies last) :=
      (e.events_leaveFanOut m copies last).trans hq
    have hevents := (hleave.trans (Progress.adds_record _ (.signalled completion))).outcome_events completion
    exact ⟨_, logs, hc, ⟨_, _, hw, rfl⟩, hw.nodes_eq, hlogs, hevents, (countP_logs hlogs).symm⟩

/-- Every execution tells its completion, and only once. -/
theorem Executes.signalled_once (h : e.Executes m ts o) :
    o.events.filterMap Event.signalled? = [o.completion] := by
  cases h with
  | endsAtEntry _ => rfl
  | proceeds hb hw =>
    obtain ⟨path, log, -, -, hevents, hlog⟩ := (Executes.proceeds hb hw).proceeds_first hb
    rw [hevents, ← List.singleton_append, List.filterMap_append, hlog.silent]
    rfl
  | refused _ _ _ hc =>
    subst hc
    rfl
  | joins hb hl hr hw hc =>
    obtain ⟨failed, logs, -, hj⟩ := (Executes.joins hb hl hr hw hc).joins_last hb hl hr
    rw [hj.events, List.filterMap_append, (logs_flatten hj.logged).silent]
    rfl

theorem process_eq (e : Engine) (m : Message) :
    e.process m = ((e.execute m).message, (e.execute m).completion) := by
  obtain ⟨ts, o, hx⟩ := e.exists_executes m
  obtain rfl := hx.eq_execute
  rw [process, Outcome.awaited, ← List.head?_filterMap, hx.signalled_once]
  rfl

/-- The kind of the completion tells how many paths follow the entry. -/
theorem Executes.completion_iff (h : e.Executes m ts o) :
    (o.completion = .noSuccessors ↔ e.graph.successors e.graph.entryNode = []) ∧
      (o.completion = .proceeding ↔ (e.graph.successors e.graph.entryNode).length = 1) := by
  cases h with
  | endsAtEntry hb => simp [Progress.outcome, hb]
  | proceeds hb _ => simp [Progress.outcome, hb]
  | refused hb hl _ hc | joins hb hl _ _ hc =>
    subst hb hc
    simp only [Progress.outcome, reduceCtorEq, false_iff]
    exact ⟨fun hnil => by simp [hnil] at hl, fun hone => by omega⟩

/-- The completion of an execution is told exactly once, and a caller that waits gets this one. Where nothing
follows the entry it is told at once, and the message is as it came; where one path follows, it is told
before the first visit. Where the entry fans out it is told behind all that the branches do, on the joined
message; it has the number of the branches, which are different nodes in a compiled flow, and the number of
those that have a failure in their part of the log, or of all where the fan-out is refused. -/
theorem execute_signals_once (e : Engine) (m : Message) :
    let o := e.execute m
    let branches := e.graph.successors e.graph.entryNode
    o.events.filterMap Event.signalled? = [o.completion] ∧
      e.process m = (o.message, o.completion) ∧
      (∀ components f, FlowDefinition.compile components f = .ok e.graph → branches.Nodup) ∧
      (o.completion = .noSuccessors ↔ branches = []) ∧
      (branches = [] → o.message = m ∧ o.events = [.signalled .noSuccessors]) ∧
      (o.completion = .proceeding ↔ branches.length = 1) ∧
      (∀ next, branches = [next] → ∃ path log, path.node = next ∧
        o.events = .signalled .proceeding :: log ∧ e.LogsPath path log) ∧
      (1 < branches.length → ∃ failed, o.completion = .joined branches.length failed ∧
        (e.RefusesFanOut 0 → failed = branches.length ∧ o.visits = []) ∧
        (¬ e.RefusesFanOut 0 → ∃ paths logs, e.Joins m branches o failed paths logs)) := by
  intro o branches
  obtain ⟨ts, o', hx⟩ := e.exists_executes m
  obtain rfl : o' = o := hx.eq_execute
  obtain ⟨hnone, hone⟩ := hx.completion_iff
  refine ⟨hx.signalled_once, e.process_eq m, ?distinct, hnone, hx.ends_untouched, hone, ?first, ?joined⟩
  case distinct =>
    intro components f hc
    exact (FlowDefinition.compile_ok_iff.1 hc).nodup_successors e.graph.entryNode
  case first =>
    intro next hb
    obtain ⟨path, log, -, hnode, hevents, hlog⟩ := hx.proceeds_first hb
    exact ⟨path, log, hnode, hevents, hlog⟩
  case joined =>
    intro hl
    by_cases hr : e.RefusesFanOut 0
    · obtain ⟨hc, hvisits⟩ := hx.refused_all rfl hl hr
      exact ⟨_, hc, fun _ => ⟨rfl, hvisits⟩, fun hr' => absurd hr hr'⟩
    · obtain ⟨failed, logs, hc, hj⟩ := hx.joins_last rfl hl hr
      exact ⟨failed, hc, fun hr' => absurd hr' hr, fun _ => ⟨ts, logs, hj⟩⟩

end Engine
end MessageFlow
