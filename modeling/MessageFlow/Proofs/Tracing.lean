import MessageFlow.Proofs.Frame
import MessageFlow.Stage.Trace

/-!
What a trace shows. Every step notes its id in one header. Where all paths share the message, the header has the
ids of all steps that were run. On copies a join takes the header from the last copy that has noted anything, so
what is left is one way through the paths: at every fan-out it goes on along the last branch on which a step was
run.
-/

namespace MessageFlow

/-! The ways that a trace can show -/

/-- The last of several lists that is not empty, or the empty list. -/
def lastTold {α : Type} (told : List (List α)) : List α :=
  (told.reverse.find? (fun ids => !ids.isEmpty)).getD []

theorem lastTold_cons {α : Type} (ids : List α) (rest : List (List α)) :
    lastTold (ids :: rest) = if lastTold rest = [] then ids else lastTold rest := by
  unfold lastTold
  rw [List.reverse_cons, List.find?_append]
  cases hf : rest.reverse.find? (fun ids => !ids.isEmpty) with
  | some last =>
    have hlast := List.find?_some hf
    cases last with
    | nil => cases hlast
    | cons id others => rfl
  | none => cases ids <;> rfl

namespace PathTree
variable {marked : Nat → Bool}

mutual

/-- One way down a path, as far as marked nodes are concerned: where it fans out, the way goes on along the last
branch on which a marked node was visited, and ends if there is none. -/
def way (marked : Nat → Bool) : PathTree → List Nat
  | .cut _ => []
  | .broken node => [node]
  | .passed node next => node :: wayAmong marked next

def wayAmong (marked : Nat → Bool) : List PathTree → List Nat
  | [] => []
  | t :: ts =>
    if (visitedEach ts).any marked then wayAmong marked ts
    else if ts.isEmpty || t.visited.any marked then t.way marked
    else []

end

mutual

/-- There is a marked node on the way if there is one anywhere. -/
theorem any_way (t : PathTree) : (t.way marked).any marked = t.visited.any marked := by
  cases t with
  | cut node => rfl
  | broken node => rfl
  | passed node next => rw [way, visited, List.any_cons, List.any_cons, any_wayAmong next]

theorem any_wayAmong (ts : List PathTree) : (wayAmong marked ts).any marked = (visitedEach ts).any marked := by
  cases ts with
  | nil => rfl
  | cons t ts =>
    rw [wayAmong, visitedEach, List.any_append]
    split
    · next hlater => rw [any_wayAmong ts, hlater, Bool.or_true]
    · next hlater =>
      rw [Bool.eq_false_iff.2 hlater, Bool.or_false]
      split
      · exact any_way t
      · next hfirst =>
        rw [Bool.or_eq_true, not_or] at hfirst
        exact (Bool.eq_false_iff.2 hfirst.2).symm

end

theorem filter_eq_nil_of_any {w : List Nat} (h : ¬ w.any marked = true) : w.filter marked = [] := by
  rw [List.filter_eq_nil_iff]
  exact fun node hnode hmarked => h (List.any_eq_true.2 ⟨node, hnode, hmarked⟩)

/-- The marked nodes of the way are those of the last branch that has any. -/
theorem filter_wayAmong {α : Type} (f : Nat → α) (ts : List PathTree) :
    ((wayAmong marked ts).filter marked).map f =
      lastTold (ts.map (fun t => ((t.way marked).filter marked).map f)) := by
  induction ts with
  | nil => rfl
  | cons t ts ih =>
    rw [List.map_cons, lastTold_cons, ← ih, wayAmong]
    by_cases hlater : (visitedEach ts).any marked
    · have htold : ((wayAmong marked ts).filter marked).map f ≠ [] := by
        rw [← any_wayAmong, List.any_eq_true] at hlater
        obtain ⟨node, hnode, hmarked⟩ := hlater
        rw [ne_eq, List.map_eq_nil_iff]
        exact List.ne_nil_of_mem (List.mem_filter.2 ⟨hnode, hmarked⟩)
      rw [if_pos hlater, if_neg htold]
    · have hnone : ((wayAmong marked ts).filter marked).map f = [] := by
        rw [← any_wayAmong] at hlater
        rw [filter_eq_nil_of_any hlater, List.map_nil]
      rw [if_neg hlater, if_pos hnone]
      split
      · rfl
      · next hfirst =>
        rw [Bool.or_eq_true, not_or, ← any_way] at hfirst
        rw [filter_eq_nil_of_any hfirst.2]
        rfl

end PathTree

/-! What is noted on a message -/

theorem Json.sameItems_append (xs : List Json) (y : Json) (ys : List Json) :
    sameItems xs (xs ++ y :: ys) = false := by
  induction xs with
  | nil => rfl
  | cons x xs ih => rw [List.cons_append, sameItems, ih, Bool.and_false]

namespace Message
variable {m n k base : Message} {ids more : List String}

/-- The header behind these notes; without any it is left as it is. -/
def noted (m : Message) (ids : List String) : Option Json :=
  if ids = [] then m.header? traceHeader else some (.array (m.traceItems ++ ids.map .string))

/-- The header of the second message is that of the first one with these notes. -/
def Notes (m : Message) (ids : List String) (n : Message) : Prop := n.header? traceHeader = m.noted ids

theorem notes_nil (h : n.headers = m.headers) : m.Notes [] n := congrArg (Dict.get? · traceHeader) h

theorem Notes.setError (h : m.Notes ids n) (failure : ExchangeError) : m.Notes ids (n.setError failure) := h

theorem notes_trace (m : Message) (id : String) : m.Notes [id] (m.trace id) := by
  rw [Notes, trace, header?_setHeader, if_pos rfl]
  rfl

theorem Notes.traceItems (h : m.Notes ids n) : n.traceItems = m.traceItems ++ ids.map .string := by
  by_cases hids : ids = []
  · rw [Notes, noted, if_pos hids] at h
    rw [Message.traceItems, h, hids, List.map_nil, List.append_nil]
    rfl
  · rw [Notes, noted, if_neg hids] at h
    rw [Message.traceItems, h]

theorem Notes.trans (h : m.Notes ids n) (h' : n.Notes more k) : m.Notes (ids ++ more) k := by
  rw [Notes, h', noted, h, h.traceItems, noted, noted]
  cases more with
  | nil => rw [if_pos rfl, List.append_nil]
  | cons id rest => simp

theorem Notes.visited (h : m.Notes ids n) : n.visited = m.visited ++ ids := by
  have hids : (ids.map Json.string).filterMap Json.string? = ids := by
    rw [List.filterMap_map]
    exact List.filterMap_some
  rw [Message.visited, h.traceItems, List.filterMap_append, hids, Message.visited]

/-- A copy has changed the header if it has noted anything, whatever was in the header before. -/
theorem noted_changes (m : Message) (ids : List String) :
    ((m.noted ids).isSome && m.header? traceHeader != m.noted ids) = !ids.isEmpty := by
  cases ids with
  | nil => simp [noted, bne]
  | cons id rest =>
    have hold : (m.header? traceHeader == some (.array (m.traceItems ++ (id :: rest).map .string))) = false := by
      rcases hm : m.header? traceHeader with _ | v
      · rfl
      · cases v with
        | array items =>
          have hitems : m.traceItems = items := by rw [traceItems, hm]
          rw [hitems]
          exact Json.sameItems_append items _ _
        | null | bool | number | string | object => rfl
    rw [noted, if_neg (List.cons_ne_nil id rest), bne, hold]
    rfl

/-- A join takes the header from the last copy that has noted anything. -/
theorem notes_joinCopies {copies : List Message} {told : List (List String)}
    (h : copies.map (·.header? traceHeader) = told.map base.noted) :
    base.Notes (lastTold told) (base.joinCopies copies) := by
  have hchanges : (fun v => v.isSome && base.header? traceHeader != v) ∘ base.noted = fun ids => !ids.isEmpty :=
    funext base.noted_changes
  rw [Notes, header?_joinCopies, h, latestChange, ← List.map_reverse, List.find?_map, hchanges, lastTold]
  cases told.reverse.find? (fun ids => !ids.isEmpty) <;> rfl

end Message

/-! Steps that were run -/

/-- The id of a step that was run. -/
def Event.step? : Event → Option String
  | .step id => some id
  | .choice _ | .missing _ | .failed _ | .signalled _ => none

/-- The ids of the steps that were run, in the order of their runs. -/
def Progress.steps (p : Progress) : List String := p.events.reverse.filterMap Event.step?

def Outcome.steps (o : Outcome) : List String := o.events.filterMap Event.step?

@[simp] theorem Progress.steps_record (p : Progress) (event : Event) :
    (p.record event).steps = p.steps ++ event.step?.toList := by
  cases h : event.step? <;> simp [Progress.steps, Progress.record, h]

@[simp] theorem Progress.steps_fail (p : Progress) (failure : ExchangeError) : (p.fail failure).steps = p.steps := by
  simp [Progress.steps, Progress.fail, Event.step?]

@[simp] theorem Progress.steps_withMessage (p : Progress) (m : Message) :
    { p with message := m }.steps = p.steps := rfl

theorem Progress.notes_fail {m : Message} {p : Progress} (h : m.Notes p.steps p.message)
    (failure : ExchangeError) : m.Notes (p.fail failure).steps (p.fail failure).message := by
  rw [steps_fail]
  exact h.setError failure

namespace StageSet

/-- The id is that of a step. -/
def isStep (s : StageSet) (id : String) : Bool :=
  match s.get? id with
  | some (.step _) => true
  | some (.choice _) | none => false

/-- Every step notes its own id. -/
def Traces (s : StageSet) : Prop := ∀ id p, s.get? id = some (.step p) → p = tracer id

end StageSet

/-- A host whose steps are all tracers deploys flows whose steps note their ids. -/
theorem FlowHost.traces_of_prepare {h : FlowHost} {f : FlowDefinition} {d : DeployedFlow}
    (hd : h.prepare f = .ok d) (hf : h.factory = tracingFactory) : d.stages.Traces := by
  obtain ⟨hc, hm⟩ := prepare_ok hd
  intro id p hp
  obtain ⟨i, n, definition, -, -, rfl, -, hmade⟩ := (FlowDefinition.stages_iff hc hm).1 hp
  cases definition with
  | step s =>
    obtain ⟨q, hq, heq⟩ := StageSet.makeStage_step_ok_iff.1 hmade
    rw [hf] at hq
    cases heq
    cases hq
    rfl
  | choice c =>
    obtain ⟨q, -, heq⟩ := map_eq_ok_iff.1 hmade
    cases heq

namespace Engine
variable {e : Engine} {m : Message} {o : Outcome} {node : Nat} {p q : Progress} {next : Option (List Nat)}
  {ts : List PathTree}

/-- The stage of the node is a step. -/
def isStep (e : Engine) (node : Nat) : Bool := e.stages.isStep (e.graph.qualified node)

/-- The ids of those nodes that are steps. -/
def stepIds (e : Engine) (nodes : List Nat) : List String := (nodes.filter e.isStep).map e.graph.qualified

theorem stepIds_cons (node : Nat) (nodes : List Nat) :
    e.stepIds (node :: nodes) = e.stepIds [node] ++ e.stepIds nodes := by
  rw [← List.singleton_append, stepIds, List.filter_append, List.map_append, stepIds, stepIds]

theorem stepIds_wayAmong (ts : List PathTree) :
    e.stepIds (PathTree.wayAmong e.isStep ts) = lastTold (ts.map (fun t => e.stepIds (t.way e.isStep))) :=
  PathTree.filter_wayAmong e.graph.qualified ts

/-- Where no step is run, nothing is noted. -/
theorem traces_nothing (hs : e.isStep node = false) (hheaders : q.message.headers = p.message.headers)
    (hsteps : q.steps = p.steps) :
    p.message.Notes (e.stepIds [node]) q.message ∧ q.steps = p.steps ++ e.stepIds [node] := by
  have hids : e.stepIds [node] = [] := by simp [stepIds, hs]
  rw [hids, List.append_nil]
  exact ⟨Message.notes_nil hheaders, hsteps⟩

/-- A step notes its id, on the message as in the log; anything else notes nothing. -/
theorem Invokes.traces (ht : e.stages.Traces) (h : e.Invokes node p next q) :
    p.message.Notes (e.stepIds [node]) q.message ∧ q.steps = p.steps ++ e.stepIds [node] := by
  cases h with
  | missing hs => exact traces_nothing (by simp [isStep, StageSet.isStep, hs]) rfl (by simp [Event.step?])
  | stepPasses hs hm =>
    have hids : e.stepIds [node] = [e.graph.qualified node] := by simp [stepIds, isStep, StageSet.isStep, hs]
    obtain rfl := ht _ _ hs
    cases hm
    rw [hids]
    exact ⟨p.message.notes_trace _, by simp [Event.step?]⟩
  | stepFails hs hm =>
    obtain rfl := ht _ _ hs
    cases hm
  | @choicePasses c m hs hm =>
    have hkept := part_process Message.foreign_headers c p.message
    rw [hm] at hkept
    have hnoted := part_noteUnknownTarget (e := e) Message.foreign_headers m
    exact traces_nothing (by simp [isStep, StageSet.isStep, hs]) (hnoted.trans hkept) (by simp [Event.step?])
  | @choiceFails c _ _ _ hs hm =>
    have hkept := part_process Message.foreign_headers c p.message
    rw [hm] at hkept
    exact traces_nothing (by simp [isStep, StageSet.isStep, hs]) hkept (by simp [Event.step?])

theorem Visits.traces (ht : e.stages.Traces) {hops : Nat} (h : e.Visits hops node p next q) :
    p.message.Notes (e.stepIds [node]) q.message :=
  (h.invokes.traces ht).1

/-! The log and the paths -/

/-- The steps of the log are those of its visits whose stages are steps. -/
theorem inductive_steps (e : Engine) :
    e.Inductive (fun _ => True) (fun p => p.steps = p.visits.filter e.stages.isStep) where
  entry _ _ := trivial
  next _ _ _ _ := trivial
  spend hp := hp
  invoke _ hp hx := by
    cases hx with
    | missing hs | stepPasses hs _ | stepFails hs _ | choicePasses hs _ | choiceFails hs _ =>
      simp [hp, StageSet.isStep, hs, Event.step?, Event.visited?]
  hopLimit hp := by simpa using hp
  visitBudget hp := by simpa using hp
  fanOutDepth hp := by simpa using hp
  enter _ hq := by
    rw [Progress.steps, Progress.visits, events_enterBranch]
    exact hq
  leave _ _ hq := by
    rw [Progress.steps, Progress.visits, events_leaveFanOut]
    exact hq
  signal hp := by simpa [Event.step?, Event.visited?] using hp

theorem Executes.steps_eq (hx : e.Executes m ts o) : o.steps = e.stepIds (PathTree.visitedEach ts) := by
  obtain ⟨⟨p, completion, hp, rfl⟩, -⟩ := hx.keeps e.inductive_steps rfl
  have hvisits : p.visits = (PathTree.visitedEach ts).map e.graph.qualified := hx.visits_eq.1
  have hsteps : (p.outcome completion).steps = p.steps := rfl
  rw [hsteps, hp, hvisits, List.filter_map]
  rfl

/-! The message on which all paths run -/

theorem inductive_shared (hs : e.options.isolation = .shared) (ht : e.stages.Traces) (m : Message) :
    e.Inductive (fun _ => True) (fun p => m.Notes p.steps p.message) where
  entry _ _ := trivial
  next _ _ _ _ := trivial
  spend hp := hp
  invoke _ hp hx := by
    obtain ⟨hnotes, hsteps⟩ := hx.traces ht
    rw [hsteps]
    exact hp.trans hnotes
  hopLimit hp := Progress.notes_fail hp _
  visitBudget hp := Progress.notes_fail hp _
  fanOutDepth hp := Progress.notes_fail hp _
  enter _ hq := by simpa only [enterBranch, hs] using hq
  leave _ _ hq := by simpa only [leaveFanOut, hs] using hq
  signal hp := by
    rw [Progress.steps_record, Event.step?, Option.toList_none, List.append_nil]
    exact hp

theorem Executes.traces_shared (hs : e.options.isolation = .shared) (ht : e.stages.Traces)
    (hx : e.Executes m ts o) : m.Notes o.steps o.message := by
  obtain ⟨⟨p, completion, hp, rfl⟩, -⟩ := hx.keeps (inductive_shared hs ht m) (Message.notes_nil rfl)
  exact hp

/-! Copies -/

mutual

/-- What a walk on a copy notes is one way through its paths. -/
theorem Walks.traces (hs : e.options.isolation = .snapshot) (ht : e.stages.Traces) {hops depth node : Nat}
    {p q : Progress} {t : PathTree} (hw : e.Walks hops depth node p t q) :
    p.message.Notes (e.stepIds (t.way e.isStep)) q.message := by
  cases hw with
  | hopLimit _ | visitBudget _ _ => exact Message.notes_nil rfl
  | stops hv | ends hv => exact hv.traces ht
  | refused hv _ _ => exact (hv.traces ht).setError _
  | @continues _ _ _ _ _ _ _ t hv hw =>
    have honly : PathTree.wayAmong e.isStep [t] = t.way e.isStep := rfl
    rw [PathTree.way, honly, stepIds_cons]
    exact (hv.traces ht).trans (hw.traces hs ht)
  | @fansOut _ _ _ _ _ q r ts copies hv _ _ hw =>
    have hjoin : (e.leaveFanOut q.message copies r).message = q.message.joinCopies copies := by
      simp only [leaveFanOut, hs]
    rw [PathTree.way, stepIds_cons, stepIds_wayAmong, hjoin]
    exact (hv.traces ht).trans (Message.notes_joinCopies (hw.traces hs ht))

/-- Each copy has the notes of its branch. -/
theorem WalksEach.traces (hs : e.options.isolation = .snapshot) (ht : e.stages.Traces) {hops depth : Nat}
    {base : Message} {branches : List Nat} {p r : Progress} {ts : List PathTree} {copies : List Message}
    (hw : e.WalksEach hops depth base branches p ts copies r) :
    copies.map (·.header? traceHeader) =
      (ts.map (fun t => e.stepIds (t.way e.isStep))).map base.noted := by
  cases hw with
  | nil => rfl
  | cons hw hrest =>
    have hfirst := hw.traces hs ht
    simp only [enterBranch, hs] at hfirst
    rw [List.map_cons, List.map_cons, List.map_cons, hrest.traces hs ht]
    exact congrArg (· :: _) hfirst

end

theorem Executes.traces_snapshot (hs : e.options.isolation = .snapshot) (ht : e.stages.Traces)
    (hx : e.Executes m ts o) : m.Notes (e.stepIds (PathTree.wayAmong e.isStep ts)) o.message := by
  cases hx with
  | endsAtEntry _ | refused _ _ _ _ => exact Message.notes_nil rfl
  | proceeds _ hw => exact hw.traces hs ht
  | @joins branches r ts copies completion _ _ _ hw _ =>
    have hjoin : (((e.leaveFanOut m copies r).record (.signalled completion)).outcome completion).message =
        m.joinCopies copies := by
      simp only [leaveFanOut, hs]
      rfl
    rw [stepIds_wayAmong, hjoin]
    exact Message.notes_joinCopies (hw.traces hs ht)

/-- What the trace of a message shows when all steps note their ids. Where all paths share the message, it shows
what it showed before and then every step that was run, in the order of the runs. On copies it shows what it showed
before and then the steps of one way through the paths, which goes on at each fan-out along the last branch on which
a step was run, and ends where there is none. The limits may cut the paths off anywhere. -/
theorem execute_traces (e : Engine) (m : Message) (ht : e.stages.Traces) :
    (∃ paths, e.Executes m paths (e.execute m)) ∧
      ∀ paths o, e.Executes m paths o →
        o = e.execute m ∧ o.steps = e.stepIds (PathTree.visitedEach paths) ∧
          (e.options.isolation = .shared → o.message.visited = m.visited ++ o.steps) ∧
          (e.options.isolation = .snapshot →
            o.message.visited = m.visited ++ e.stepIds (PathTree.wayAmong e.isStep paths)) := by
  constructor
  · obtain ⟨paths, o, hx⟩ := e.exists_executes m
    exact ⟨paths, hx.eq_execute ▸ hx⟩
  · intro paths o hx
    refine ⟨hx.eq_execute, hx.steps_eq, ?shared, ?snapshot⟩
    case shared =>
      intro hs
      exact (hx.traces_shared hs ht).visited
    case snapshot =>
      intro hs
      exact (hx.traces_snapshot hs ht).visited

end Engine

namespace Mail

/-- A host with the same components, whose steps note their ids. -/
def tracing : FlowHost := { host with factory := tracingFactory }

end Mail

namespace Engine

/-- Urgent mail is recorded and delivered. On copies both happens too, but only the delivery is shown. -/
theorem execute_traces_express :
    ∃ d, Mail.tracing.prepare Mail.flow = .ok d ∧ d.stages.Traces ∧
      ((d.engine {}).execute Mail.express).message.visited = ["mail:record", "mail:deliver"] ∧
      let e := d.engine { isolation := .snapshot }
      ∃ paths, e.Executes Mail.express paths (e.execute Mail.express) ∧
        e.stepIds (PathTree.visitedEach paths) = ["mail:record", "mail:deliver"] ∧
        e.stepIds (PathTree.wayAmong e.isStep paths) = ["mail:deliver"] := by
  have hd : ∃ d, Mail.tracing.prepare Mail.flow = .ok d ∧
      ((d.engine {}).execute Mail.express).steps = ["mail:record", "mail:deliver"] ∧
      ((d.engine { isolation := .snapshot }).execute Mail.express).steps = ["mail:record", "mail:deliver"] ∧
      ((d.engine { isolation := .snapshot }).execute Mail.express).message.visited = ["mail:deliver"] := by
    refine ⟨_, rfl, ?_, rfl, rfl⟩
    simp only [execute, walkSingle, walkShared_eq_visitEach]
    rfl
  obtain ⟨d, hd, hsteps, hcopied, hvisited⟩ := hd
  have ht : d.stages.Traces := FlowHost.traces_of_prepare hd rfl
  have hnew : Mail.express.visited = [] := rfl
  refine ⟨d, hd, ht, ?shared, ?snapshot⟩
  case shared =>
    obtain ⟨⟨paths, hx⟩, hall⟩ := execute_traces (d.engine {}) Mail.express ht
    obtain ⟨-, -, hshared, -⟩ := hall paths _ hx
    rw [hshared rfl, hsteps, hnew]
    rfl
  case snapshot =>
    intro e
    obtain ⟨⟨paths, hx⟩, hall⟩ := execute_traces e Mail.express ht
    obtain ⟨-, hpaths, -, hsnapshot⟩ := hall paths _ hx
    have hway := hsnapshot rfl
    rw [hvisited, hnew, List.nil_append] at hway
    exact ⟨paths, hx, hpaths.symm.trans hcopied, hway.symm⟩

end Engine
end MessageFlow
