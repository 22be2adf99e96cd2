import MessageFlow.Proofs.Limits
import MessageFlow.Proofs.Resolution

/-!
How failures are reported. Each path that ends in failure notes one, in the order of the walk, and the message
leaves with the last of them; on copies the failures of the branches climb through the joins.
-/

namespace MessageFlow

def Event.failure? : Event → Option ExchangeError
  | .failed failure => some failure
  | .step _ | .choice _ | .missing _ | .signalled _ => none

/-- The failures so far, in the order in which they happened. -/
def Progress.failures (p : Progress) : List ExchangeError := p.events.reverse.filterMap Event.failure?

def Outcome.failures (o : Outcome) : List ExchangeError := o.events.filterMap Event.failure?

@[simp] theorem Progress.failures_record (p : Progress) (event : Event) :
    (p.record event).failures = p.failures ++ event.failure?.toList := by
  cases h : event.failure? <;> simp [Progress.failures, Progress.record, h]

@[simp] theorem Progress.failures_fail (p : Progress) (failure : ExchangeError) :
    (p.fail failure).failures = p.failures ++ [failure] := by
  simp [Progress.failures, Progress.fail, Event.failure?]

@[simp] theorem Progress.failures_withMessage (p : Progress) (m : Message) :
    { p with message := m }.failures = p.failures := rfl

/-- Where a path ends in failure: the node, the stages before it on its path, the fan-outs around it, the
visits made before on all paths, and whether a limit ends the path before the stage is looked for. -/
structure FailedEnd where
  node : Nat
  hops : Nat
  depth : Nat
  visits : Nat
  cut : Bool

namespace PathTree

mutual

/-- The ends of paths in failure, in the order of the walk. -/
def failing (hops depth visits : Nat) : PathTree → List FailedEnd
  | .cut node => [⟨node, hops, depth, visits, true⟩]
  | .broken node => [⟨node, hops, depth, visits, false⟩]
  | .passed _ next =>
    failingEach (hops + 1) (if 1 < next.length then depth + 1 else depth) (visits + 1) next

def failingEach (hops depth visits : Nat) : List PathTree → List FailedEnd
  | [] => []
  | t :: ts => t.failing hops depth visits ++ failingEach hops depth (visits + t.visited.length) ts

end

end PathTree

namespace Engine
variable {e : Engine} {last : FailedEnd} {ends others : List FailedEnd}
  {failure : ExchangeError} {failures more : List ExchangeError}

/-- The ends of the paths of an execution in failure. A fan-out of the entry that is refused fails at the
entry, where no path has begun. -/
def failing (e : Engine) (paths : List PathTree) : List FailedEnd :=
  if 1 < (e.graph.successors e.graph.entryNode).length ∧ e.RefusesFanOut 0 then
    [⟨e.graph.entryNode, 0, 0, 0, false⟩]
  else PathTree.failingEach 0 (if 1 < paths.length then 1 else 0) 0 paths

/-- The stage of a node can fail in this way: a step with a text, or a choice at the label of a clause. -/
inductive StageFails (e : Engine) (node : Nat) : ExchangeError → Prop
  | step {s : Processor} {m q : Message} {text : String} :
      e.stages.get? (e.graph.qualified node) = some (.step s) → s.process m = (q, some text) →
      StageFails e node (.stage (e.graph.qualified node) text)
  | choice {c : ChoiceStage} {m q : Message} {label : String} {cause : PredicateError} :
      e.stages.get? (e.graph.qualified node) = some (.choice c) →
      c.process m = (q, some (.predicate (e.graph.qualified node) label cause)) →
      StageFails e node (.predicate (e.graph.qualified node) label cause)

/-- What goes wrong at an end: the hops or the visits are used up, the stage fails, or there are too many
fan-outs around the one behind the node. The failure names the stage of the node. -/
inductive FailsAt (e : Engine) : FailedEnd → ExchangeError → Prop
  | hopLimit {node hops depth visits : Nat} : e.options.maxHops ≤ hops →
      FailsAt e ⟨node, hops, depth, visits, true⟩
        (.hopLimitExceeded (e.graph.qualified node) e.options.maxHops)
  | visitBudget {node hops depth visits : Nat} : hops < e.options.maxHops → e.options.maxVisits ≤ visits →
      FailsAt e ⟨node, hops, depth, visits, true⟩
        (.visitBudgetExceeded (e.graph.qualified node) e.options.maxVisits)
  | stage {node hops depth visits : Nat} {failure : ExchangeError} : e.StageFails node failure →
      FailsAt e ⟨node, hops, depth, visits, false⟩ failure
  | fanOutDepth {node hops depth visits : Nat} : e.RefusesFanOut depth →
      FailsAt e ⟨node, hops, depth, visits, false⟩
        (.fanOutDepthExceeded (e.graph.qualified node) e.options.maxFanOutDepth)

/-- Failures, each of the end in its place. -/
inductive FailsEach (e : Engine) : List FailedEnd → List ExchangeError → Prop
  | nil : FailsEach e [] []
  | cons {last : FailedEnd} {ends : List FailedEnd} {failure : ExchangeError}
      {failures : List ExchangeError} :
      e.FailsAt last failure → FailsEach e ends failures →
      FailsEach e (last :: ends) (failure :: failures)

theorem FailsAt.single (h : e.FailsAt last failure) : e.FailsEach [last] [failure] := .cons h .nil

theorem FailsEach.append (h : e.FailsEach ends failures) (h' : e.FailsEach others more) :
    e.FailsEach (ends ++ others) (failures ++ more) := by
  induction h with
  | nil => exact h'
  | cons hf _ ih => exact .cons hf ih

/-- From one progress to a later one these failures are noted, and the message carries the last of them. -/
structure Reported (p q : Progress) (failures : List ExchangeError) : Prop where
  noted : q.failures = p.failures ++ failures
  carried : q.message.error = failures.getLast?.or p.message.error

/-- At nodes with `N` stages report their failures, and nothing else touches the failure of the message. -/
structure Reporting (e : Engine) (N : Nat → Prop) : Prop extends e.Closed N where
  passes : ∀ {node p js q}, N node → e.Invokes node p (some js) q → Reported p q []
  stops : ∀ {node p q}, N node → e.Invokes node p none q → ∃ failure, e.StageFails node failure ∧
    Reported p q [failure]

theorem Reported.trans {p q r : Progress} (h : Reported p q failures) (h' : Reported q r more) :
    Reported p r (failures ++ more) := by
  constructor
  · rw [h'.noted, h.noted, List.append_assoc]
  · rw [h'.carried, h.carried, List.getLast?_append, Option.or_assoc]

theorem reported_fail (p : Progress) (failure : ExchangeError) : Reported p (p.fail failure) [failure] :=
  ⟨p.failures_fail failure, rfl⟩

theorem reported_signal (p : Progress) (completion : Completion) :
    Reported p (p.record (.signalled completion)) [] :=
  ⟨p.failures_record (.signalled completion), rfl⟩

/-- What a fan-out reports, when its branches have reported. On copies the message has no failure before, so
the join takes the last one that some branch has left. -/
theorem reported_leaveFanOut {p q : Progress} {copies : List Message}
    (hb : e.options.isolation = .snapshot → p.message.error = none)
    (hnoted : q.failures = p.failures ++ failures)
    (hshared : e.options.isolation = .shared → q.message.error = failures.getLast?.or p.message.error)
    (hsnapshot : e.options.isolation = .snapshot →
      latestChange none (copies.map (·.error)) = failures.getLast?) :
    Reported p (e.leaveFanOut p.message copies q) failures := by
  cases hs : e.options.isolation with
  | shared =>
    have hq : e.leaveFanOut p.message copies q = q := by simp only [leaveFanOut, hs]
    rw [hq]
    exact ⟨hnoted, hshared hs⟩
  | snapshot =>
    have hq : e.leaveFanOut p.message copies q = { q with message := p.message.joinCopies copies } := by
      simp only [leaveFanOut, hs]
    have hnone := hb hs
    rw [hq]
    refine ⟨hnoted, ?_⟩
    rw [Message.error_joinCopies, hnone, hsnapshot hs, Option.or_none]

section Walks
variable {N : Nat → Prop}

theorem Visits.passes (h : e.Reporting N) {hops node : Nat} {p q : Progress} {js : List Nat}
    (hv : e.Visits hops node p (some js) q) (hn : N node) : Reported p q [] := by
  obtain ⟨hnoted, hcarried⟩ := h.passes hn hv.invokes
  exact ⟨hnoted, hcarried⟩

theorem Visits.stops (h : e.Reporting N) {hops node : Nat} {p q : Progress}
    (hv : e.Visits hops node p none q) (hn : N node) :
    ∃ failure, e.StageFails node failure ∧ Reported p q [failure] := by
  obtain ⟨failure, hf, hnoted, hcarried⟩ := h.stops hn hv.invokes
  exact ⟨failure, hf, hnoted, hcarried⟩

mutual

/-- A walk reports the failures at the ends of its paths, in their order. -/
theorem Walks.reported (h : e.Reporting N) {hops depth node visits : Nat} {p q : Progress} {t : PathTree}
    (hw : e.Walks hops depth node p t q) (hn : N node)
    (hb : e.options.isolation = .snapshot → p.message.error = none)
    (hvisits : p.visitsLeft + visits = e.options.maxVisits) :
    ∃ failures, e.FailsEach (t.failing hops depth visits) failures ∧ Reported p q failures := by
  cases hw with
  | hopLimit hh => exact ⟨_, (FailsAt.hopLimit hh).single, reported_fail p _⟩
  | visitBudget hh hv => exact ⟨_, (FailsAt.visitBudget hh (by omega)).single, reported_fail p _⟩
  | stops hv =>
    obtain ⟨failure, hf, hq⟩ := hv.stops h hn
    exact ⟨_, (FailsAt.stage hf).single, hq⟩
  | ends hv => exact ⟨_, .nil, hv.passes h hn⟩
  | @continues _ _ _ _ _ q _ t hv hw =>
    have hq := hv.passes h hn
    have hleft : q.visitsLeft + (visits + 1) = e.options.maxVisits := by
      have := hv.spends.2
      omega
    obtain ⟨failures, hf, hr⟩ := hw.reported h (h.next hn hv.invokes _ (List.mem_singleton_self _))
      (fun hs => hq.carried.trans (hb hs)) hleft
    have ht : e.FailsEach (PathTree.failing hops depth visits (.passed node [t])) failures := by
      simpa [PathTree.failing, PathTree.failingEach] using hf
    exact ⟨failures, ht, hq.trans hr⟩
  | @refused _ _ _ _ _ q hv _ hrefused =>
    exact ⟨_, (FailsAt.fanOutDepth hrefused).single, (hv.passes h hn).trans (reported_fail q _)⟩
  | @fansOut _ _ _ _ _ q _ ts _ hv hl _ hw =>
    have hq := hv.passes h hn
    have hbase := fun hs => hq.carried.trans (hb hs)
    have hleft : q.visitsLeft + (visits + 1) = e.options.maxVisits := by
      have := hv.spends.2
      omega
    obtain ⟨failures, hf, hnoted, hshared, hsnapshot⟩ :=
      hw.reported h (h.next hn hv.invokes) hbase hleft
    have ht : e.FailsEach (PathTree.failing hops depth visits (.passed node ts)) failures := by
      rw [PathTree.failing, if_pos (hw.length_eq ▸ hl)]
      exact hf
    exact ⟨failures, ht, hq.trans (reported_leaveFanOut hbase hnoted hshared hsnapshot)⟩

theorem WalksEach.reported (h : e.Reporting N) {hops depth visits : Nat} {base : Message}
    {branches : List Nat} {p r : Progress} {ts : List PathTree} {copies : List Message}
    (hw : e.WalksEach hops depth base branches p ts copies r)
    (hn : ∀ j ∈ branches, N j) (hb : e.options.isolation = .snapshot → base.error = none)
    (hvisits : p.visitsLeft + visits = e.options.maxVisits) :
    ∃ failures, e.FailsEach (PathTree.failingEach hops depth visits ts) failures ∧
      r.failures = p.failures ++ failures ∧
      (e.options.isolation = .shared → r.message.error = failures.getLast?.or p.message.error) ∧
      (e.options.isolation = .snapshot → latestChange none (copies.map (·.error)) = failures.getLast?) := by
  cases hw with
  | nil => exact ⟨[], .nil, by simp, fun _ => rfl, fun _ => rfl⟩
  | @cons _ _ _ _ _ _ q _ t _ _ hw hrest =>
    obtain ⟨hbranch, hbranches⟩ := List.forall_mem_cons.1 hn
    have hstart (hs : e.options.isolation = .snapshot) : (e.enterBranch base p).message.error = none := by
      simp only [enterBranch, hs]
      exact hb hs
    have hentered := (e.enterBranch_visits base p).2
    have hleft : q.visitsLeft + (visits + t.visited.length) = e.options.maxVisits := by
      have := hw.spends.2
      omega
    obtain ⟨first, hf, hq⟩ := hw.reported h hbranch hstart (hentered ▸ hvisits)
    obtain ⟨others, hfs, hnoted, hshared, hsnapshot⟩ := hrest.reported h hbranches hb hleft
    refine ⟨first ++ others, hf.append hfs, ?noted, fun hs => ?shared, fun hs => ?snapshot⟩
    case noted =>
      rw [hnoted, hq.noted, Progress.failures, events_enterBranch, List.append_assoc]
      rfl
    case shared =>
      have hp : e.enterBranch base p = p := by simp only [enterBranch, hs]
      rw [hshared hs, hq.carried, hp, List.getLast?_append, Option.or_assoc]
    case snapshot =>
      -- Each copy starts without a failure, so what it ends with is the last failure of its own branch.
      rw [List.map_cons, latestChange_none_cons, hsnapshot hs, hq.carried, hstart hs, Option.or_none,
        List.getLast?_append]

end

theorem Executes.exists_reported (h : e.Reporting N) {m : Message} {paths : List PathTree} {o : Outcome}
    (hx : e.Executes m paths o) (hm : m.error = none) :
    ∃ q completion failures, o = q.outcome completion ∧ e.FailsEach (e.failing paths) failures ∧
      Reported (e.start m) q failures := by
  have hb : e.options.isolation = .snapshot → (e.start m).message.error = none := fun _ => hm
  have hvisits : (e.start m).visitsLeft + 0 = e.options.maxVisits := rfl
  cases hx with
  | endsAtEntry hs =>
    refine ⟨_, _, [], rfl, ?_, reported_signal _ _⟩
    rw [failing, if_neg (by simp [hs])]
    exact .nil
  | @proceeds next _ t hs hw =>
    have hnext : N next := h.entry next (hs ▸ List.mem_singleton_self next)
    obtain ⟨failures, hf, hr⟩ := hw.reported h hnext hb hvisits
    refine ⟨_, _, failures, rfl, ?_, (reported_signal _ _).trans hr⟩
    rw [failing, if_neg (by simp [hs])]
    simpa [PathTree.failingEach] using hf
  | refused hs hl hr _ =>
    refine ⟨_, _, _, rfl, ?_, (reported_fail _ _).trans (reported_signal _ _)⟩
    rw [failing, if_pos ⟨hs ▸ hl, hr⟩]
    exact (FailsAt.fanOutDepth hr).single
  | @joins _ r _ copies completion hs hl hr hw _ =>
    obtain ⟨failures, hf, hnoted, hshared, hsnapshot⟩ := hw.reported h (hs ▸ h.entry) hb hvisits
    have hq : Reported (e.start m) (e.leaveFanOut m copies r) failures :=
      reported_leaveFanOut hb hnoted hshared hsnapshot
    have hsignal := hq.trans (reported_signal _ completion)
    rw [List.append_nil] at hsignal
    refine ⟨_, _, failures, rfl, ?_, hsignal⟩
    rw [failing, if_neg (fun hn => hr hn.2), if_pos (hw.length_eq ▸ hl)]
    exact hf

/-- An execution on a message without a failure notes the failures at the ends of its paths, and leaves the
last of them on the message. -/
theorem Executes.reported (h : e.Reporting N) {m : Message} {paths : List PathTree} {o : Outcome}
    (hx : e.Executes m paths o) (hm : m.error = none) :
    e.FailsEach (e.failing paths) o.failures ∧ o.message.error = o.failures.getLast? := by
  obtain ⟨q, completion, failures, rfl, hf, hnoted, hcarried⟩ := hx.exists_reported h hm
  have hstart : (e.start m).message.error = none := hm
  have hfailures : (q.outcome completion).failures = failures := hnoted
  rw [hfailures]
  refine ⟨hf, ?_⟩
  rw [hstart, Option.or_none] at hcarried
  exact hcarried

end Walks
end Engine

namespace FlowHost
variable {h : FlowHost} {f : FlowDefinition} {d : DeployedFlow} {options : EngineOptions} {id : String}
  {c : ChoiceStage}

end FlowHost
end MessageFlow
