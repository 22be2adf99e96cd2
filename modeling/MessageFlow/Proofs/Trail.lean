import MessageFlow.Graph.Walk
import MessageFlow.Proofs.Simulation
import MessageFlow.Proofs.Truncation

/-!
Executions of steps that never fail. Nothing but the limits keeps them from going along every edge, so what
they unfold into can be read off the graph alone: it is the unfolding of the graph below the entry, cut at the
hop limit. The log follows it, and where all paths share the message, the log says what becomes of the
message.
-/

namespace MessageFlow

/-- What goes on from a node, cut where the hops are used up: all nodes that follow it, in the order of its
edges, and what goes on from them. -/
def CompiledGraph.unfolding (g : CompiledGraph) : (hopsLeft node : Nat) → PathTree
  | 0, node => .cut node
  | hops + 1, node => .passed node ((g.successors node).map (g.unfolding hops))

/-- What goes on behind a node. -/
abbrev CompiledGraph.unfoldings (g : CompiledGraph) (hopsLeft node : Nat) : List PathTree :=
  (g.successors node).map (g.unfolding hopsLeft)

namespace Engine

mutual

/-- The log of a flow of steps: each visited node has its step, and each path that is cut its failure. -/
def trail (e : Engine) : PathTree → List Event
  | .cut node => [.failed (.hopLimitExceeded (e.graph.qualified node) e.options.maxHops)]
  | .broken node => [.step (e.graph.qualified node)]
  | .passed node next => .step (e.graph.qualified node) :: e.trailEach next

def trailEach (e : Engine) : List PathTree → List Event
  | [] => []
  | t :: ts => e.trail t ++ e.trailEach ts

end

/-- What an event makes of the message: its step works on it, or its failure is attached to it. -/
def replay (e : Engine) (m : Message) : Event → Message
  | .step id =>
    match e.stages.get? id with
    | some (.step s) => (s.process m).1
    | some (.choice _) | none => m
  | .failed failure => m.setError failure
  | .choice _ | .missing _ | .signalled _ => m

/-- The stage of the node is a step that never fails. -/
def Passes (e : Engine) (node : Nat) : Prop :=
  ∃ s, e.stages.get? (e.graph.qualified node) = some (.step s) ∧ ∀ m, (s.process m).2 = none

variable {e : Engine} {g : CompiledGraph} {hops depth node left : Nat} {base m : Message} {branches : List Nat}
  {next : Option (List Nat)} {p q r : Progress} {t : PathTree} {ts : List PathTree} {copies : List Message}
  {o : Outcome} {w : List Nat}

/-! The unfolding and the walks -/

theorem mem_trailEach {event : Event} : event ∈ e.trailEach ts ↔ ∃ t ∈ ts, event ∈ e.trail t := by
  induction ts with
  | nil => simp [trailEach]
  | cons t ts ih => simp [trailEach, ih]

theorem visited_unfolding_succ (hops node : Nat) :
    (g.unfolding (hops + 1) node).visited = node :: PathTree.visitedEach (g.unfoldings hops node) := by
  rw [CompiledGraph.unfolding, PathTree.visited]

theorem getLast?_cons_of_mem_walks (h : w ∈ g.walks hops node) (first : Nat) :
    (first :: w).getLast? = w.getLast? := by
  cases w with
  | nil => exact absurd (CompiledGraph.mem_walks_iff.1 h).2.1 (by simp)
  | cons second rest => rfl

/-- The nodes of the unfolding are the ends of the walks. -/
theorem map_visited_unfoldings (hops start : Nat) :
    (PathTree.visitedEach (g.unfoldings hops start)).map some = (g.walks hops start).map List.getLast? := by
  induction hops generalizing start with
  | zero =>
    have hcut (js : List Nat) : PathTree.visitedEach (js.map (g.unfolding 0)) = [] := by
      induction js with
      | nil => rfl
      | cons j js ih => exact ih
    rw [hcut]
    rfl
  | succ hops ih =>
    rw [CompiledGraph.walks, CompiledGraph.unfoldings]
    induction g.successors start with
    | nil => rfl
    | cons j js ihj =>
      have hends : ((g.walks hops j).map (j :: ·)).map List.getLast? = (g.walks hops j).map List.getLast? := by
        rw [List.map_map]
        exact List.map_congr_left fun w hw => getLast?_cons_of_mem_walks hw j
      rw [List.map_cons, PathTree.visitedEach, visited_unfolding_succ, List.map_append, List.map_cons, ih j, ihj,
        List.flatMap_cons, List.map_append, List.map_cons, hends]
      rfl

/-- A path is cut exactly where a walk goes on. -/
theorem hopLimit_mem_trailEach_iff (hops start : Nat) :
    (∃ id limit, .failed (.hopLimitExceeded id limit) ∈ e.trailEach (e.graph.unfoldings hops start)) ↔
      ∃ w, e.graph.IsWalk start w ∧ hops < w.length := by
  have hbranch :
      (∃ id limit, .failed (.hopLimitExceeded id limit) ∈ e.trailEach (e.graph.unfoldings hops start)) ↔
      ∃ j ∈ e.graph.successors start,
        ∃ id limit, .failed (.hopLimitExceeded id limit) ∈ e.trail (e.graph.unfolding hops j) := by
    simp only [mem_trailEach, List.mem_map, exists_exists_and_eq_and]
    constructor
    · rintro ⟨id, limit, j, hj, hmem⟩
      exact ⟨j, hj, id, limit, hmem⟩
    · rintro ⟨j, hj, id, limit, hmem⟩
      exact ⟨id, limit, j, hj, hmem⟩
  have hwalk : (∃ w, e.graph.IsWalk start w ∧ hops < w.length) ↔
      ∃ j ∈ e.graph.successors start, ∃ w, e.graph.IsWalk j w ∧ hops ≤ w.length := by
    constructor
    · rintro ⟨_ | ⟨j, w⟩, hw, hlength⟩
      · cases hlength
      · exact ⟨j, hw.1, w, hw.2, Nat.le_of_lt_succ hlength⟩
    · rintro ⟨j, hj, w, hw, hlength⟩
      exact ⟨j :: w, ⟨hj, hw⟩, Nat.lt_succ_of_le hlength⟩
  rw [hbranch, hwalk]
  refine exists_congr fun j => and_congr_right fun _ => ?_
  cases hops with
  | zero => exact iff_of_true ⟨_, _, List.mem_singleton_self _⟩ ⟨[], trivial, Nat.le_refl 0⟩
  | succ hops =>
    have hbehind := hopLimit_mem_trailEach_iff hops j
    rw [CompiledGraph.unfolding, trail]
    simpa [Nat.succ_le_iff] using hbehind

mutual

/-- The invocations of a trail are those of its nodes. -/
theorem invocations_trail (t : PathTree) :
    (e.trail t).filter Event.invokes = t.visited.map (fun i => .step (e.graph.qualified i)) := by
  cases t with
  | cut node => rfl
  | broken node => rfl
  | passed node next =>
    rw [trail, PathTree.visited, List.map_cons, ← invocations_trailEach next]
    rfl

theorem invocations_trailEach (ts : List PathTree) :
    (e.trailEach ts).filter Event.invokes =
      (PathTree.visitedEach ts).map (fun i => .step (e.graph.qualified i)) := by
  cases ts with
  | nil => rfl
  | cons t ts =>
    rw [trailEach, PathTree.visitedEach, List.filter_append, List.map_append, invocations_trail t,
      invocations_trailEach ts]

end

mutual

/-- The only failures of a trail are those of the hop limit. -/
theorem failure_of_mem_trail (t : PathTree) {failure : ExchangeError} (h : .failed failure ∈ e.trail t) :
    ∃ id limit, failure = .hopLimitExceeded id limit := by
  cases t with
  | cut node =>
    rw [trail, List.mem_singleton, Event.failed.injEq] at h
    exact ⟨_, _, h⟩
  | broken node => simp [trail] at h
  | passed node next =>
    rw [trail, List.mem_cons] at h
    exact failure_of_mem_trailEach next (h.resolve_left (by simp))

theorem failure_of_mem_trailEach (ts : List PathTree) {failure : ExchangeError}
    (h : .failed failure ∈ e.trailEach ts) : ∃ id limit, failure = .hopLimitExceeded id limit := by
  cases ts with
  | nil => cases h
  | cons t ts =>
    rw [trailEach, List.mem_append] at h
    rcases h with h | h
    · exact failure_of_mem_trail t h
    · exact failure_of_mem_trailEach ts h

end

/-! What an execution unfolds into -/

/-- These events lead from one progress to a later one; where all paths share the message, they say what
becomes of it. -/
structure Replays (e : Engine) (p : Progress) (log : List Event) (q : Progress) : Prop where
  adds : p.Adds log q
  message : e.options.isolation = .shared → q.message = log.foldl e.replay p.message

namespace Replays
variable {log rest : List Event}

theorem nil : e.Replays p [] p := ⟨rfl, fun _ => rfl⟩

theorem fail (p : Progress) (failure : ExchangeError) : e.Replays p [.failed failure] (p.fail failure) :=
  ⟨p.adds_fail failure, fun _ => rfl⟩

theorem signal (p : Progress) (completion : Completion) :
    e.Replays p [.signalled completion] (p.record (.signalled completion)) :=
  ⟨p.adds_record _, fun _ => rfl⟩

theorem trans (h : e.Replays p log q) (h' : e.Replays q rest r) : e.Replays p (log ++ rest) r where
  adds := h.adds.trans h'.adds
  message hs := by rw [List.foldl_append, ← h.message hs, h'.message hs]

theorem enter (base : Message) (h : e.Replays (e.enterBranch base p) log q) : e.Replays p log q where
  adds := by
    rw [Progress.Adds, ← e.events_enterBranch base p]
    exact h.adds
  message hs := by simpa only [enterBranch, hs] using h.message hs

theorem leave (base : Message) (copies : List Message) (h : e.Replays p log q) :
    e.Replays p log (e.leaveFanOut base copies q) where
  adds := (e.events_leaveFanOut base copies q).trans h.adds
  message hs := by simpa only [leaveFanOut, hs] using h.message hs

end Replays

/-- A visit of such a node leads on to all nodes that follow it. -/
theorem Visits.goes_on (h : e.Visits hops node p next q) (hn : e.Passes node) :
    next = some (e.graph.successors node) ∧ e.Replays p [.step (e.graph.qualified node)] q := by
  obtain ⟨s, hs, hpass⟩ := hn
  have hreplay (m : Message) : e.replay m (.step (e.graph.qualified node)) = (s.process m).1 := by
    simp only [replay, hs]
  cases h.invokes with
  | missing hs' | choicePasses hs' _ | choiceFails hs' _ => rw [hs] at hs'; cases hs'
  | stepPasses hs' hm =>
    rw [hs] at hs'
    cases hs'
    refine ⟨rfl, rfl, fun _ => ?_⟩
    rw [List.foldl_cons, List.foldl_nil, hreplay]
    exact (congrArg Prod.fst hm).symm
  | stepFails hs' hm =>
    rw [hs] at hs'
    cases hs'
    have := hpass p.message
    rw [hm] at this
    cases this

/-- A fan-out on copies is refused. -/
def TooDeep (e : Engine) (failure : ExchangeError) : Prop :=
  e.options.isolation = .snapshot ∧ ∃ id limit, failure = .fanOutDepthExceeded id limit

theorem unfolding_of_lt (hh : hops < e.options.maxHops) (node : Nat) :
    g.unfolding (e.options.maxHops - hops) node =
      .passed node (g.unfoldings (e.options.maxHops - (hops + 1)) node) := by
  have hleft : e.options.maxHops - hops = e.options.maxHops - (hops + 1) + 1 := by omega
  rw [hleft, CompiledGraph.unfolding]

mutual

/-- With enough visits, a walk unfolds into all that the graph has below the node. -/
theorem Walks.unfolds (h : ∀ i, ∀ j ∈ e.graph.successors i, e.Passes j) {hops depth node : Nat}
    {p q : Progress} {t : PathTree} (hw : e.Walks hops depth node p t q) (hn : e.Passes node)
    (hb : (e.graph.unfolding (e.options.maxHops - hops) node).visited.length ≤ p.visitsLeft)
    (hd : q.Free e.TooDeep) :
    t = e.graph.unfolding (e.options.maxHops - hops) node ∧ e.Replays p (e.trail t) q := by
  cases hw with
  | hopLimit hh =>
    rw [Nat.sub_eq_zero_of_le hh]
    exact ⟨rfl, .fail _ _⟩
  | visitBudget hh hv =>
    rw [unfolding_of_lt hh, PathTree.visited, List.length_cons] at hb
    omega
  | stops hv => cases (hv.goes_on hn).1
  | ends hv =>
    obtain ⟨hnext, hq⟩ := hv.goes_on hn
    rw [unfolding_of_lt hv.hop, CompiledGraph.unfoldings, ← Option.some.inj hnext]
    exact ⟨rfl, hq⟩
  | @continues _ _ _ next _ q _ _ hv hw =>
    obtain ⟨hnext, hq⟩ := hv.goes_on hn
    have hspent := hv.spends.2
    rw [unfolding_of_lt hv.hop, CompiledGraph.unfoldings, ← Option.some.inj hnext] at hb ⊢
    have hleft : (e.graph.unfolding (e.options.maxHops - (hops + 1)) next).visited.length ≤ q.visitsLeft := by
      simp [PathTree.visited, PathTree.visitedEach] at hb
      omega
    have hpass : e.Passes next := h node next (Option.some.inj hnext ▸ List.mem_singleton_self next)
    obtain ⟨rfl, hr⟩ := hw.unfolds h hpass hleft hd
    refine ⟨rfl, ?_⟩
    rw [trail, trailEach, trailEach, List.append_nil]
    exact hq.trans hr
  | refused hv hl hr => exact absurd ⟨hr.1, _, _, rfl⟩ (not_barred_of_fail hd)
  | @fansOut _ _ _ branches _ q _ _ _ hv hl hr hw =>
    obtain ⟨hnext, hq⟩ := hv.goes_on hn
    obtain rfl := Option.some.inj hnext
    have hspent := hv.spends.2
    rw [unfolding_of_lt hv.hop] at hb ⊢
    have hleft : (PathTree.visitedEach (e.graph.unfoldings (e.options.maxHops - (hops + 1)) node)).length ≤
        q.visitsLeft := by
      rw [PathTree.visited, List.length_cons] at hb
      omega
    obtain ⟨rfl, hr'⟩ := hw.unfolds h (h node) hleft (free_leaveFanOut.1 hd)
    refine ⟨rfl, ?_⟩
    rw [trail]
    exact hq.trans (hr'.leave q.message _)

theorem WalksEach.unfolds (h : ∀ i, ∀ j ∈ e.graph.successors i, e.Passes j) {hops depth : Nat}
    {base : Message} {branches : List Nat} {p r : Progress} {ts : List PathTree} {copies : List Message}
    (hw : e.WalksEach hops depth base branches p ts copies r) (hn : ∀ j ∈ branches, e.Passes j)
    (hb : (PathTree.visitedEach (branches.map (e.graph.unfolding (e.options.maxHops - hops)))).length ≤
      p.visitsLeft)
    (hd : r.Free e.TooDeep) :
    ts = branches.map (e.graph.unfolding (e.options.maxHops - hops)) ∧ e.Replays p (e.trailEach ts) r := by
  cases hw with
  | nil => exact ⟨rfl, .nil⟩
  | @cons _ _ branch rest _ _ q _ _ _ _ hw hrest =>
    obtain ⟨hbranch, hbranches⟩ := List.forall_mem_cons.1 hn
    have hspent := hw.spends.2
    rw [(e.enterBranch_visits base p).2] at hspent
    rw [List.map_cons, PathTree.visitedEach, List.length_append] at hb
    have hfirst : (e.graph.unfolding (e.options.maxHops - hops) branch).visited.length ≤
        (e.enterBranch base p).visitsLeft := by
      rw [(e.enterBranch_visits base p).2]
      omega
    obtain ⟨rfl, hq⟩ := hw.unfolds h hbranch hfirst (hrest.free hd)
    obtain ⟨rfl, hr⟩ := hrest.unfolds h hbranches (by omega) hd
    exact ⟨rfl, (hq.enter base).trans hr⟩

end

/-- The log is that of the paths, but for signals before and behind it. -/
def Framed (log events : List Event) : Prop :=
  ∃ before after, events = before ++ (log ++ after) ∧ ∀ event ∈ before ++ after, event.signalled?.isSome

namespace Framed
variable {log events : List Event} (h : Framed log events)
include h

theorem invocations : events.filter Event.invokes = log.filter Event.invokes := by
  obtain ⟨before, after, rfl, hsignals⟩ := h
  have hnone (signals : List Event) (hs : ∀ event ∈ signals, event.signalled?.isSome) :
      signals.filter Event.invokes = [] := by
    refine List.filter_eq_nil_iff.2 fun event hmem => ?_
    have hsignal := hs event hmem
    cases event with
    | signalled _ => exact Bool.false_ne_true
    | _ => cases hsignal
  obtain ⟨hbefore, hafter⟩ := List.forall_mem_append.1 hsignals
  rw [List.filter_append, List.filter_append, hnone before hbefore, hnone after hafter, List.nil_append,
    List.append_nil]

theorem failed_iff {failure : ExchangeError} : .failed failure ∈ events ↔ .failed failure ∈ log := by
  obtain ⟨before, after, rfl, hsignals⟩ := h
  constructor
  · intro hmem
    rw [List.mem_append, List.mem_append] at hmem
    rcases hmem with hmem | hmem | hmem
    · cases hsignals _ (List.mem_append_left _ hmem)
    · exact hmem
    · cases hsignals _ (List.mem_append_right _ hmem)
  · intro hmem
    exact List.mem_append_right _ (List.mem_append_left _ hmem)

end Framed

/-- What an execution unfolds into, and its log: the trail of all the paths, and the completion before it or
behind it. Where all paths share the message, the trail says what becomes of it. -/
theorem Executes.unfolds (h : ∀ i, ∀ j ∈ e.graph.successors i, e.Passes j) (hx : e.Executes m ts o)
    (hb : (PathTree.visitedEach (e.graph.unfoldings e.options.maxHops e.graph.entryNode)).length ≤
      e.options.maxVisits)
    (hd : ∀ failure, e.TooDeep failure → .failed failure ∉ o.events) :
    ts = e.graph.unfoldings e.options.maxHops e.graph.entryNode ∧
      (e.options.isolation = .shared → o.message = (e.trailEach ts).foldl e.replay m) ∧
      Framed (e.trailEach ts) o.events := by
  have hfree {q : Progress} {completion : Completion} (ho : o = q.outcome completion) : q.Free e.TooDeep := by
    intro failure hf hmem
    exact hd failure hf (ho ▸ List.mem_reverse.2 hmem)
  cases hx with
  | endsAtEntry hs =>
    rw [CompiledGraph.unfoldings, hs]
    exact ⟨rfl, fun _ => rfl, [.signalled .noSuccessors], [], rfl, by simp [Event.signalled?]⟩
  | @proceeds next q t hs hw =>
    have hn : e.Passes next := h e.graph.entryNode next (hs ▸ List.mem_singleton_self next)
    rw [CompiledGraph.unfoldings, hs] at hb ⊢
    have hleft : (e.graph.unfolding (e.options.maxHops - 0) next).visited.length ≤
        ((e.start m).record (.signalled .proceeding)).visitsLeft := by
      rw [show ((e.start m).record (.signalled .proceeding)).visitsLeft = e.options.maxVisits from rfl]
      simpa [PathTree.visitedEach] using hb
    obtain ⟨rfl, hq⟩ := hw.unfolds h hn hleft (hfree rfl)
    have hevents := ((Replays.signal (e.start m) .proceeding).trans hq).adds.outcome_events .proceeding
    rw [trailEach, trailEach, List.append_nil]
    exact ⟨rfl, hq.message, [.signalled .proceeding], [], by simpa using hevents, by simp [Event.signalled?]⟩
  | refused _ _ hr _ =>
    have hdeep : e.TooDeep (e.refusal e.graph.entryNode) := ⟨hr.1, _, _, rfl⟩
    exact absurd (List.mem_cons_of_mem _ List.mem_cons_self) (hfree rfl _ hdeep)
  | @joins branches r ts copies completion hs hl hr hw hc =>
    subst hs
    have hq : (e.leaveFanOut m copies r).Free e.TooDeep :=
      fun failure hf hmem => hfree rfl failure hf (List.mem_cons_of_mem _ hmem)
    obtain ⟨rfl, hlog⟩ := hw.unfolds h (h e.graph.entryNode) hb (free_leaveFanOut.1 hq)
    have hjoin := hlog.leave m copies
    have hevents := (hjoin.trans (.signal _ completion)).adds.outcome_events completion
    exact ⟨rfl, hjoin.message, [], [.signalled completion], hevents, by simp [Event.signalled?]⟩

end Engine
end MessageFlow
