import MessageFlow.Proofs.Isolation
import MessageFlow.Proofs.Oblivious

/-!
Budgets of visits. A run with a smaller budget goes in step with a run that has a larger one, until it is
refused its first visit. From then on it makes no visit at all, while the other run goes on from the same
place; so the smaller budget cuts the end of the invocations off, and changes nothing before.
-/

namespace MessageFlow

/-- A stage is invoked, or would be if it were registered. -/
def Event.invokes (event : Event) : Bool := event.visited?.isSome

namespace Progress
variable {p q : Progress} {log : List Event} {failure : ExchangeError} {event : Event}

/-- The invocations so far, in their order. -/
def invocations (p : Progress) : List Event := p.events.reverse.filter Event.invokes

theorem Adds.invocations_eq (h : p.Adds log q) : q.invocations = p.invocations ++ log.filter Event.invokes := by
  rw [invocations, h, List.reverse_append, List.reverse_reverse, List.filter_append]
  rfl

theorem Adds.invocations_same (h : p.Adds log q) (hn : log.filter Event.invokes = []) :
    q.invocations = p.invocations := by
  rw [h.invocations_eq, hn, List.append_nil]

/-- A progress comes to a later one by events of which each invocation uses up a visit. -/
def Leads (p q : Progress) : Prop :=
  ∃ log, p.Adds log q ∧ q.visitsLeft + (log.filter Event.invokes).length = p.visitsLeft

theorem Unrefused.record (h : p.Unrefused) (he : event.failure? = none) : (p.record event).Unrefused := by
  intro id limit hmem
  rcases List.mem_cons.1 hmem with rfl | hmem
  · cases he
  · exact h id limit hmem

theorem Unrefused.fail (h : p.Unrefused) (hf : ∀ id limit, failure ≠ .visitBudgetExceeded id limit) :
    (p.fail failure).Unrefused := by
  intro id limit hmem
  rcases List.mem_cons.1 hmem with heq | hmem
  · cases heq
    exact hf id limit rfl
  · exact h id limit hmem

end Progress

/-- The invocations of an execution, in their order. -/
def Outcome.invocations (o : Outcome) : List Event := o.events.filter Event.invokes

theorem Outcome.visits_invocations (o : Outcome) : o.invocations.filterMap Event.visited? = o.visits := by
  rw [invocations, visits, List.filterMap_filter]
  congr
  funext event
  cases event <;> rfl

namespace Engine

/-- The same engine with a budget of visits. -/
def inBudget (e : Engine) (visits : Nat) : Engine :=
  { e with options := { e.options with maxVisits := visits } }

variable {e : Engine} {k n d hops depth node : Nat} {visited : List Nat} {failed : Bool} {log : List Event}
  {base m : Message} {branches : List Nat} {next : Option (List Nat)} {p p' q q' r : Progress} {t : PathTree}
  {ts : List PathTree} {copies : List Message} {o : Outcome} {failure : ExchangeError}

theorem Logs.length_invocations (h : e.Logs visited failed log) :
    (log.filter Event.invokes).length = visited.length := by
  have hlength := congrArg List.length h.visits
  rw [List.length_filterMap_eq_countP, List.length_map] at hlength
  rw [← hlength, List.countP_eq_length_filter]
  rfl

theorem Visits.leads (h : e.Visits hops node p next q) : p.Leads q := by
  obtain ⟨log, hq, hlog⟩ := h.logged
  have hspent := h.spends.2
  exact ⟨log, hq, by rw [hlog.length_invocations]; exact hspent⟩

theorem Walks.leads (h : e.Walks hops depth node p t q) : p.Leads q := by
  obtain ⟨log, hq, hlog⟩ := h.logged
  exact ⟨log, hq, by rw [hlog.length_invocations]; exact h.spends.2⟩

theorem WalksEach.leads (h : e.WalksEach hops depth base branches p ts copies q) : p.Leads q := by
  obtain ⟨logs, hq, hlogs⟩ := h.logged
  exact ⟨logs.flatten, hq, by rw [(logs_flatten hlogs).length_invocations]; exact h.spends.2⟩

theorem leads_leaveFanOut (e : Engine) (base : Message) (copies : List Message) (p : Progress) :
    p.Leads (e.leaveFanOut base copies p) :=
  ⟨[], e.events_leaveFanOut base copies p, (e.leaveFanOut_visits base copies p).2⟩

theorem leads_signal (p : Progress) (completion : Completion) : p.Leads (p.record (.signalled completion)) :=
  ⟨_, p.adds_record _, rfl⟩

theorem invoke_inBudget (e : Engine) (visits : Nat) : (e.inBudget visits).invoke = e.invoke := rfl

/-- The stage of a node is never the one that notes a refused visit. -/
theorem Invokes.unrefused (h : e.Invokes node p next q) (hp : p.Unrefused) : q.Unrefused := by
  cases h with
  | missing _ => exact Progress.Unrefused.fail (hp.record rfl) (by simp)
  | stepPasses _ _ | choicePasses _ _ => exact Progress.Unrefused.record (p := { p with message := _ }) hp rfl
  | stepFails _ _ | choiceFails _ _ =>
    exact Progress.Unrefused.fail (Progress.Unrefused.record (p := { p with message := _ }) hp rfl) (by simp)

/-- The run with the budget `k` has done all that the other one has done, which can make `d` visits more. -/
structure InStep (k d : Nat) (p p' : Progress) : Prop where
  lifted : p' = p.lift d []
  used : p.invocations.length + p.visitsLeft = k
  unrefused : p.Unrefused

/-- The run with the budget `k` has used it up and has been refused a visit that the other one has made. -/
structure Behind (k : Nat) (p p' : Progress) : Prop where
  spent : p.visitsLeft = 0
  used : p.invocations.length = k
  refused : ¬ p.Unrefused
  invoked : p.invocations <+: p'.invocations
  fewer : p.invocations.length < p'.invocations.length

namespace InStep
variable (h : InStep k d p p')
include h

theorem message_eq : p'.message = p.message := by
  rw [h.lifted]
  rfl

theorem visitsLeft_eq : p'.visitsLeft = p.visitsLeft + d := by
  rw [h.lifted]
  rfl

theorem invocations_eq : p'.invocations = p.invocations := by
  rw [h.lifted, Progress.invocations, Progress.lift, List.append_nil]
  rfl

theorem fail (hf : ∀ id limit, failure ≠ .visitBudgetExceeded id limit) :
    InStep k d (p.fail failure) (p'.fail failure) where
  lifted := by rw [h.lifted]; rfl
  used := by
    rw [(p.adds_fail failure).invocations_same rfl]
    exact h.used
  unrefused := h.unrefused.fail hf

theorem signal (completion : Completion) :
    InStep k d (p.record (.signalled completion)) (p'.record (.signalled completion)) where
  lifted := by rw [h.lifted]; rfl
  used := by
    rw [(p.adds_record (.signalled completion)).invocations_same rfl]
    exact h.used
  unrefused := h.unrefused.record rfl

theorem withMessage (m : Message) : InStep k d { p with message := m } { p' with message := m } where
  lifted := by rw [h.lifted]; rfl
  used := h.used
  unrefused := h.unrefused

theorem enter (base : Message) :
    InStep k d ((e.inBudget k).enterBranch base p) ((e.inBudget n).enterBranch base p') := by
  cases hs : e.options.isolation
  · simpa only [enterBranch, inBudget, hs] using h
  · simpa only [enterBranch, inBudget, hs] using h.withMessage base

theorem leave (base : Message) (copies : List Message) :
    InStep k d ((e.inBudget k).leaveFanOut base copies p) ((e.inBudget n).leaveFanOut base copies p') := by
  cases hs : e.options.isolation
  · simpa only [leaveFanOut, inBudget, hs] using h
  · simpa only [leaveFanOut, inBudget, hs] using h.withMessage (base.joinCopies copies)

/-- Both runs visit a node while the smaller budget is not used up. -/
theorem visit (hv : (e.inBudget n).Visits hops node p' next q') (hleft : 0 < p.visitsLeft) :
    ∃ q, (e.inBudget k).Visits hops node p next q ∧ InStep k d q q' := by
  have hstart : { p' with visitsLeft := p'.visitsLeft - 1 } =
      Progress.lift { p with visitsLeft := p.visitsLeft - 1 } d [] := by
    rw [h.lifted]
    exact Progress.spend_lift hleft
  have hinvoked := hv.invoked
  rw [hstart, lift_invoke, invoke_inBudget, ← invoke_inBudget e k] at hinvoked
  have hnext : ((e.inBudget k).invoke node { p with visitsLeft := p.visitsLeft - 1 }).1 = next :=
    congrArg Prod.fst hinvoked
  have hv' : (e.inBudget k).Visits hops node p next
      ((e.inBudget k).invoke node { p with visitsLeft := p.visitsLeft - 1 }).2 :=
    ⟨hv.hop, hleft, Prod.ext hnext rfl⟩
  refine ⟨_, hv', (congrArg Prod.snd hinvoked).symm, ?_, hv'.invokes.unrefused h.unrefused⟩
  obtain ⟨log, hq, hspent⟩ := hv'.leads
  rw [hq.invocations_eq, List.length_append]
  have := h.used
  omega

/-- The budget is used up, and the other run makes the visit that is refused. -/
theorem fallsBehind (hleft : p.visitsLeft = 0) (id : String) (limit : Nat) (hq : p'.Leads q')
    (hvisit : q'.visitsLeft < p'.visitsLeft) : Behind k (p.fail (.visitBudgetExceeded id limit)) q' := by
  have hsame := (p.adds_fail (.visitBudgetExceeded id limit)).invocations_same rfl
  obtain ⟨log, hlog, hspent⟩ := hq
  have hmore : q'.invocations = p.invocations ++ log.filter Event.invokes := by
    rw [hlog.invocations_eq, h.invocations_eq]
  have hused := h.used
  refine ⟨hleft, ?_, fun hun => hun id limit List.mem_cons_self, ?_, ?_⟩
  · rw [hsame]
    omega
  · rw [hsame, hmore]
    exact List.prefix_append _ _
  · rw [hsame, hmore, List.length_append]
    omega

end InStep

namespace Behind
variable (h : Behind k p p')
include h

/-- A run that is behind only makes failures from there on. -/
theorem leads (hq : p.Leads q) (hq' : p'.Leads q') : Behind k q q' := by
  obtain ⟨log, hlog, hspent⟩ := hq
  obtain ⟨log', hlog', -⟩ := hq'
  have hnone : log.filter Event.invokes = [] := List.length_eq_zero_iff.1 (by have := h.spent; omega)
  have hsame := hlog.invocations_same hnone
  have hmore : p'.invocations <+: q'.invocations := by
    rw [hlog'.invocations_eq]
    exact List.prefix_append _ _
  refine ⟨?_, ?_, ?_, ?_, ?_⟩
  · have := h.spent
    omega
  · rw [hsame, h.used]
  · exact fun hun => h.refused (hun.of_suffix ⟨_, hlog.symm⟩)
  · rw [hsame]
    exact h.invoked.trans hmore
  · rw [hsame]
    exact Nat.lt_of_lt_of_le h.fewer hmore.length_le

end Behind

/-- The larger run goes on from a node at which the smaller one has no visit left. -/
theorem Walks.fallsBehind (hd : 0 < d) (hw : (e.inBudget n).Walks hops depth node p' t q')
    (hp : InStep k d p p') (hh : hops < e.options.maxHops) (hleft : p.visitsLeft = 0) :
    ∃ t' q, (e.inBudget k).Walks hops depth node p t' q ∧ Behind k q q' := by
  have hvisited : t.visited ≠ [] := by
    cases hw with
    | hopLimit hlimit => exact absurd hlimit (Nat.not_le.2 hh)
    | visitBudget _ hv =>
      have := hp.visitsLeft_eq
      omega
    | _ => simp [PathTree.visited]
  have hlength := List.length_pos_iff.2 hvisited
  have hspent := hw.spends.2
  exact ⟨_, _, .visitBudget hh hleft, hp.fallsBehind hleft _ _ hw.leads (by omega)⟩

mutual

/-- A walk in step stays in step and unfolds into the same tree, or it falls behind. -/
theorem Walks.truncated (hd : 0 < d) {hops depth node : Nat} {p p' q' : Progress} {t : PathTree}
    (hw : (e.inBudget n).Walks hops depth node p' t q') (hp : InStep k d p p') :
    ∃ t' q, (e.inBudget k).Walks hops depth node p t' q ∧ (InStep k d q q' ∧ t' = t ∨ Behind k q q') := by
  by_cases hbudget : hops < e.options.maxHops ∧ p.visitsLeft = 0
  · obtain ⟨t', q, hw', hq⟩ := hw.fallsBehind hd hp hbudget.1 hbudget.2
    exact ⟨t', q, hw', .inr hq⟩
  have hleft (hh : hops < e.options.maxHops) : 0 < p.visitsLeft :=
    Nat.pos_of_ne_zero fun hzero => hbudget ⟨hh, hzero⟩
  cases hw with
  | hopLimit hh => exact ⟨_, _, .hopLimit hh, .inl ⟨hp.fail (by simp), rfl⟩⟩
  | visitBudget _ hv =>
    have := hp.visitsLeft_eq
    omega
  | stops hv =>
    obtain ⟨q, hv', hq⟩ := hp.visit hv (hleft hv.hop)
    exact ⟨_, q, .stops hv', .inl ⟨hq, rfl⟩⟩
  | ends hv =>
    obtain ⟨q, hv', hq⟩ := hp.visit hv (hleft hv.hop)
    exact ⟨_, q, .ends hv', .inl ⟨hq, rfl⟩⟩
  | continues hv hw =>
    obtain ⟨q, hv', hq⟩ := hp.visit hv (hleft hv.hop)
    obtain ⟨t', r, hw', hr⟩ := hw.truncated hd hq
    refine ⟨_, r, .continues hv' hw', hr.imp_left ?_⟩
    rintro ⟨hr', rfl⟩
    exact ⟨hr', rfl⟩
  | refused hv hl hr =>
    obtain ⟨q, hv', hq⟩ := hp.visit hv (hleft hv.hop)
    exact ⟨_, _, .refused hv' hl hr, .inl ⟨hq.fail (by simp), rfl⟩⟩
  | fansOut hv hl hr hw =>
    obtain ⟨q, hv', hq⟩ := hp.visit hv (hleft hv.hop)
    rw [hq.message_eq] at hw ⊢
    obtain ⟨ts', copies', r, hw', hcopies⟩ := hw.truncated hd hq
    refine ⟨_, _, .fansOut hv' hl hr hw', ?_⟩
    rcases hcopies with ⟨hr', rfl, rfl⟩ | hr'
    · exact .inl ⟨hr'.leave _ _, rfl⟩
    · exact .inr (hr'.leads (leads_leaveFanOut ..) (leads_leaveFanOut ..))

/-- Branches in step stay in step, unfold into the same trees and leave the same copies, or they fall behind.
-/
theorem WalksEach.truncated (hd : 0 < d) {hops depth : Nat} {base : Message} {branches : List Nat}
    {p p' q' : Progress} {ts : List PathTree} {copies : List Message}
    (hw : (e.inBudget n).WalksEach hops depth base branches p' ts copies q') (hp : InStep k d p p') :
    ∃ ts' copies' q, (e.inBudget k).WalksEach hops depth base branches p ts' copies' q ∧
      (InStep k d q q' ∧ ts' = ts ∧ copies' = copies ∨ Behind k q q') := by
  cases hw with
  | nil => exact ⟨_, _, p, .nil, .inl ⟨hp, rfl, rfl⟩⟩
  | @cons _ _ _ rest _ _ _ _ _ _ _ hw hrest =>
    obtain ⟨t', r, hw', ⟨hr, rfl⟩ | hr⟩ := hw.truncated hd (hp.enter base)
    · obtain ⟨ts', copies', q, hrest', hq⟩ := hrest.truncated hd hr
      refine ⟨_, _, q, .cons hw' hrest', hq.imp_left ?_⟩
      rintro ⟨hstep, rfl, rfl⟩
      exact ⟨hstep, rfl, by rw [hr.message_eq]⟩
    · -- The branches behind are walked all the same, but no stage is invoked on them.
      have hwalk : ∀ node p, ∃ t q, (e.inBudget k).Walks hops depth node p t q :=
        exists_walks (e.inBudget k).options.maxHops (Nat.le_add_left _ _) depth
      obtain ⟨ts', copies', q, hrest'⟩ := exists_walksEach hwalk base rest r
      exact ⟨_, _, q, .cons hw' hrest', .inr (hr.leads hrest'.leads hrest.leads)⟩

end

/-- An execution with the budget `k` beside the same one with a larger budget: the same outcome in the end, or
it has fallen behind. -/
theorem Executes.truncated (hk : k < n) (hx : (e.inBudget n).Executes m ts o) :
    ∃ ts' q q' completion completion', (e.inBudget k).Executes m ts' (q.outcome completion) ∧
      o = q'.outcome completion' ∧
      (InStep k (n - k) q q' ∧ ts' = ts ∧ completion = completion' ∨ Behind k q q') := by
  have hstart : InStep k (n - k) ((e.inBudget k).start m) ((e.inBudget n).start m) := by
    have hlifted : (e.inBudget n).start m = ((e.inBudget k).start m).lift (n - k) [] := by
      have hbudget : k + (n - k) = n := by omega
      simp only [start, inBudget, Progress.lift, hbudget, List.append_nil]
    exact ⟨hlifted, Nat.zero_add k, fun id limit hmem => by cases hmem⟩
  have hd : 0 < n - k := by omega
  cases hx with
  | endsAtEntry hb => exact ⟨_, _, _, _, _, .endsAtEntry hb, rfl, .inl ⟨hstart.signal _, rfl, rfl⟩⟩
  | proceeds hb hw =>
    obtain ⟨t', q, hw', hq⟩ := hw.truncated hd (hstart.signal _)
    refine ⟨_, q, _, _, _, .proceeds hb hw', rfl, hq.imp_left ?_⟩
    rintro ⟨hstep, rfl⟩
    exact ⟨hstep, rfl, rfl⟩
  | refused hb hl hr hc =>
    exact ⟨_, _, _, _, _, .refused hb hl hr hc, rfl, .inl ⟨(hstart.fail (by simp)).signal _, rfl, rfl⟩⟩
  | @joins branches r _ copies completion hb hl hr hw hc =>
    obtain ⟨ts', copies', q, hw', hq⟩ := hw.truncated hd hstart
    refine ⟨_, _, _, _, _, .joins hb hl hr hw' rfl, rfl, ?_⟩
    rcases hq with ⟨hq, rfl, rfl⟩ | hq
    · subst hc
      exact .inl ⟨(hq.leave m _).signal _, rfl, rfl⟩
    · have hleft := hq.leads ((e.inBudget k).leads_leaveFanOut m copies' q)
        ((e.inBudget n).leads_leaveFanOut m copies r)
      exact .inr (hleft.leads (leads_signal _ _) (leads_signal _ _))

/-- A smaller budget of visits cuts the end of the invocations off, and does nothing else to them: of the
stages that are invoked with a larger budget, the first ones are invoked, as many as the budget allows. A path
is refused a visit exactly when some invocation is cut off. In both runs the invocations are those of the
paths, branch after branch. -/
theorem execute_truncates (e : Engine) (m : Message) {k n : Nat} (hk : k < n) :
    let small := (e.inBudget k).execute m
    let large := (e.inBudget n).execute m
    small.invocations = large.invocations.take (min k large.invocations.length) ∧
      ((∃ id limit, .failed (.visitBudgetExceeded id limit) ∈ small.events) ↔
        k < large.invocations.length) ∧
      ∀ budget, ∃ paths, (e.inBudget budget).Executes m paths ((e.inBudget budget).execute m) ∧
        ((e.inBudget budget).execute m).invocations.filterMap Event.visited? =
          (PathTree.visitedEach paths).map e.graph.qualified := by
  intro small large
  obtain ⟨ts, o, hx⟩ := (e.inBudget n).exists_executes m
  obtain rfl : o = large := hx.eq_execute
  obtain ⟨ts', q, q', completion, completion', hx', ho, hq⟩ := hx.truncated hk
  have hsmall : q.outcome completion = small := hx'.eq_execute
  have hinvocations : small.invocations = q.invocations ∧ large.invocations = q'.invocations := by
    rw [← hsmall, ho]
    exact ⟨rfl, rfl⟩
  have hrefused : (∃ id limit, .failed (.visitBudgetExceeded id limit) ∈ small.events) ↔ ¬ q.Unrefused := by
    simp [← hsmall, Progress.outcome, Progress.Unrefused]
  rw [hinvocations.1, hinvocations.2, hrefused]
  refine ⟨?first, ?refused, ?ordered⟩
  case first =>
    rcases hq with ⟨hstep, -⟩ | hbehind
    · have := hstep.used
      rw [hstep.invocations_eq, Nat.min_eq_right (by omega), List.take_length]
    · have hfewer := hbehind.fewer
      rw [hbehind.used] at hfewer
      rw [Nat.min_eq_left (Nat.le_of_lt hfewer), ← hbehind.used]
      exact List.prefix_iff_eq_take.1 hbehind.invoked
  case refused =>
    rcases hq with ⟨hstep, -⟩ | hbehind
    · have := hstep.used
      rw [hstep.invocations_eq]
      exact iff_of_false (not_not_intro hstep.unrefused) (by omega)
    · exact iff_of_true hbehind.refused (hbehind.used ▸ hbehind.fewer)
  case ordered =>
    intro budget
    obtain ⟨paths, o, hx⟩ := (e.inBudget budget).exists_executes m
    obtain rfl := hx.eq_execute
    exact ⟨paths, hx, (Outcome.visits_invocations _).trans hx.visits_eq.1⟩

/-- On copies the wheel makes five visits, and a budget of two cuts three of them off. -/
theorem execute_truncates_wheel :
    let wheel := wheelEngine.inIsolation .snapshot
    2 < 5 ∧ ((wheel.inBudget 2).execute blank).invocations = [.choice "f:hub", .choice "f:hub"] ∧
      ∃ id limit, .failed (.visitBudgetExceeded id limit) ∈ ((wheel.inBudget 2).execute blank).events := by
  intro wheel
  have hlarge : ((wheel.inBudget 5).execute blank).invocations =
      [.choice "f:hub", .choice "f:hub", .choice "f:hub", .step "f:rim", .step "f:rim"] := by
    rw [Outcome.invocations, show wheel.inBudget 5 = wheel from rfl, events_wheelEngine]
    rfl
  obtain ⟨hfirst, hrefused, -⟩ := execute_truncates wheel blank (by decide : 2 < 5)
  rw [hlarge] at hfirst hrefused
  exact ⟨by decide, hfirst, hrefused.2 (by decide)⟩

end Engine
end MessageFlow
