import MessageFlow.Proofs.Log

/-!
Executions side by side. Where a relation between two runs is kept by every single step, the second run does
what the first one does: it unfolds into the same paths. Steps that note a barred failure need no match; what
follows then holds of the first runs in which no such failure is noted.
-/

namespace MessageFlow

/-- No barred failure has been noted. -/
def Progress.Free (Barred : ExchangeError → Prop) (p : Progress) : Prop :=
  ∀ failure, Barred failure → .failed failure ∉ p.events

namespace Engine

/-- A limit ends a path before the stage of the node is looked for. -/
inductive CutsOff (e : Engine) (hops node : Nat) (p : Progress) : ExchangeError → Prop
  | hopLimit : e.options.maxHops ≤ hops →
      CutsOff e hops node p (.hopLimitExceeded (e.graph.qualified node) e.options.maxHops)
  | visitBudget : hops < e.options.maxHops → p.visitsLeft = 0 →
      CutsOff e hops node p (.visitBudgetExceeded (e.graph.qualified node) e.options.maxVisits)

/-- The failure of a fan-out that is refused. -/
def refusal (e : Engine) (node : Nat) : ExchangeError :=
  .fanOutDepthExceeded (e.graph.qualified node) e.options.maxFanOutDepth

/-- Two messages that stand at related places of two runs. -/
def Meet (R : Progress → Progress → Prop) (m n : Message) : Prop :=
  ∃ p q, R p q ∧ p.message = m ∧ q.message = n

/-- From related progresses the second engine matches every step of the first one, but for those that note a
barred failure, and comes to related progresses. -/
structure Simulates (e e' : Engine) (Barred : ExchangeError → Prop) (R : Progress → Progress → Prop) :
    Prop where
  graph : e'.graph = e.graph
  visit : ∀ {hops node p p' next q}, R p p' → e.Visits hops node p next q →
    ∃ q', e'.Visits hops node p' next q' ∧ R q q'
  cut : ∀ {hops node p p' failure}, R p p' → ¬ Barred failure → e.CutsOff hops node p failure →
    ∃ failure', e'.CutsOff hops node p' failure' ∧ R (p.fail failure) (p'.fail failure')
  refuse : ∀ {depth node p p'}, R p p' → ¬ Barred (e.refusal node) → e.RefusesFanOut depth →
    e'.RefusesFanOut depth ∧ R (p.fail (e.refusal node)) (p'.fail (e'.refusal node))
  permit : ∀ {depth}, ¬ e.RefusesFanOut depth → ¬ e'.RefusesFanOut depth
  enter : ∀ {p p' q q'}, R p p' → R q q' →
    R (e.enterBranch p.message q) (e'.enterBranch p'.message q')
  leave : ∀ {p p' q q' copies copies'}, R p p' → R q q' → List.Forall₂ (Meet R) copies copies' →
    R (e.leaveFanOut p.message copies q) (e'.leaveFanOut p'.message copies' q')
  signal : ∀ {p p' completion}, R p p' →
    R (p.record (.signalled completion)) (p'.record (.signalled completion))

variable {e e' : Engine} {Barred : ExchangeError → Prop} {R : Progress → Progress → Prop}
  {hops depth node : Nat} {base m m' : Message} {branches : List Nat} {p q r : Progress}
  {failure : ExchangeError} {ts : List PathTree} {copies : List Message} {o : Outcome}

theorem CutsOff.walks (h : e.CutsOff hops node p failure) :
    e.Walks hops depth node p (.cut node) (p.fail failure) := by
  cases h with
  | hopLimit hh => exact .hopLimit hh
  | visitBudget hh hv => exact .visitBudget hh hv

theorem not_barred_of_fail (h : (p.fail failure).Free Barred) : ¬ Barred failure :=
  fun hb => h failure hb List.mem_cons_self

/-- What the branches behind have not noted, the first ones have not noted either. -/
theorem WalksEach.free (h : e.WalksEach hops depth base branches p ts copies r) (hr : r.Free Barred) :
    p.Free Barred := by
  obtain ⟨logs, hp, -⟩ := h.logged
  intro failure hb hm
  exact hr failure hb (hp ▸ List.mem_append_right _ hm)

theorem free_leaveFanOut : (e.leaveFanOut base copies p).Free Barred ↔ p.Free Barred := by
  rw [Progress.Free, events_leaveFanOut, Progress.Free]

mutual

/-- A walk is matched by one that unfolds into the same tree. -/
theorem Walks.simulated (h : e.Simulates e' Barred R) {hops depth node : Nat} {p p' q : Progress}
    {t : PathTree} (hw : e.Walks hops depth node p t q) (hp : R p p') (hq : q.Free Barred) :
    ∃ q', e'.Walks hops depth node p' t q' ∧ R q q' := by
  cases hw with
  | hopLimit hh =>
    obtain ⟨failure, hc, hr⟩ := h.cut hp (not_barred_of_fail hq) (.hopLimit hh)
    exact ⟨_, hc.walks, hr⟩
  | visitBudget hh hv =>
    obtain ⟨failure, hc, hr⟩ := h.cut hp (not_barred_of_fail hq) (.visitBudget hh hv)
    exact ⟨_, hc.walks, hr⟩
  | stops hv =>
    obtain ⟨q', hv', hr⟩ := h.visit hp hv
    exact ⟨q', .stops hv', hr⟩
  | ends hv =>
    obtain ⟨q', hv', hr⟩ := h.visit hp hv
    exact ⟨q', .ends hv', hr⟩
  | continues hv hw =>
    obtain ⟨q', hv', hr⟩ := h.visit hp hv
    obtain ⟨r', hw', hr'⟩ := hw.simulated h hr hq
    exact ⟨r', .continues hv' hw', hr'⟩
  | refused hv hl hd =>
    obtain ⟨q', hv', hr⟩ := h.visit hp hv
    obtain ⟨hd', hr'⟩ := h.refuse hr (not_barred_of_fail hq) hd
    exact ⟨_, .refused hv' hl hd', hr'⟩
  | fansOut hv hl hd hw =>
    -- The message of the fan-out is that of `hr`, and so is the progress of the first branch.
    obtain ⟨q', hv', hr⟩ := h.visit hp hv
    obtain ⟨copies', r', hw', hr', hcopies⟩ := hw.simulated h hr hr (free_leaveFanOut.1 hq)
    exact ⟨_, .fansOut hv' hl (h.permit hd) hw', h.leave hr hr' hcopies⟩

theorem WalksEach.simulated (h : e.Simulates e' Barred R) {hops depth : Nat} {branches : List Nat}
    {b c p p' r : Progress} {ts : List PathTree} {copies : List Message}
    (hw : e.WalksEach hops depth b.message branches p ts copies r) (hb : R b c) (hp : R p p')
    (hr : r.Free Barred) :
    ∃ copies' r', e'.WalksEach hops depth c.message branches p' ts copies' r' ∧ R r r' ∧
      List.Forall₂ (Meet R) copies copies' := by
  cases hw with
  | nil => exact ⟨[], p', .nil, hp, .nil⟩
  | cons hw hrest =>
    -- That nothing barred is noted is known at the end; it holds earlier since logs only grow.
    obtain ⟨q', hw', hq⟩ := hw.simulated h (h.enter hb hp) (hrest.free hr)
    obtain ⟨copies', r', hrest', hr', hcopies⟩ := hrest.simulated h hb hq hr
    exact ⟨_, r', .cons hw' hrest', hr', .cons ⟨_, _, hq, rfl, rfl⟩ hcopies⟩

end

/-- An execution is matched by one that unfolds into the same paths and has the same completion. -/
theorem Executes.simulated (h : e.Simulates e' Barred R) (hx : e.Executes m ts o)
    (hm : R (e.start m) (e'.start m')) (ho : ∀ failure, Barred failure → .failed failure ∉ o.events) :
    ∃ q q' completion, R q q' ∧ o = q.outcome completion ∧
      e'.Executes m' ts (q'.outcome completion) := by
  have hfree : ∀ {q : Progress} {completion}, o = q.outcome completion → q.Free Barred := by
    rintro q completion rfl failure hb hmem
    exact ho failure hb (List.mem_reverse.2 hmem)
  cases hx with
  | endsAtEntry hb => exact ⟨_, _, _, h.signal hm, rfl, .endsAtEntry (h.graph ▸ hb)⟩
  | proceeds hb hw =>
    obtain ⟨q', hw', hr⟩ := hw.simulated h (h.signal hm) (hfree rfl)
    exact ⟨_, _, _, hr, rfl, .proceeds (h.graph ▸ hb) hw'⟩
  | refused hb hl hd hc =>
    have hnot : ¬ Barred (e.refusal e.graph.entryNode) := fun hbar =>
      hfree rfl _ hbar (List.mem_cons_of_mem _ List.mem_cons_self)
    obtain ⟨hd', hr⟩ := h.refuse hm hnot hd
    rw [← h.graph] at hb
    rw [show e.graph.entryNode = e'.graph.entryNode by rw [h.graph]] at hr
    exact ⟨_, _, _, h.signal hr, by rw [h.graph]; rfl, .refused hb hl hd' hc⟩
  | @joins branches r ts copies completion hb hl hd hw hc =>
    have hr : r.Free Barred := by
      intro failure hbar hmem
      refine hfree rfl failure hbar (List.mem_cons_of_mem _ ?_)
      rwa [events_leaveFanOut]
    obtain ⟨copies', r', hw', hr', hcopies⟩ :=
      WalksEach.simulated (b := e.start m) (c := e'.start m') h hw hm hm hr
    exact ⟨_, _, _, h.signal (h.leave hm hr' hcopies), rfl,
      .joins (h.graph ▸ hb) hl (h.permit hd) hw' hc⟩

end Engine
end MessageFlow
