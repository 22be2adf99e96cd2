import MessageFlow.Proofs.Materialized
import MessageFlow.Proofs.Merge
import MessageFlow.Proofs.Simulation

/-!
Stale choice matches. A choice forgets the choice match that it finds before it asks its first predicate, and
what no choice has set nobody reads. So two messages that differ in nothing else go the same way, as long as
the steps do not tell them apart.
-/

namespace MessageFlow
namespace Message
variable {m n base base' : Message} {copies copies' : List Message}

/-- The messages are equal, but perhaps for the choice match. -/
structure Alike (m n : Message) : Prop where
  id : m.id = n.id
  createdAt : m.createdAt = n.createdAt
  body : m.body = n.body
  headers : m.headers = n.headers
  error : m.error = n.error
  property : ∀ name, name ≠ choiceMatchKey → m.property? name = n.property? name

theorem alike_refl (m : Message) : m.Alike m :=
  ⟨rfl, rfl, rfl, rfl, rfl, fun _ _ => rfl⟩

theorem alike_setProperty (m : Message) (value : Json) : m.Alike (m.setProperty choiceMatchKey value) where
  id := rfl
  createdAt := rfl
  body := rfl
  headers := rfl
  error := rfl
  property name hn := by rw [property?_setProperty, if_neg hn]

theorem alike_clearChoiceMatch (m : Message) : m.Alike m.clearChoiceMatch where
  id := rfl
  createdAt := rfl
  body := rfl
  headers := rfl
  error := rfl
  property name hn := by rw [clearChoiceMatch, property?_removeProperty, if_neg hn]

theorem Alike.trans {l : Message} (h : l.Alike m) (h' : m.Alike n) : l.Alike n where
  id := h.id.trans h'.id
  createdAt := h.createdAt.trans h'.createdAt
  body := h.body.trans h'.body
  headers := h.headers.trans h'.headers
  error := h.error.trans h'.error
  property name hn := (h.property name hn).trans (h'.property name hn)

theorem Alike.setError (h : m.Alike n) (failure : ExchangeError) :
    (m.setError failure).Alike (n.setError failure) :=
  ⟨h.id, h.createdAt, h.body, h.headers, rfl, h.property⟩

/-- Nothing is left of the difference when the choice match is forgotten. -/
theorem Alike.clearChoiceMatch_eq (h : m.Alike n) : m.clearChoiceMatch = n.clearChoiceMatch := by
  have hproperties : m.properties.erase choiceMatchKey = n.properties.erase choiceMatchKey := by
    apply Dict.ext_get?
    intro name
    rw [Dict.get?_erase, Dict.get?_erase]
    split
    · rfl
    · next hn => exact h.property name hn
  cases m
  cases n
  obtain ⟨hid, hcreated, hbody, hheaders, herror, -⟩ := h
  dsimp only at hid hcreated hbody hheaders herror hproperties
  subst hid hcreated hbody hheaders herror
  simp only [clearChoiceMatch, removeProperty, hproperties]

/-- The copies agree in every place that cannot tell alike messages apart. -/
theorem map_eq_of_alike {α : Type} {f : Message → α} (hf : ∀ {m n : Message}, m.Alike n → f m = f n)
    (h : List.Forall₂ Alike copies copies') : copies.map f = copies'.map f := by
  rw [← List.forall₂_eq_eq_eq, List.forall₂_map_left_iff, List.forall₂_map_right_iff]
  exact h.imp fun _ _ => hf

/-- A join compares copies with the message of the fan-out place by place, and the choice match is no such
place: it is restored, and the join is alike whatever it was. -/
theorem Alike.joinCopies (hb : base.Alike base') (h : List.Forall₂ Alike copies copies') :
    (base.joinCopies copies).Alike (base'.joinCopies copies') where
  id := by rw [id_joinCopies, id_joinCopies, hb.id]
  createdAt := by rw [createdAt_joinCopies, createdAt_joinCopies, hb.createdAt]
  body := by
    have hcopies : copies.map (fun c => some c.body) = copies'.map (fun c => some c.body) :=
      map_eq_of_alike (fun hc => congrArg some hc.body) h
    exact Option.some.inj (by rw [body_joinCopies, body_joinCopies, hb.body, hcopies])
  headers := by
    apply Dict.ext_get?
    intro name
    have hbase : base.header? name = base'.header? name := by rw [header?, header?, hb.headers]
    have hcopies : copies.map (·.header? name) = copies'.map (·.header? name) :=
      map_eq_of_alike (fun hc => by rw [header?, header?, hc.headers]) h
    show (base.joinCopies copies).header? name = (base'.joinCopies copies').header? name
    rw [header?_joinCopies, header?_joinCopies, hbase, hcopies]
  error := by
    have hcopies : copies.map (·.error) = copies'.map (·.error) := map_eq_of_alike Alike.error h
    rw [error_joinCopies, error_joinCopies, hb.error, hcopies]
  property name hn := by
    have hcopies : copies.map (·.property? name) = copies'.map (·.property? name) :=
      map_eq_of_alike (fun hc => hc.property name hn) h
    rw [property?_joinCopies hn, property?_joinCopies hn, hb.property name hn, hcopies]

end Message

/-- A choice cannot tell alike messages apart, whatever its predicates look at. -/
theorem ChoiceStage.process_alike {m n : Message} (c : ChoiceStage) (h : m.Alike n) :
    c.process m = c.process n := by
  rw [process, process, h.clearChoiceMatch_eq]

/-- No step can tell alike messages apart: it fails alike, with the same text, and leaves them alike. -/
def StageSet.MatchBlind (s : StageSet) : Prop :=
  ∀ {id p}, s.get? id = some (.step p) → ∀ m n, m.Alike n →
    (p.process m).2 = (p.process n).2 ∧ (p.process m).1.Alike (p.process n).1

/-- Two runs that have come to the same place: with alike messages, as many visits left, and the same
events behind them. -/
structure Progress.Alike (p q : Progress) : Prop where
  message : p.message.Alike q.message
  visitsLeft : p.visitsLeft = q.visitsLeft
  events : p.events = q.events

namespace Progress.Alike
variable {p q : Progress} {m n : Message}

theorem withMessage (h : p.Alike q) (hm : m.Alike n) :
    { p with message := m }.Alike { q with message := n } :=
  ⟨hm, h.visitsLeft, h.events⟩

theorem spend (h : p.Alike q) :
    { p with visitsLeft := p.visitsLeft - 1 }.Alike { q with visitsLeft := q.visitsLeft - 1 } :=
  ⟨h.message, congrArg (· - 1) h.visitsLeft, h.events⟩

theorem record (h : p.Alike q) (event : Event) : (p.record event).Alike (q.record event) :=
  ⟨h.message, h.visitsLeft, congrArg (event :: ·) h.events⟩

theorem fail (h : p.Alike q) (failure : ExchangeError) : (p.fail failure).Alike (q.fail failure) :=
  ⟨h.message.setError failure, h.visitsLeft, congrArg (Event.failed failure :: ·) h.events⟩

end Progress.Alike

namespace Engine
variable {e : Engine} {m n : Message}

/-- Alike runs stay alike at a visit, and go on to the same nodes. -/
theorem invoke_alike {p q : Progress} (h : e.stages.MatchBlind) (hp : p.Alike q) (node : Nat) :
    (e.invoke node p).1 = (e.invoke node q).1 ∧ (e.invoke node p).2.Alike (e.invoke node q).2 := by
  unfold invoke
  dsimp only
  cases hs : e.stages.get? (e.graph.qualified node) with
  | none => exact ⟨rfl, (hp.record _).fail _⟩
  | some stage =>
    cases stage with
    | step s =>
      obtain ⟨htext, hm⟩ := h hs _ _ hp.message
      dsimp only
      rcases hp' : s.process p.message with ⟨m, text⟩
      rcases hq' : s.process q.message with ⟨n, text'⟩
      rw [hp', hq'] at htext hm
      obtain rfl : text = text' := htext
      cases text with
      | none => exact ⟨rfl, (hp.withMessage hm).record _⟩
      | some text => exact ⟨rfl, ((hp.withMessage hm).record _).fail _⟩
    | choice c =>
      -- Both runs continue on the very same message: the difference ends here.
      dsimp only
      rw [c.process_alike hp.message]
      rcases c.process q.message with ⟨m, _ | failure⟩
      · exact ⟨rfl, (hp.withMessage (Message.alike_refl _)).record _⟩
      · exact ⟨rfl, ((hp.withMessage (Message.alike_refl _)).record _).fail _⟩

/-- Runs of one engine on alike messages match each other step by step. -/
theorem simulates_alike (h : e.stages.MatchBlind) :
    e.Simulates e (fun _ => False) Progress.Alike where
  graph := rfl
  visit {hops node p p' next q} hp hv := by
    obtain ⟨hnext, hq⟩ := invoke_alike h hp.spend node
    rw [hv.invoked] at hnext hq
    exact ⟨(e.invoke node { p' with visitsLeft := p'.visitsLeft - 1 }).2,
      ⟨hv.hop, hp.visitsLeft ▸ hv.visit, Prod.ext hnext.symm rfl⟩, hq⟩
  cut hp _ hc := by
    cases hc with
    | hopLimit hh => exact ⟨_, .hopLimit hh, hp.fail _⟩
    | visitBudget hh hv => exact ⟨_, .visitBudget hh (hp.visitsLeft ▸ hv), hp.fail _⟩
  refuse hp _ hr := ⟨hr, hp.fail _⟩
  permit hr := hr
  enter {p p' q q'} hp hq := by
    unfold enterBranch
    split
    · exact hq
    · exact hq.withMessage hp.message
  leave {p p' q q' copies copies'} hp hq hcopies := by
    have hmeet : List.Forall₂ Message.Alike copies copies' := by
      refine hcopies.imp fun _ _ hm => ?_
      obtain ⟨r, s, hr, rfl, rfl⟩ := hm
      exact hr.message
    unfold leaveFanOut
    split
    · exact hq
    · exact hq.withMessage (hp.message.joinCopies hmeet)
  signal hp := hp.record _

/-- A stale choice match never influences a run. On messages that are equal but for the choice match, which
may be any text, no text, or missing, with steps that do not tell such messages apart, the two runs unfold
into the same paths. So they make the same visits, note the same failures, tell the same completion, and end
with messages that are again equal but for the choice match. -/
theorem execute_alike (e : Engine) (m n : Message) (hs : e.stages.MatchBlind) (hm : m.Alike n) :
    (∃ paths, e.Executes m paths (e.execute m) ∧ e.Executes n paths (e.execute n)) ∧
      (e.execute m).visits = (e.execute n).visits ∧
      (e.execute m).events = (e.execute n).events ∧
      (e.execute m).completion = (e.execute n).completion ∧
      (e.execute m).message.Alike (e.execute n).message := by
  obtain ⟨paths, o, hx⟩ := e.exists_executes m
  have hstart : (e.start m).Alike (e.start n) := ⟨hm, rfl, rfl⟩
  obtain ⟨p, q, completion, hpq, rfl, hx'⟩ := hx.simulated (simulates_alike hs) hstart (by simp)
  have hevents : (p.outcome completion).events = (q.outcome completion).events :=
    congrArg List.reverse hpq.events
  rw [← hx.eq_execute, ← hx'.eq_execute]
  refine ⟨⟨paths, hx, hx'⟩, ?visits, hevents, rfl, hpq.message⟩
  rw [Outcome.visits, Outcome.visits, hevents]

end Engine

namespace Mail

/-- The steps of the host leave a message as it is, and have looked at nothing. -/
theorem matchBlind {d : DeployedFlow} (hd : host.prepare flow = .ok d) : d.stages.MatchBlind := by
  intro id s hs m n h
  obtain ⟨text, hprocess⟩ := process_of_stage hd hs
  rw [hprocess m, hprocess n]
  exact ⟨rfl, h⟩

end Mail

namespace Engine

/-- Urgent mail goes its way also when it comes with a choice match that leads elsewhere. -/
theorem execute_alike_express :
    ∃ d, Mail.host.prepare Mail.flow = .ok d ∧ d.stages.MatchBlind ∧
      Mail.express.Alike (Mail.express.setChoiceMatch "mail:store") ∧
      ((d.engine { isolation := .snapshot }).execute
        (Mail.express.setChoiceMatch "mail:store")).message.error =
          some (.stage "mail:record" "refused") := by
  obtain ⟨d, hd, -, herror⟩ := Mail.prepared
  have hs : d.stages.MatchBlind := Mail.matchBlind hd
  have hm : Mail.express.Alike (Mail.express.setChoiceMatch "mail:store") :=
    Mail.express.alike_setProperty (.string "mail:store")
  obtain ⟨-, -, -, -, hmessage⟩ := execute_alike (d.engine { isolation := .snapshot }) _ _ hs hm
  exact ⟨d, hd, hs, hm, hmessage.error.symm.trans herror⟩

end Engine
end MessageFlow
