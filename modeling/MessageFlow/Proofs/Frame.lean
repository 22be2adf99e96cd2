import MessageFlow.Proofs.Decision
import MessageFlow.Proofs.Edits
import MessageFlow.Proofs.Invariant

/-!
What the engine leaves alone. Of a message it writes the choice match and the failure. Every other part is as
the steps leave it: a choice does not touch it, a failure does not show in it, and a join of copies that have not
changed it changes nothing.
-/

namespace MessageFlow

/-- The latest change of a place that no copy has changed. -/
theorem latestChange_unchanged {α : Type} [BEq α] {base : Option α} {finals : List (Option α)}
    (h : ∀ v ∈ finals, v = base) : latestChange base finals = base := by
  rcases latestChange_mem base finals with hbase | hmem
  · exact hbase
  · exact h _ hmem

namespace Message
variable {base : Message} {copies : List Message} {name : String}

/-- A part of a message that does not belong to the engine: it does not depend on the choice match or the
failure, and a join keeps it when all copies have it as they got it. -/
structure Foreign {α : Type} (part : Message → α) : Prop where
  alike : ∀ {m n}, m.Alike n → part m = part n
  setError : ∀ m failure, part (m.setError failure) = part m
  joinCopies : ∀ {base copies}, (∀ c ∈ copies, part c = part base) →
    part (base.joinCopies copies) = part base

/-- A place that a join decides by the latest change stays as it is when no copy has changed it. -/
theorem latestChange_copies_unchanged {α : Type} [BEq α] (place : Message → Option α)
    (h : ∀ c ∈ copies, place c = place base) :
    latestChange (place base) (copies.map place) = place base := by
  apply latestChange_unchanged
  intro v hv
  obtain ⟨c, hc, rfl⟩ := List.mem_map.1 hv
  exact h c hc

theorem foreign_body : Foreign Message.body where
  alike h := h.body
  setError _ _ := rfl
  joinCopies h := by
    apply Option.some.inj
    rw [body_joinCopies]
    exact latestChange_copies_unchanged (fun m => some m.body) (fun c hc => congrArg some (h c hc))

theorem foreign_headers : Foreign Message.headers where
  alike h := h.headers
  setError _ _ := rfl
  joinCopies {base copies} h := by
    apply Dict.ext_get?
    intro name
    have hplace : ∀ c ∈ copies, c.header? name = base.header? name :=
      fun c hc => congrArg (Dict.get? · name) (h c hc)
    exact header?_joinCopies.trans (latestChange_copies_unchanged (·.header? name) hplace)

theorem foreign_property (hn : name ≠ choiceMatchKey) : Foreign (·.property? name) where
  alike h := h.property name hn
  setError _ _ := rfl
  joinCopies h := (property?_joinCopies hn).trans (latestChange_copies_unchanged (·.property? name) h)

theorem foreign_id : Foreign Message.id where
  alike h := h.id
  setError _ _ := rfl
  joinCopies _ := id_joinCopies

theorem foreign_createdAt : Foreign Message.createdAt where
  alike h := h.createdAt
  setError _ _ := rfl
  joinCopies _ := createdAt_joinCopies

/-- No operation makes another message of a message. -/
theorem identity_edited (m : Message) (edits : List Edit) :
    (m.edited edits).id = m.id ∧ (m.edited edits).createdAt = m.createdAt := by
  induction edits generalizing m with
  | nil => exact ⟨rfl, rfl⟩
  | cons e rest ih =>
    have hedit : (m.edit e).id = m.id ∧ (m.edit e).createdAt = m.createdAt := by
      cases e <;> exact ⟨rfl, rfl⟩
    obtain ⟨hid, hcreated⟩ := ih (m.edit e)
    exact ⟨hid.trans hedit.1, hcreated.trans hedit.2⟩

end Message

/-- The steps leave a part of the message as they find it. They may fail, and change other parts. -/
def StageSet.Keeps (s : StageSet) {α : Type} (part : Message → α) : Prop :=
  ∀ id p, s.get? id = some (.step p) → ∀ m, part (p.process m).1 = part m

/-- The steps work on their message through its operations, and put no other in its place. -/
def StageSet.Operates (s : StageSet) : Prop :=
  ∀ id p, s.get? id = some (.step p) → ∀ m, ∃ edits, (p.process m).1 = m.edited edits

/-- Such steps keep the id of the message and its time of creation. -/
theorem StageSet.Operates.keeps_identity {s : StageSet} (h : s.Operates) :
    s.Keeps Message.id ∧ s.Keeps Message.createdAt := by
  have hsame : ∀ id p, s.get? id = some (.step p) → ∀ m,
      (p.process m).1.id = m.id ∧ (p.process m).1.createdAt = m.createdAt := by
    intro id p hs m
    obtain ⟨edits, hp⟩ := h id p hs m
    rw [hp]
    exact m.identity_edited edits
  exact ⟨fun id p hs m => (hsame id p hs m).1, fun id p hs m => (hsame id p hs m).2⟩

namespace Engine
variable {e : Engine} {α : Type} {part : Message → α}

/-- A choice leaves a part alone that is not the engine's. -/
theorem part_process (hf : Message.Foreign part) (c : ChoiceStage) (m : Message) :
    part (c.process m).1 = part m := by
  obtain ⟨failure, key, h⟩ := c.leaves m
  rw [← hf.alike h.alike]
  cases failure with
  | none => rfl
  | some failure => exact hf.setError m failure

theorem part_noteUnknownTarget (hf : Message.Foreign part) (m : Message) :
    part (e.noteUnknownTarget m) = part m := by
  unfold noteUnknownTarget
  split
  · exact hf.setError m _
  · rfl

/-- Whatever becomes of a stage, a part that the steps keep and that is not the engine's stays. -/
theorem Invokes.part_eq (hf : Message.Foreign part) (hs : e.stages.Keeps part) {node : Nat}
    {p q : Progress} {next : Option (List Nat)} (h : e.Invokes node p next q) :
    part q.message = part p.message := by
  cases h with
  | missing _ => exact hf.setError _ _
  | stepPasses hstage hp =>
    have hkept := hs _ _ hstage p.message
    rwa [hp] at hkept
  | stepFails hstage hp =>
    have hkept := hs _ _ hstage p.message
    rw [hp] at hkept
    exact (hf.setError _ _).trans hkept
  | @choicePasses c _ hstage hp =>
    have hkept := part_process hf c p.message
    rw [hp] at hkept
    exact (part_noteUnknownTarget hf _).trans hkept
  | @choiceFails c _ _ _ hstage hp =>
    have hkept := part_process hf c p.message
    rw [hp] at hkept
    exact (hf.setError _ _).trans hkept

/-- That a part has some value is kept by each step of a walk, in the messages that wait for a join as in
those of its branches. -/
theorem inductive_part (hf : Message.Foreign part) (hs : e.stages.Keeps part) (v : α) :
    e.Inductive (fun _ => True) (fun p => part p.message = v) where
  entry _ _ := trivial
  next _ _ _ _ := trivial
  spend hp := hp
  invoke _ hp hx := (hx.part_eq hf hs).trans hp
  hopLimit hp := (hf.setError _ _).trans hp
  visitBudget hp := (hf.setError _ _).trans hp
  fanOutDepth hp := (hf.setError _ _).trans hp
  enter hp hq := by
    unfold enterBranch
    split
    · exact hq
    · exact hp
  leave {p q copies} hp hcopies hq := by
    -- all copies have the part as the message of the fan-out had it
    have hsame : ∀ c ∈ copies, part c = part p.message := by
      intro c hc
      obtain ⟨r, hr, rfl⟩ := hcopies c hc
      exact hr.trans hp.symm
    unfold leaveFanOut
    split
    · exact hq
    · exact (hf.joinCopies hsame).trans hp
  signal hp := hp

/-- A part that is not the engine's and that the steps keep is in the end as it was in the beginning. -/
theorem part_execute (hf : Message.Foreign part) (hs : e.stages.Keeps part) (m : Message) :
    part (e.execute m).message = part m := by
  obtain ⟨paths, o, hx⟩ := e.exists_executes m
  obtain ⟨⟨p, completion, hp, hout⟩, -⟩ := hx.keeps (inductive_part hf hs (part m)) rfl
  rw [← hx.eq_execute, hout]
  exact hp

/-- The engine owns the choice match and the failure, and nothing else of a message. Where the steps leave the
body, the headers and the properties but for the choice match as they are, an execution does so too, whatever
choices, fan-outs, joins, failures and limits it goes through. The id and the time of creation stay as well if no
step puts another message in the place of the one that it got, and so in particular if the steps do no more than
operate on their message. -/
theorem execute_keeps_frame (e : Engine) (m : Message) (hbody : e.stages.Keeps Message.body)
    (hheaders : e.stages.Keeps Message.headers)
    (hproperties : ∀ name, name ≠ choiceMatchKey → e.stages.Keeps (·.property? name)) :
    (e.execute m).message.body = m.body ∧
      (e.execute m).message.headers = m.headers ∧
      (∀ name, name ≠ choiceMatchKey → (e.execute m).message.property? name = m.property? name) ∧
      (e.stages.Keeps Message.id → (e.execute m).message.id = m.id) ∧
      (e.stages.Keeps Message.createdAt → (e.execute m).message.createdAt = m.createdAt) ∧
      (e.stages.Operates →
        (e.execute m).message.id = m.id ∧ (e.execute m).message.createdAt = m.createdAt) := by
  have hid : e.stages.Keeps Message.id → (e.execute m).message.id = m.id :=
    fun h => part_execute Message.foreign_id h m
  have hcreated : e.stages.Keeps Message.createdAt → (e.execute m).message.createdAt = m.createdAt :=
    fun h => part_execute Message.foreign_createdAt h m
  refine ⟨?body, ?headers, ?properties, hid, hcreated, ?operates⟩
  case body => exact part_execute Message.foreign_body hbody m
  case headers => exact part_execute Message.foreign_headers hheaders m
  case properties =>
    intro name hn
    exact part_execute (Message.foreign_property hn) (hproperties name hn) m
  case operates =>
    intro h
    exact ⟨hid h.keeps_identity.1, hcreated h.keeps_identity.2⟩

end Engine

namespace Mail

/-- The steps of the host do nothing with a message, be it to let it pass or to refuse it. -/
theorem operates {d : DeployedFlow} (hd : host.prepare flow = .ok d) : d.stages.Operates := by
  intro id s hs m
  obtain ⟨text, hprocess⟩ := process_of_stage hd hs
  exact ⟨[], by rw [hprocess]; rfl⟩

/-- They keep every part of it. -/
theorem keeps {d : DeployedFlow} (hd : host.prepare flow = .ok d) {α : Type} (part : Message → α) :
    d.stages.Keeps part := by
  intro id s hs m
  obtain ⟨text, hprocess⟩ := process_of_stage hd hs
  rw [hprocess]

end Mail

namespace Engine

/-- Urgent mail is copied, and refused on one of the copies; it arrives with what it had, and a failure. -/
theorem execute_keeps_frame_express :
    ∃ d, Mail.host.prepare Mail.flow = .ok d ∧ d.stages.Keeps Message.body ∧
      d.stages.Keeps Message.headers ∧
      (∀ name, name ≠ choiceMatchKey → d.stages.Keeps (·.property? name)) ∧ d.stages.Operates ∧
      ((d.engine { isolation := .snapshot }).execute Mail.express).message.body = .string "express" ∧
      ((d.engine { isolation := .snapshot }).execute Mail.express).message.id = Mail.express.id ∧
      ((d.engine { isolation := .snapshot }).execute Mail.express).message.error =
        some (.stage "mail:record" "refused") := by
  obtain ⟨d, hd, -, herror⟩ := Mail.prepared
  have hbody := Mail.keeps hd Message.body
  have hheaders := Mail.keeps hd Message.headers
  have hproperties : ∀ name, name ≠ choiceMatchKey → d.stages.Keeps (·.property? name) :=
    fun name _ => Mail.keeps hd _
  have hoperates := Mail.operates hd
  obtain ⟨hsame, -, -, -, -, hidentity⟩ :=
    execute_keeps_frame (d.engine { isolation := .snapshot }) Mail.express hbody hheaders hproperties
  exact ⟨d, hd, hbody, hheaders, hproperties, hoperates, hsame, (hidentity hoperates).1, herror⟩

end Engine

/-! What steps may do that keep the body, the headers and the properties -/

namespace Mail

/-- A new message with the body, the headers and the properties of another. -/
def renewed (m : Message) : Message where
  id := ⟨1⟩
  createdAt := ⟨1, 0⟩
  body := m.body
  headers := m.headers
  properties := m.properties

/-- A step that puts a new message in the place of the one that it got. -/
def renewer (id : String) : Processor := ⟨id, fun m => (renewed m, none)⟩

def renewing : FlowHost := { host with factory := fun d => .ok (renewer d.id) }

/-- All mail is stamped, and then delivered and stored. -/
def stamping : FlowDefinition where
  id := "mail"
  nodes := [{ id := "inlet", kind := .entry, component := "pass" }, { id := "stamp", component := "pass" },
    { id := "deliver", component := "pass" }, { id := "store", component := "pass" }]
  edges := [⟨"inlet", "stamp", none⟩, ⟨"stamp", "deliver", none⟩, ⟨"stamp", "store", none⟩]

/-- Its steps keep what a renewed message has of the other. -/
theorem keeps_of_renewed {d : DeployedFlow} (hd : renewing.prepare stamping = .ok d) {α : Type}
    {part : Message → α} (hpart : ∀ m, part (renewed m) = part m) : d.stages.Keeps part := by
  obtain ⟨hc, hm⟩ := FlowHost.prepare_ok hd
  intro id s hs m
  obtain ⟨descriptor, hmade⟩ := FlowDefinition.processor_of_stage hc hm hs
  cases hmade
  exact hpart m

end Mail

namespace Engine

/-- Steps that put messages of their own in the place of those they get may keep the body, the headers and every
property, and the id and the time of creation are lost all the same. And a number under the name of the choice
match is no choice match, but the join of a fan-out drops it as if it were one. -/
theorem renewing_loses_identity :
    ∃ d, Mail.renewing.prepare Mail.stamping = .ok d ∧ d.stages.Keeps Message.body ∧
      d.stages.Keeps Message.headers ∧ (∀ name, d.stages.Keeps (·.property? name)) ∧
      let m := Mail.express.setProperty choiceMatchKey (Json.nat 5)
      let o := (d.engine { isolation := .snapshot }).execute m
      o.message.id ≠ m.id ∧ o.message.createdAt ≠ m.createdAt ∧
        m.choiceMatch? = none ∧ o.message.property? choiceMatchKey ≠ m.property? choiceMatchKey := by
  have hprepared : ∃ d, Mail.renewing.prepare Mail.stamping = .ok d ∧
      let m := Mail.express.setProperty choiceMatchKey (Json.nat 5)
      let o := (d.engine { isolation := .snapshot }).execute m
      o.message.id = ⟨1⟩ ∧ o.message.createdAt = ⟨1, 0⟩ ∧ o.message.property? choiceMatchKey = none :=
    ⟨_, rfl, rfl, rfl, rfl⟩
  obtain ⟨d, hd, hid, hcreated, hproperty⟩ := hprepared
  have hbody : d.stages.Keeps Message.body := Mail.keeps_of_renewed hd fun _ => rfl
  have hheaders : d.stages.Keeps Message.headers := Mail.keeps_of_renewed hd fun _ => rfl
  have hproperties : ∀ name, d.stages.Keeps (·.property? name) :=
    fun name => Mail.keeps_of_renewed hd fun _ => rfl
  refine ⟨d, hd, hbody, hheaders, hproperties, ?_⟩
  intro m o
  refine ⟨?id, ?created, rfl, ?property⟩
  case id =>
    rw [hid]
    decide
  case created =>
    rw [hcreated]
    decide
  case property =>
    rw [hproperty]
    decide

end Engine
end MessageFlow
