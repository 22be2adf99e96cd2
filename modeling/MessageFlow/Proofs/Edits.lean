import MessageFlow.Engine.Snapshot
import MessageFlow.Proofs.Merge

/-!
Fan-outs on copies in which only one branch leaves its message changed. What that branch has written is
there after the join. What it has only taken away, a property or the failure, comes back from the message
of the fan-out: a join looks at what a copy holds and not at what it lacks.
-/

namespace MessageFlow

section Places
variable {α : Type} [BEq α] {base new : Option α} {before after : List (Option α)}

/-- Where one final value is the only one that may differ from the base, it alone decides. -/
theorem latestChange_lone (hidle : ∀ v ∈ before ++ after, (base == v) = true) :
    latestChange base (before ++ new :: after) = newer base base new := by
  have hb : before.reverse.find? (fun v => v.isSome && base != v) = none := by
    rw [List.find?_eq_none]
    intro v hv
    simp [bne, hidle v (by simp_all)]
  have ha : after.reverse.find? (fun v => v.isSome && base != v) = none := by
    rw [List.find?_eq_none]
    intro v hv
    simp [bne, hidle v (by simp_all)]
  rw [latestChange, List.reverse_append, List.reverse_cons, List.append_assoc, List.find?_append, ha,
    List.find?_append, hb]
  by_cases hn : new.isSome && base != new <;> simp [newer, hn]

/-- A value alone shows after the join unless the place was emptied. -/
theorem newer_base_beq_iff [ReflBEq α] :
    (newer base base new == new) = true ↔ (base.isSome → new.isSome) := by
  cases new with
  | none => cases base <;> simp
  | some w => by_cases hb : base == some w <;> simp [newer, bne, hb]

/-- What an emptied place holds after the join is the value of the base. -/
theorem newer_base_beq_or [ReflBEq α] : (newer base base new == new.or base) = true := by
  cases new with
  | none => simp
  | some w => by_cases hb : base == some w <;> simp [newer, bne, hb]

end Places

instance : ReflBEq Json := ⟨Json.same_refl _⟩

/-- What may be done to a message on a branch. -/
inductive Edit where
  | setHeader (name : String) (value : Json)
  | setProperty (name : String) (value : Json)
  | removeProperty (name : String)
  | setBody (value : Json)
  | setError (failure : ExchangeError)
  | takeError

namespace Message
variable {m n base : Message} {name : String} {edits : List Edit} {before after : List Message}

/-- The message after one operation. -/
def edit (m : Message) : Edit → Message
  | .setHeader name value => m.setHeader name value
  | .setProperty name value => m.setProperty name value
  | .removeProperty name => m.removeProperty name
  | .setBody value => m.setBody value
  | .setError failure => m.setError failure
  | .takeError => m.clearError

/-- The message after operations, one after another. -/
def edited (m : Message) (edits : List Edit) : Message := edits.foldl edit m

/-- Two messages hold the same, whatever their choice matches. -/
structure Agrees (m n : Message) : Prop where
  body : (m.body == n.body) = true
  header (name : String) : (m.header? name == n.header? name) = true
  property (name : String) : name ≠ choiceMatchKey → (m.property? name == n.property? name) = true
  error : m.error = n.error

/-- Nothing that `m` has, the choice match left aside, is missing in `n`. Headers are not asked for: no
operation takes them away. -/
structure Retains (m n : Message) : Prop where
  property (name : String) : name ≠ choiceMatchKey → (m.property? name).isSome → (n.property? name).isSome
  error : m.error.isSome → n.error.isSome

theorem header?_edit_isSome (edit : Edit) (h : (m.header? name).isSome) :
    ((m.edit edit).header? name).isSome := by
  cases edit with
  | setHeader other value =>
    rw [Message.edit, header?_setHeader]
    split
    · rfl
    · exact h
  | setProperty | removeProperty | setBody | setError | takeError => exact h

/-- A header is never lost. -/
theorem header?_edited_isSome (edits : List Edit) (h : (m.header? name).isSome) :
    ((m.edited edits).header? name).isSome := by
  induction edits generalizing m with
  | nil => exact h
  | cons e rest ih => exact ih (header?_edit_isSome e h)

section Lone
variable {copy : Message} (hidle : ∀ c ∈ before ++ after, base.Agrees c)
include hidle

/-- A place on which all copies but one agree with the base. -/
theorem latestChange_copies {α : Type} [BEq α] (place : Message → Option α)
    (hplace : ∀ c, base.Agrees c → (place base == place c) = true) :
    latestChange (place base) ((before ++ copy :: after).map place) =
      newer (place base) (place base) (place copy) := by
  rw [List.map_append, List.map_cons]
  apply latestChange_lone
  intro v hv
  rw [← List.map_append] at hv
  obtain ⟨c, hc, rfl⟩ := List.mem_map.1 hv
  exact hplace c (hidle c hc)

theorem body_joinCopies_lone : some (base.joinCopies (before ++ copy :: after)).body =
    newer (some base.body) (some base.body) (some copy.body) := by
  rw [body_joinCopies]
  exact latestChange_copies hidle (fun m => some m.body) (fun c hc => hc.body)

theorem header?_joinCopies_lone (name : String) :
    (base.joinCopies (before ++ copy :: after)).header? name =
      newer (base.header? name) (base.header? name) (copy.header? name) := by
  rw [header?_joinCopies]
  exact latestChange_copies hidle (·.header? name) (fun c hc => hc.header name)

theorem property?_joinCopies_lone (hn : name ≠ choiceMatchKey) :
    (base.joinCopies (before ++ copy :: after)).property? name =
      newer (base.property? name) (base.property? name) (copy.property? name) := by
  rw [property?_joinCopies hn]
  exact latestChange_copies hidle (·.property? name) (fun c hc => hc.property name hn)

theorem error_joinCopies_lone : (base.joinCopies (before ++ copy :: after)).error =
    newer base.error base.error copy.error := by
  rw [error_joinCopies]
  exact latestChange_copies hidle (·.error) (fun c hc => beq_iff_eq.2 hc.error)

theorem body_joinCopies_beq : ((base.joinCopies (before ++ copy :: after)).body == copy.body) = true := by
  have hb : (newer (some base.body) (some base.body) (some copy.body) == some copy.body) = true :=
    newer_base_beq_iff.2 (fun _ => rfl)
  rw [← body_joinCopies_lone hidle] at hb
  exact hb

theorem header?_joinCopies_beq (h : (base.header? name).isSome → (copy.header? name).isSome) :
    ((base.joinCopies (before ++ copy :: after)).header? name == copy.header? name) = true := by
  rw [header?_joinCopies_lone hidle]
  exact newer_base_beq_iff.2 h

/-- The join with the changes of one copy agrees with that copy just when nothing was taken away there. -/
theorem joinCopies_agrees_iff (h : ∀ name, (base.header? name).isSome → (copy.header? name).isSome) :
    (base.joinCopies (before ++ copy :: after)).Agrees copy ↔ base.Retains copy := by
  constructor
  · intro ha
    refine ⟨fun name hn => newer_base_beq_iff.1 ?property, newer_base_beq_iff.1 ?error⟩
    case property =>
      rw [← property?_joinCopies_lone hidle hn]
      exact ha.property name hn
    case error =>
      rw [← error_joinCopies_lone hidle, ha.error]
      exact BEq.rfl
  · intro hr
    refine ⟨body_joinCopies_beq hidle, fun name => header?_joinCopies_beq hidle (h name),
      fun name hn => ?property, ?error⟩
    case property =>
      rw [property?_joinCopies_lone hidle hn]
      exact newer_base_beq_iff.2 (hr.property name hn)
    case error =>
      rw [error_joinCopies_lone hidle]
      exact beq_iff_eq.1 (newer_base_beq_iff.2 hr.error)

end Lone
end Message

namespace Engine

/-- The copies with which the branches of a fan-out end, in the order of the branches. -/
def branchCopies (e : Engine) (levels hopsLeft : Nat) (branches : List Nat) (p : Progress) :
    List Message :=
  (walkCopies (e.walkBranch (e.snapshot levels) hopsLeft) p.message branches p).1

/-- A fan-out of which all branches but one leave their copies as they were ends with what that one branch
made of the message, if and only if the branch has taken away no property and no failure. Its body and its
headers are there in any case; a property or failure that it has taken away comes back. -/
theorem snapshot_agrees_iff (e : Engine) (levels source hopsLeft : Nat) (branches : List Nat)
    (p : Progress) (before after : List Message) (edits : List Edit)
    (hcopies : e.branchCopies levels hopsLeft branches p = before ++ p.message.edited edits :: after)
    (hidle : ∀ c ∈ before ++ after, p.message.Agrees c) :
    let copy := p.message.edited edits
    let joined := (e.snapshot (levels + 1) source branches hopsLeft p).2.message
    (joined.Agrees copy ↔ p.message.Retains copy) ∧
      (joined.body == copy.body) = true ∧
      (∀ name, (joined.header? name == copy.header? name) = true) ∧
      (∀ name, name ≠ choiceMatchKey →
        (joined.property? name == (copy.property? name).or (p.message.property? name)) = true) ∧
      joined.error = copy.error.or p.message.error := by
  intro copy joined
  have hjoined : joined = p.message.joinCopies (before ++ copy :: after) := by
    rw [← hcopies]
    rfl
  have hheaders (name : String) (h : (p.message.header? name).isSome) : (copy.header? name).isSome :=
    Message.header?_edited_isSome edits h
  rw [hjoined]
  refine ⟨?agrees, ?body, fun name => ?header, fun name hn => ?property, ?error⟩
  case agrees => exact Message.joinCopies_agrees_iff hidle hheaders
  case body => exact Message.body_joinCopies_beq hidle
  case header => exact Message.header?_joinCopies_beq hidle (hheaders name)
  case property =>
    rw [Message.property?_joinCopies_lone hidle hn]
    exact newer_base_beq_or
  case error =>
    rw [Message.error_joinCopies_lone hidle]
    exact beq_iff_eq.1 newer_base_beq_or

/-- A flow whose entry fans out to a stage that takes a property and the failure away, and to one that does
nothing. -/
def takingEngine : Engine where
  graph := {
    flowId := "f"
    arena := ⟨[⟨"entry", [1, 2], 0⟩, ⟨"drop", [], 1⟩, ⟨"idle", [], 1⟩]⟩
    entryNode := 0
    entry := ⟨"entry", "inlet", "direct:in", .empty⟩
    definitions := [] }
  stages := {
    flowId := "f"
    stages := .ofList [
      ("f:drop", .step ⟨"f:drop", fun m => ((m.removeProperty "p").clearError, none)⟩),
      ("f:idle", .step ⟨"f:idle", fun m => (m, none)⟩)] }
  options := { isolation := .snapshot }

/-- A message on its way with a property and a failure. -/
def markedProgress : Progress where
  message := {
    id := ⟨0⟩
    createdAt := ⟨0, 0⟩
    properties := .ofList [("p", .string "kept")]
    error := some (.missingStage "f:earlier") }
  visitsLeft := 2

theorem branchCopies_taking : takingEngine.branchCopies 0 10 [1, 2] markedProgress =
    [] ++ markedProgress.message.edited [.removeProperty "p", .takeError] :: [markedProgress.message] :=
  rfl

theorem idle_taking : ∀ c ∈ [] ++ [markedProgress.message], markedProgress.message.Agrees c := by
  intro c hc
  rw [List.nil_append, List.mem_singleton] at hc
  subst hc
  exact ⟨BEq.rfl, fun _ => BEq.rfl, fun _ _ => BEq.rfl, rfl⟩

/-- Both come back, although the other branch has not touched them. -/
theorem snapshot_agrees_iff_taking :
    let copy := markedProgress.message.edited [.removeProperty "p", .takeError]
    let joined := (takingEngine.snapshot 1 0 [1, 2] 10 markedProgress).2.message
    takingEngine.branchCopies 0 10 [1, 2] markedProgress = [] ++ copy :: [markedProgress.message] ∧
      (∀ c ∈ [] ++ [markedProgress.message], markedProgress.message.Agrees c) ∧
      (joined.Agrees copy ↔ markedProgress.message.Retains copy) ∧
      (joined.property? "p" == some (.string "kept")) = true ∧
      joined.error = some (.missingStage "f:earlier") := by
  intro copy joined
  obtain ⟨hiff, -, -, hproperty, herror⟩ := snapshot_agrees_iff takingEngine 0 0 10 [1, 2] markedProgress
    [] [markedProgress.message] [.removeProperty "p", .takeError] branchCopies_taking idle_taking
  exact ⟨branchCopies_taking, idle_taking, hiff, hproperty "p" (by decide), herror⟩

/-- So a change of a single branch can be lost in the join. -/
theorem snapshot_loses_removal :
    ∃ edits, takingEngine.branchCopies 0 10 [1, 2] markedProgress =
        [] ++ markedProgress.message.edited edits :: [markedProgress.message] ∧
      (∀ c ∈ [] ++ [markedProgress.message], markedProgress.message.Agrees c) ∧
      ¬ (takingEngine.snapshot 1 0 [1, 2] 10 markedProgress).2.message.Agrees
        (markedProgress.message.edited edits) := by
  refine ⟨[.removeProperty "p", .takeError], branchCopies_taking, idle_taking, ?_⟩
  intro h
  have hp := h.property "p" (by decide)
  exact absurd hp (by decide)

end Engine
end MessageFlow
