import MessageFlow.Engine.Snapshot

/-!
Branches on copies do not see each other. All that one branch hands to the next is the number of visits
left and a longer history; a walk that is never refused a visit takes no notice of either.
-/

namespace MessageFlow

namespace Progress
variable {p q : Progress}

/-- The same progress with more visits left, behind an earlier history. -/
def lift (p : Progress) (extra : Nat) (earlier : List Event) : Progress :=
  { message := p.message, visitsLeft := p.visitsLeft + extra, events := p.events ++ earlier }

/-- No path was refused a visit because none was left. -/
def Unrefused (p : Progress) : Prop :=
  ∀ id limit, .failed (.visitBudgetExceeded id limit) ∉ p.events

/-- What happened from the start to the finish of a walk, the latest first. -/
def since (start finish : Progress) : List Event :=
  finish.events.take (finish.events.length - start.events.length)

@[simp] theorem message_lift {extra : Nat} {earlier : List Event} :
    (p.lift extra earlier).message = p.message := rfl

/-- A visit is spent from those that were left without the extra ones. -/
theorem spend_lift {extra : Nat} {earlier : List Event} (hv : 0 < p.visitsLeft) :
    { p.lift extra earlier with visitsLeft := (p.lift extra earlier).visitsLeft - 1 } =
      Progress.lift { p with visitsLeft := p.visitsLeft - 1 } extra earlier := by
  have hvisits : p.visitsLeft + extra - 1 = p.visitsLeft - 1 + extra := by omega
  simp only [lift, hvisits]

theorem Unrefused.of_suffix (h : q.Unrefused) (hs : p.events <:+ q.events) : p.Unrefused :=
  fun id limit hm => h id limit (hs.mem hm)

theorem Unrefused.of_lift {extra : Nat} {earlier : List Event} (h : (p.lift extra earlier).Unrefused) :
    p.Unrefused :=
  fun id limit hm => h id limit (List.mem_append_left earlier hm)

theorem since_lift (start finish : Progress) (extra : Nat) (earlier : List Event) :
    (start.lift extra earlier).since (finish.lift extra earlier) = start.since finish := by
  have hl : (finish.events ++ earlier).length - (start.events ++ earlier).length =
      finish.events.length - start.events.length := by
    simp only [List.length_append]
    omega
  simp only [since, lift, hl]
  exact List.take_append_of_le_length (Nat.sub_le _ _)

/-- The history at the start, with what happened since, is the history at the finish. -/
theorem since_append {start finish : Progress} (h : start.events <:+ finish.events) :
    start.since finish ++ start.events = finish.events := by
  obtain ⟨new, hn⟩ := h
  simp [since, ← hn]

end Progress

/-- A walk that only adds to the history, never to the visits left, and that does the same with more visits
left where it is not refused one. A longer history alone never makes a difference. -/
structure Steady {β : Type} (walk : Progress → β × Progress) : Prop where
  grows : ∀ p, p.events <:+ (walk p).2.events
  spends : ∀ p, (walk p).2.visitsLeft ≤ p.visitsLeft
  lifts : ∀ p extra earlier, extra = 0 ∨ (walk p).2.Unrefused →
    walk (p.lift extra earlier) = ((walk p).1, (walk p).2.lift extra earlier)

namespace Engine
variable {e : Engine} {fanOut : FanOut} {walk : Nat → Progress → Bool × Progress} {base : Message}
  {hops node : Nat} {branches : List Nat} {p : Progress}

theorem events_invoke (e : Engine) (node : Nat) (p : Progress) :
    p.events <:+ (e.invoke node p).2.events := by
  simp only [invoke]
  split
  · exact ⟨[_, _], rfl⟩
  · split
    · exact ⟨[_], rfl⟩
    · exact ⟨[_, _], rfl⟩
  · split
    · exact ⟨[_], rfl⟩
    · exact ⟨[_, _], rfl⟩

theorem lift_invoke (e : Engine) (node : Nat) (p : Progress) (extra : Nat) (earlier : List Event) :
    e.invoke node (p.lift extra earlier) =
      ((e.invoke node p).1, (e.invoke node p).2.lift extra earlier) := by
  simp only [invoke, Progress.message_lift]
  split
  · rfl
  · split <;> rfl
  · split <;> rfl

theorem events_follow (e : Engine) (hops node : Nat) (p : Progress) :
    p.events <:+ (e.follow hops node p).2.events := by
  induction hops generalizing node p with
  | zero => exact ⟨[_], rfl⟩
  | succ hops ih =>
    cases hv : p.visitsLeft with
    | zero =>
      rw [follow_refused hv]
      exact ⟨[_], rfl⟩
    | succ visits =>
      have hi := e.events_invoke node { p with visitsLeft := visits }
      rw [follow_visit hv]
      rcases hq : e.invoke node { p with visitsLeft := visits } with
        ⟨_ | _ | ⟨next, _ | ⟨second, rest⟩⟩, q⟩ <;> rw [hq] at hi
      · exact hi
      · exact hi
      · exact hi.trans (ih next q)
      · exact hi

theorem lift_follow (e : Engine) (hops node : Nat) (p : Progress) (extra : Nat) (earlier : List Event)
    (h : extra = 0 ∨ (e.follow hops node p).2.Unrefused) :
    e.follow hops node (p.lift extra earlier) =
      ((e.follow hops node p).1, (e.follow hops node p).2.lift extra earlier) := by
  induction hops generalizing node p with
  | zero => rfl
  | succ hops ih =>
    cases hv : p.visitsLeft with
    | zero =>
      rw [follow_refused hv] at h ⊢
      rcases h with rfl | h
      · rw [follow_refused (by simp [Progress.lift, hv])]
        rfl
      · exact (h _ _ List.mem_cons_self).elim
    | succ visits =>
      have hl : (p.lift extra earlier).visitsLeft = visits + extra + 1 := by
        simp only [Progress.lift, hv]
        omega
      have hi := e.lift_invoke node { p with visitsLeft := visits } extra earlier
      have hp : { p.lift extra earlier with visitsLeft := visits + extra } =
          { p with visitsLeft := visits }.lift extra earlier := rfl
      rw [follow_visit hv] at h ⊢
      rw [follow_visit hl, hp, hi]
      rcases hq : e.invoke node { p with visitsLeft := visits } with
        ⟨_ | _ | ⟨next, _ | ⟨second, rest⟩⟩, q⟩
      · rfl
      · rfl
      · rw [hq] at h
        exact ih next q h
      · rfl

/-- A path is steady where the fan-out at its end is. -/
theorem steady_walkBranch (e : Engine)
    (hf : ∀ source branches hops, Steady (fanOut source branches hops)) (hops node : Nat) :
    Steady (e.walkBranch fanOut hops node) where
  grows p := by
    have hp := e.events_follow hops node p
    unfold walkBranch
    rcases hq : e.follow hops node p with ⟨_ | _ | ⟨source, branches, left⟩, q⟩ <;> rw [hq] at hp
    · exact hp
    · exact hp
    · exact hp.trans ((hf source branches left).grows q)
  spends p := by
    have hp := (visitsLeft_follow e hops node p).1
    unfold walkBranch
    rcases hq : e.follow hops node p with ⟨_ | _ | ⟨source, branches, left⟩, q⟩ <;> rw [hq] at hp
    · exact hp
    · exact hp
    · exact Nat.le_trans ((hf source branches left).spends q) hp
  lifts p extra earlier h := by
    have hl := e.lift_follow hops node p extra earlier
    unfold walkBranch at h ⊢
    rcases hq : e.follow hops node p with ⟨_ | _ | ⟨source, branches, left⟩, q⟩ <;>
      rw [hq] at h hl
    · rw [hl h]
    · rw [hl h]
    · have hb := hf source branches left
      rw [hl (h.imp_right (fun hu => hu.of_suffix (hb.grows q)))]
      dsimp only
      rw [hb.lifts q extra earlier h]

section Copies
variable (hw : ∀ branch, Steady (walk branch))
include hw

theorem events_walkCopies (base : Message) (branches : List Nat) (p : Progress) :
    p.events <:+ (walkCopies walk base branches p).2.2.events := by
  induction branches generalizing p with
  | nil => exact List.suffix_rfl
  | cons branch rest ih => exact ((hw branch).grows { p with message := base }).trans (ih _)

theorem visitsLeft_walkCopies (base : Message) (branches : List Nat) (p : Progress) :
    (walkCopies walk base branches p).2.2.visitsLeft ≤ p.visitsLeft := by
  induction branches generalizing p with
  | nil => exact Nat.le_refl _
  | cons branch rest ih => exact Nat.le_trans (ih _) ((hw branch).spends { p with message := base })

theorem lift_walkCopies (base : Message) (branches : List Nat) (p : Progress) (extra : Nat)
    (earlier : List Event)
    (h : extra = 0 ∨ (walkCopies walk base branches p).2.2.Unrefused) :
    walkCopies walk base branches (p.lift extra earlier) =
      ((walkCopies walk base branches p).1, (walkCopies walk base branches p).2.1,
        (walkCopies walk base branches p).2.2.lift extra earlier) := by
  induction branches generalizing p with
  | nil => rfl
  | cons branch rest ih =>
    have hq := events_walkCopies hw base rest (walk branch { p with message := base }).2
    have hb := (hw branch).lifts { p with message := base } extra earlier
      (h.imp_right (fun hu => hu.of_suffix hq))
    have hp : { p.lift extra earlier with message := base } =
        { p with message := base }.lift extra earlier := rfl
    simp only [walkCopies]
    rw [hp, hb, ih _ h]
    rfl

end Copies

/-- Fan-outs on copies are steady at every level. -/
theorem steady_snapshot (e : Engine) (levels source : Nat) (branches : List Nat) (hops : Nat) :
    Steady (e.snapshot levels source branches hops) := by
  induction levels generalizing source branches hops with
  | zero => exact ⟨fun p => ⟨[_], rfl⟩, fun p => Nat.le_refl _, fun p extra earlier _ => rfl⟩
  | succ levels ih =>
    have hw := fun node => steady_walkBranch e ih hops node
    refine ⟨fun p => ?grows, fun p => ?spends, fun p extra earlier h => ?lifts⟩
    case grows => exact events_walkCopies hw p.message branches p
    case spends => exact visitsLeft_walkCopies hw p.message branches p
    case lifts =>
      have hl := lift_walkCopies hw p.message branches p extra earlier h
      simp only [snapshot, Progress.message_lift, hl]
      rfl

/-- What the walk of one branch shows: whether it counts as failed, the message it ends with, and what
happened on it, the latest first. -/
structure BranchResult where
  failed : Bool
  message : Message
  events : List Event

/-- The result of a branch that is walked from a given start. -/
def branchResult (walk : Nat → Progress → Bool × Progress) (start : Progress) (branch : Nat) :
    BranchResult :=
  ⟨(walk branch start).1, (walk branch start).2.message, start.since (walk branch start).2⟩

/-- The results of branches that are walked one after another, each on a copy of `base`. -/
def branchResults (walk : Nat → Progress → Bool × Progress) (base : Message) :
    List Nat → Progress → List BranchResult
  | [], _ => []
  | branch :: rest, p =>
    branchResult walk { p with message := base } branch ::
      branchResults walk base rest (walk branch { p with message := base }).2

theorem message_branchResults (branches : List Nat) (p : Progress) :
    (walkCopies walk base branches p).1 = (branchResults walk base branches p).map (·.message) := by
  induction branches generalizing p with
  | nil => rfl
  | cons branch rest ih => simp only [walkCopies, branchResults, ih, List.map_cons, branchResult]

theorem failed_branchResults (branches : List Nat) (p : Progress) :
    (walkCopies walk base branches p).2.1 =
      (branchResults walk base branches p).countP (·.failed) := by
  induction branches generalizing p with
  | nil => rfl
  | cons branch rest ih =>
    simp only [walkCopies, branchResults, ih, List.countP_cons, branchResult, Nat.add_comm]

section Results
variable (hw : ∀ branch, Steady (walk branch))
include hw

theorem events_branchResults (branches : List Nat) (p : Progress) :
    (walkCopies walk base branches p).2.2.events =
      (branchResults walk base branches p).reverse.flatMap (·.events) ++ p.events := by
  induction branches generalizing p with
  | nil => rfl
  | cons branch rest ih =>
    have hs := Progress.since_append ((hw branch).grows { p with message := base })
    simp only [walkCopies, branchResults, ih, List.reverse_cons, List.flatMap_append,
      List.flatMap_singleton, List.append_assoc, branchResult]
    rw [hs]

/-- A walk shows the same wherever it starts with the same message, if it is not refused a visit. -/
theorem branchResult_lift (start : Progress) (extra : Nat) (earlier : List Event) (branch : Nat)
    (h : extra = 0 ∨ (walk branch start).2.Unrefused) :
    branchResult walk (start.lift extra earlier) branch = branchResult walk start branch := by
  simp only [branchResult, (hw branch).lifts start extra earlier h, Progress.since_lift,
    Progress.message_lift]

theorem branchResults_lift (branches : List Nat) (p : Progress) (earlier : List Event) :
    branchResults walk base branches (p.lift 0 earlier) = branchResults walk base branches p := by
  induction branches generalizing p with
  | nil => rfl
  | cons branch rest ih =>
    have hp : { p.lift 0 earlier with message := base } =
        { p with message := base }.lift 0 earlier := rfl
    simp only [branchResults, hp, (hw branch).lifts { p with message := base } 0 earlier (.inl rfl), ih,
      branchResult_lift hw { p with message := base } 0 earlier branch (.inl rfl)]

/-- Where no visit is refused, each branch shows what it shows alone. -/
theorem branchResults_eq_map (branches : List Nat) (p : Progress) (budget : Nat)
    (hb : p.visitsLeft ≤ budget) (hu : (walkCopies walk base branches p).2.2.Unrefused) :
    branchResults walk base branches p =
      branches.map (branchResult walk { message := base, visitsLeft := budget }) := by
  induction branches generalizing p with
  | nil => rfl
  | cons branch rest ih =>
    -- the branch starts like `fresh` in both runs, but for visits and history
    let fresh : Progress := { message := base, visitsLeft := p.visitsLeft }
    have hs : { p with message := base } = fresh.lift 0 p.events := rfl
    have ha : { message := base, visitsLeft := budget } = fresh.lift (budget - p.visitsLeft) [] := by
      simp only [Progress.lift, fresh, Nat.add_sub_cancel' hb, List.append_nil]
    have hq : (walk branch { p with message := base }).2.Unrefused :=
      hu.of_suffix (events_walkCopies hw base rest _)
    have hf : (walk branch fresh).2.Unrefused := by
      rw [hs, (hw branch).lifts fresh 0 p.events (.inl rfl)] at hq
      exact hq.of_lift
    have hhead : branchResult walk { p with message := base } branch =
        branchResult walk { message := base, visitsLeft := budget } branch := by
      rw [hs, ha, branchResult_lift hw fresh 0 p.events branch (.inl rfl),
        branchResult_lift hw fresh _ [] branch (.inr hf)]
    have hv := (hw branch).spends { p with message := base }
    simp only [branchResults, List.map_cons, hhead]
    rw [ih (walk branch { p with message := base }).2 (Nat.le_trans hv hb) hu]

/-- The same where visits were refused before, but none on the branches. -/
theorem branchResults_eq_map_of_events (branches : List Nat) (p : Progress) (budget : Nat)
    (hb : p.visitsLeft ≤ budget)
    (hu : ∀ id limit, .failed (.visitBudgetExceeded id limit) ∉
      (branchResults walk base branches p).reverse.flatMap (·.events)) :
    branchResults walk base branches p =
      branches.map (branchResult walk { message := base, visitsLeft := budget }) := by
  -- the earlier history makes no difference, so it may as well be empty
  let fresh : Progress := { p with events := [] }
  have hr : branchResults walk base branches p = branchResults walk base branches fresh :=
    branchResults_lift hw branches fresh p.events
  rw [hr] at hu ⊢
  have hf : (walkCopies walk base branches fresh).2.2.Unrefused := by
    intro id limit
    rw [events_branchResults hw branches fresh]
    simpa [fresh] using hu id limit
  exact branchResults_eq_map hw branches fresh budget hb hf

end Results

/-- The branches of a fan-out on copies are isolated. Unless a visit is refused in the fan-out, each branch
is walked once, and shows what it shows when it is walked alone, one level further in, from the message of
the fan-out; that holds for any number of visits that the lone walk may make, if it is not smaller. The
failed branches are those whose walks fail. -/
theorem snapshot_isolated (e : Engine) (levels source hopsLeft : Nat) (branches : List Nat) (p : Progress)
    (budget : Nat) (hb : p.visitsLeft ≤ budget)
    (hu : ∀ id limit, .failed (.visitBudgetExceeded id limit) ∉
      p.since (e.snapshot (levels + 1) source branches hopsLeft p).2) :
    let walk := e.walkBranch (e.snapshot levels) hopsLeft
    let run := e.snapshot (levels + 1) source branches hopsLeft p
    let results := branchResults walk p.message branches p
    results = branches.map (branchResult walk { message := p.message, visitsLeft := budget }) ∧
      run.1 = results.countP (·.failed) ∧
      run.2.message = p.message.joinCopies (results.map (·.message)) ∧
      p.since run.2 = results.reverse.flatMap (·.events) := by
  intro walk run results
  have hw : ∀ branch, Steady (walk branch) :=
    fun branch => steady_walkBranch e (steady_snapshot e levels) hopsLeft branch
  have hev : run.2.events = results.reverse.flatMap (·.events) ++ p.events :=
    events_branchResults hw branches p
  have hsince : p.since run.2 = results.reverse.flatMap (·.events) := by
    simp [Progress.since, hev]
  refine ⟨?alone, failed_branchResults branches p, ?message, hsince⟩
  case alone =>
    have hr : ∀ id limit, .failed (.visitBudgetExceeded id limit) ∉
        results.reverse.flatMap (·.events) := by
      intro id limit
      rw [← hsince]
      exact hu id limit
    exact branchResults_eq_map_of_events hw branches p budget hb hr
  case message =>
    show p.message.joinCopies (walkCopies walk p.message branches p).1 = _
    rw [message_branchResults]

/-- A flow whose entry fans out to a stage that writes a header and fails, and to one that puts the header
it finds into the body. -/
def forkedEngine : Engine where
  graph := {
    flowId := "f"
    arena := ⟨[⟨"entry", [1, 2], 0⟩, ⟨"writer", [], 1⟩, ⟨"reader", [], 1⟩]⟩
    entryNode := 0
    entry := ⟨"entry", "inlet", "direct:in", .empty⟩
    definitions := [] }
  stages := {
    flowId := "f"
    stages := .ofList [
      ("f:writer", .step ⟨"f:writer", fun m => (m.setHeader "h" (.string "written"), some "full")⟩),
      ("f:reader", .step ⟨"f:reader", fun m => (m.setBody ((m.header? "h").getD .null), none)⟩)] }
  options := { isolation := .snapshot }

theorem snapshot_isolated_forked :
    let walk := forkedEngine.walkBranch (forkedEngine.snapshot 0) 10
    let p : Progress := { message := { id := ⟨0⟩, createdAt := ⟨0, 0⟩ }, visitsLeft := 2 }
    p.visitsLeft ≤ 9 ∧
      (∀ id limit, .failed (.visitBudgetExceeded id limit) ∉
        p.since (forkedEngine.snapshot 1 0 [1, 2] 10 p).2) ∧
      branchResults walk p.message [1, 2] p =
        [1, 2].map (branchResult walk { message := p.message, visitsLeft := 9 }) ∧
      (forkedEngine.snapshot 1 0 [1, 2] 10 p).1 = 1 := by
  intro walk p
  have hs : p.since (forkedEngine.snapshot 1 0 [1, 2] 10 p).2 =
      [.step "f:reader", .failed (.stage "f:writer" "full"), .step "f:writer"] := by decide
  have hu : ∀ id limit, .failed (.visitBudgetExceeded id limit) ∉
      p.since (forkedEngine.snapshot 1 0 [1, 2] 10 p).2 := by
    intro id limit
    rw [hs]
    simp
  exact ⟨by decide, hu, (snapshot_isolated forkedEngine 0 0 10 [1, 2] p 9 (by decide) hu).1, by decide⟩

end Engine
end MessageFlow
