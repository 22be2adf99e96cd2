import Mathlib.Data.Set.Card
import MessageFlow.Stage.Registry

/-!
Calls on a registry, one after another. Whatever sets of stages are offered to it, and under whatever ids, no id
gets into the sets of two flows: a set is refused if one of its ids belongs to another flow, and for no other
reason. What a flow had before does not count, and what it gives up is free again.
-/

namespace MessageFlow

theorem StageSet.mem_ids_iff {s : StageSet} {id : String} : id ∈ s.ids ↔ s.contains id := by
  constructor
  · intro h
    obtain ⟨stage, hstage⟩ := Dict.exists_of_mem_keys h
    exact Option.isSome_iff_exists.2 ⟨stage, hstage⟩
  · intro h
    obtain ⟨stage, hstage⟩ := Option.isSome_iff_exists.1 h
    exact List.mem_map_of_mem (Dict.get?_eq_some_iff.1 hstage)

/-- What is asked of a registry. -/
inductive RegistryCall where
  | register (s : StageSet)
  | remove (flow : String)

namespace StageRegistry
variable {r next : StageRegistry} {s : StageSet} {flow gone id : String} {c : RegistryCall}
  {reply : Except DeployError (Option StageSet)}

/-- The reply to a call, and the registry after it: a refusal comes with no new registry, so the old one stays. -/
def perform (r : StageRegistry) : RegistryCall → Except DeployError (Option StageSet) × StageRegistry
  | .register s =>
    match r.register s with
    | .ok (previous, next) => (.ok previous, next)
    | .error err => (.error err, r)
  | .remove flow => (.ok (r.remove flow).1, (r.remove flow).2)

/-- A new registry after calls. -/
def afterCalls (calls : List RegistryCall) : StageRegistry :=
  calls.foldl (fun r c => (r.perform c).2) {}

/-- The id is in the set of the flow. -/
def Owns (r : StageRegistry) (flow id : String) : Prop := ∃ set, r.flow? flow = some set ∧ id ∈ set.ids

/-- The id is in the set, but belongs to a flow other than that of the set. -/
def Taken (r : StageRegistry) (s : StageSet) (id : String) : Prop :=
  id ∈ s.ids ∧ ∃ flow, flow ≠ s.flowId ∧ r.Owns flow id

theorem taken_of_collision? (h : r.collision? s = some id) : r.Taken s id := by
  obtain ⟨⟨flow, set⟩, hset, hid⟩ := List.exists_of_findSome?_eq_some h
  dsimp only at hid
  split at hid
  · cases hid
  · next hflow =>
    have hcontains := List.find?_some hid
    exact ⟨List.mem_of_find?_eq_some hid, flow, hflow, set, Dict.get?_eq_some_iff.2 hset,
      StageSet.mem_ids_iff.2 hcontains⟩

theorem collision?_eq_none_iff : r.collision? s = none ↔ ∀ id, ¬ r.Taken s id := by
  constructor
  · rintro h id ⟨hid, flow, hflow, set, hset, hheld⟩
    rw [collision?, List.findSome?_eq_none_iff] at h
    have hnone := h (flow, set) (Dict.get?_eq_some_iff.1 hset)
    dsimp only at hnone
    rw [if_neg hflow, List.find?_eq_none] at hnone
    exact hnone id hid (StageSet.mem_ids_iff.1 hheld)
  · intro h
    cases hc : r.collision? s with
    | none => rfl
    | some id => exact absurd (taken_of_collision? hc) (h id)

/-- A set is refused with an id that is taken, or it takes the place of the set that its flow had. -/
theorem refused_or_registered (r : StageRegistry) (s : StageSet) :
    (∃ id, r.Taken s id ∧ r.register s = .error (.stageCollision id)) ∨
      (∀ id, ¬ r.Taken s id) ∧ r.register s = .ok (r.flow? s.flowId, ⟨r.flows.insert s.flowId s⟩) := by
  unfold register
  cases hc : r.collision? s with
  | some id => exact .inl ⟨id, taken_of_collision? hc, rfl⟩
  | none => exact .inr ⟨collision?_eq_none_iff.1 hc, rfl⟩

/-- What comes of a call. -/
inductive Performs (r : StageRegistry) :
    RegistryCall → Except DeployError (Option StageSet) → StageRegistry → Prop
  | refuses {s : StageSet} {id : String} :
      r.Taken s id → Performs r (.register s) (.error (.stageCollision id)) r
  | registers {s : StageSet} :
      (∀ id, ¬ r.Taken s id) → Performs r (.register s) (.ok (r.flow? s.flowId)) ⟨r.flows.insert s.flowId s⟩
  | removes {flow : String} : Performs r (.remove flow) (.ok (r.flow? flow)) ⟨r.flows.erase flow⟩

theorem performs (r : StageRegistry) (c : RegistryCall) : r.Performs c (r.perform c).1 (r.perform c).2 := by
  cases c with
  | remove flow => exact .removes
  | register s =>
    rcases r.refused_or_registered s with ⟨id, htaken, hr⟩ | ⟨hfree, hr⟩
    · rw [perform, hr]
      exact .refuses htaken
    · rw [perform, hr]
      exact .registers hfree

theorem owns_insert : Owns ⟨r.flows.insert s.flowId s⟩ flow id ↔
    flow = s.flowId ∧ id ∈ s.ids ∨ flow ≠ s.flowId ∧ r.Owns flow id := by
  simp only [Owns, flow?, Dict.get?_insert]
  by_cases h : flow = s.flowId <;> simp [h]

theorem owns_erase : Owns ⟨r.flows.erase gone⟩ flow id ↔ flow ≠ gone ∧ r.Owns flow id := by
  simp only [Owns, flow?, Dict.get?_erase]
  by_cases h : flow = gone <;> simp [h]

/-- No id belongs to two flows. -/
def Apart (r : StageRegistry) : Prop := ∀ flow other id, r.Owns flow id → r.Owns other id → flow = other

theorem apart_empty : Apart {} := by
  rintro flow other id ⟨set, hset, -⟩
  cases hset

theorem Performs.apart (hp : r.Performs c reply next) (h : r.Apart) : next.Apart := by
  cases hp with
  | refuses => exact h
  | removes =>
    intro flow other id hflow hother
    exact h flow other id (owns_erase.1 hflow).2 (owns_erase.1 hother).2
  | @registers s hfree =>
    intro flow other id hflow hother
    -- an id that is in the new set and in the old set of another flow would have been taken
    rcases owns_insert.1 hflow with ⟨rfl, hid⟩ | ⟨hne, hflow⟩ <;>
      rcases owns_insert.1 hother with ⟨rfl, hid'⟩ | ⟨hne', hother⟩
    · rfl
    · exact absurd ⟨hid, other, hne', hother⟩ (hfree id)
    · exact absurd ⟨hid', flow, hne, hflow⟩ (hfree id)
    · exact h flow other id hflow hother

theorem afterCalls_apart (calls : List RegistryCall) : (afterCalls calls).Apart := by
  have hrun : ∀ r : StageRegistry, r.Apart → (calls.foldl (fun r c => (r.perform c).2) r).Apart := by
    induction calls with
    | nil => exact fun _ h => h
    | cons c rest ih => exact fun r h => ih _ ((r.performs c).apart h)
  exact hrun _ apart_empty

/-! The number of stages -/

/-- The ids of all flows, flow by flow. -/
def ids (r : StageRegistry) : List String := r.flows.values.flatMap StageSet.ids

theorem size_eq_length_ids (r : StageRegistry) : r.size = r.ids.length := by
  rw [size, ids]
  induction r.flows.values with
  | nil => rfl
  | cons set rest ih =>
    rw [List.foldr_cons, ih, List.flatMap_cons, List.length_append, StageSet.ids, Dict.keys, List.length_map]
    rfl

theorem mem_ids_iff : id ∈ r.ids ↔ ∃ flow, r.Owns flow id := by
  rw [ids, List.mem_flatMap]
  constructor
  · rintro ⟨set, hset, hid⟩
    obtain ⟨⟨flow, set⟩, hentry, rfl⟩ := List.mem_map.1 hset
    exact ⟨flow, set, Dict.get?_eq_some_iff.2 hentry, hid⟩
  · rintro ⟨flow, set, hset, hid⟩
    exact ⟨set, List.mem_map_of_mem (Dict.get?_eq_some_iff.1 hset), hid⟩

theorem Apart.nodup_ids (h : r.Apart) : r.ids.Nodup := by
  rw [ids, List.nodup_flatMap]
  refine ⟨fun set _ => set.stages.nodup_keys, ?_⟩
  rw [Dict.values, List.pairwise_map]
  refine r.flows.sorted.imp_of_mem fun {p q} hp hq hlt => ?_
  intro id hid hid'
  have heq := h p.1 q.1 id ⟨p.2, Dict.get?_eq_some_iff.2 hp, hid⟩ ⟨q.2, Dict.get?_eq_some_iff.2 hq, hid'⟩
  exact String.ne_of_lt hlt heq

/-- Where no id belongs to two flows, the size counts every id once. -/
theorem Apart.size_eq (h : r.Apart) : r.size = {id | ∃ flow, r.Owns flow id}.ncard := by
  have hids : {id | ∃ flow, r.Owns flow id} = ↑r.ids.toFinset := by
    simp only [List.coe_toFinset, mem_ids_iff]
  rw [hids, Set.ncard_coe_finset, List.toFinset_card_of_nodup h.nodup_ids, size_eq_length_ids]

/-- After any calls on a new registry, the sets of two flows have no id in common, and the size is the number of
ids in all of them. The next set is refused if and only if one of its ids belongs to another flow; then such an id
is named, and the registry stays as it is. Otherwise the set takes the place of the one that its flow had, which is
returned. A set that is removed is returned as well, and neither call touches any other flow. -/
theorem afterCalls_keep_apart (calls : List RegistryCall) :
    let r := afterCalls calls
    (∀ flow other set set', r.flow? flow = some set → r.flow? other = some set' → flow ≠ other →
        ∀ id ∈ set.ids, id ∉ set'.ids) ∧
      r.size = {id | ∃ flow, r.Owns flow id}.ncard ∧
      (∀ s, (∃ err, r.register s = .error err) ↔
        ∃ id ∈ s.ids, ∃ flow, flow ≠ s.flowId ∧ r.Owns flow id) ∧
      (∀ s err, r.register s = .error err →
        (∃ id ∈ s.ids, err = .stageCollision id ∧ ∃ flow, flow ≠ s.flowId ∧ r.Owns flow id) ∧
          r.perform (.register s) = (.error err, r)) ∧
      (∀ s previous next, r.register s = .ok (previous, next) → previous = r.flow? s.flowId ∧
        ∀ flow, next.flow? flow = if flow = s.flowId then some s else r.flow? flow) ∧
      ∀ gone, (r.remove gone).1 = r.flow? gone ∧
        ∀ flow, (r.remove gone).2.flow? flow = if flow = gone then none else r.flow? flow := by
  intro r
  have hapart : r.Apart := afterCalls_apart calls
  refine ⟨?apart, hapart.size_eq, ?refused, ?named, ?registered, ?removed⟩
  case apart =>
    intro flow other set set' hset hset' hne id hid hid'
    exact hne (hapart flow other id ⟨set, hset, hid⟩ ⟨set', hset', hid'⟩)
  case refused =>
    intro s
    rcases r.refused_or_registered s with ⟨id, htaken, hr⟩ | ⟨hfree, hr⟩
    · exact ⟨fun _ => ⟨id, htaken⟩, fun _ => ⟨_, hr⟩⟩
    · refine ⟨fun ⟨err, herr⟩ => ?_, fun ⟨id, htaken⟩ => absurd htaken (hfree id)⟩
      cases hr.symm.trans herr
  case named =>
    intro s err herr
    rcases r.refused_or_registered s with ⟨id, htaken, hr⟩ | ⟨-, hr⟩
    · cases hr.symm.trans herr
      exact ⟨⟨id, htaken.1, rfl, htaken.2⟩, by rw [perform, hr]⟩
    · cases hr.symm.trans herr
  case registered =>
    intro s previous next hok
    rcases r.refused_or_registered s with ⟨id, -, hr⟩ | ⟨-, hr⟩
    · cases hr.symm.trans hok
    · cases hr.symm.trans hok
      exact ⟨rfl, fun _ => Dict.get?_insert⟩
  case removed =>
    intro gone
    exact ⟨rfl, fun _ => Dict.get?_erase⟩

end StageRegistry
end MessageFlow
