import MessageFlow.Graph.Compilation

/-!
Ids that a flow may use, and what becomes of them on the way through a choice match: the stage ids of a
choice's targets are joined, kept on the message, and taken apart again.
-/

namespace MessageFlow

/-- An id that compilation lets pass. -/
structure Admitted (id : String) : Prop where
  nonempty : id ≠ ""
  trimmed : Text.trimmed id = id
  no_separator : namespaceSeparator ∉ id.toList
  no_delimiter : matchDelimiter ∉ id.toList

theorem checkIdentifier_ok_iff {id : String} : FlowDefinition.checkIdentifier id = .ok () ↔ Admitted id := by
  unfold FlowDefinition.checkIdentifier
  constructor
  · intro h
    split at h
    · cases h
    · next ht =>
      split at h
      · cases h
      · next hs =>
        split at h
        · cases h
        · next hd =>
          rw [not_or, Decidable.not_not] at ht
          exact ⟨ht.1, ht.2, hs, hd⟩
  · rintro ⟨he, ht, hs, hd⟩
    simp [he, ht, hs, hd]

namespace StageId
variable {flow node : String} {nodes : List String} {m : Message}

theorem toList_qualify : (qualify flow node).toList = flow.toList ++ namespaceSeparator :: node.toList := by
  simp [qualify]

/-- What is left and right of the first separator makes up the whole id again. -/
theorem qualify_of_split? {id : String} (h : split? id = some (flow, node)) : id = qualify flow node := by
  obtain ⟨⟨left, right⟩, hcut, hparts⟩ := Option.map_eq_some_iff.1 h
  obtain ⟨rfl, rfl⟩ := Prod.mk.inj hparts
  apply String.toList_injective
  rw [toList_qualify, String.toList_ofList, String.toList_ofList]
  exact Text.cut_eq_some hcut

theorem split?_eq_some_iff {id : String} (hf : namespaceSeparator ∉ flow.toList) :
    split? id = some (flow, node) ↔ id = qualify flow node := by
  refine ⟨qualify_of_split?, ?_⟩
  rintro rfl
  exact split?_qualify hf

theorem delimiter_not_mem_qualify (hf : Admitted flow) (hn : Admitted node) :
    matchDelimiter ∉ (qualify flow node).toList := by
  rw [toList_qualify, List.mem_append, List.mem_cons]
  rintro (h | h | h)
  · exact hf.no_delimiter h
  · exact absurd h (by decide)
  · exact hn.no_delimiter h

theorem qualify_ne_empty : qualify flow node ≠ "" := by
  intro h
  have hl := congrArg String.toList h
  simp [toList_qualify] at hl

/-- A stage id begins with its flow and ends with its node, so there is nothing to trim. -/
theorem trimmed_qualify (hf : Admitted flow) (hn : Admitted node) :
    Text.trimmed (qualify flow node) = qualify flow node := by
  have hft : Text.trim flow.toList = flow.toList := by
    simpa [Text.trimmed] using congrArg String.toList hf.trimmed
  have hnt : Text.trim node.toList = node.toList := by
    simpa [Text.trimmed] using congrArg String.toList hn.trimmed
  have hfe : flow.toList ≠ [] := by simpa using hf.nonempty
  have hne : node.toList ≠ [] := by simpa using hn.nonempty
  have hq : Text.trim (qualify flow node).toList = (qualify flow node).toList := by
    apply Text.trim_eq_self
    · intro c hc
      rw [toList_qualify, List.head?_append, Option.or_of_isSome (List.isSome_head?.2 hfe)] at hc
      exact Text.head_of_trim_eq_self hft hc
    · intro c hc
      rw [toList_qualify, List.getLast?_append, List.getLast?_cons_of_ne_nil hne,
        Option.or_of_isSome (List.getLast?_isSome.2 hne)] at hc
      exact Text.getLast_of_trim_eq_self hnt hc
  rw [Text.trimmed, hq, String.ofList_toList]

/-- A choice match gives back the stage ids that were put into it, in their order. -/
theorem choiceTargets_joinQualified (hf : Admitted flow) (hn : ∀ node ∈ nodes, Admitted node)
    (hm : m.choiceMatch? = some (joinQualified flow nodes)) :
    m.choiceTargets = nodes.map (qualify flow) := by
  rw [Message.choiceTargets, hm]
  dsimp only
  by_cases hne : nodes = []
  · subst hne
    rfl
  · have hsplit : Text.split matchDelimiter (joinQualified flow nodes) = nodes.map (qualify flow) := by
      apply Text.split_join (by simpa using hne)
      intro part hp
      obtain ⟨node, hmem, rfl⟩ := List.mem_map.1 hp
      exact delimiter_not_mem_qualify hf (hn node hmem)
    have htrim : (nodes.map (qualify flow)).map Text.trimmed = nodes.map (qualify flow) := by
      rw [List.map_map]
      apply List.map_congr_left
      intro node hmem
      exact trimmed_qualify hf (hn node hmem)
    rw [hsplit, htrim, List.filter_eq_self]
    intro id hid
    obtain ⟨node, -, rfl⟩ := List.mem_map.1 hid
    simpa using qualify_ne_empty

/-- What a choice puts on a message is what is read from it. For a flow and any number of nodes whose ids are fit,
the choice match made of them gives back their stage ids, all of them and in their order, and each of these falls
apart into the flow and its node again. -/
theorem choiceTargets_setChoiceMatch (m : Message) (flow : String) (nodes : List String)
    (hf : FlowDefinition.checkIdentifier flow = .ok ())
    (hn : ∀ node ∈ nodes, FlowDefinition.checkIdentifier node = .ok ()) :
    (m.setChoiceMatch (joinQualified flow nodes)).choiceTargets = nodes.map (qualify flow) ∧
      (m.setChoiceMatch (joinQualified flow nodes)).choiceTargets.map split? =
        nodes.map (fun node => some (flow, node)) := by
  have hflow : Admitted flow := checkIdentifier_ok_iff.1 hf
  have hnodes : ∀ node ∈ nodes, Admitted node := fun node hnode => checkIdentifier_ok_iff.1 (hn node hnode)
  have htargets : (m.setChoiceMatch (joinQualified flow nodes)).choiceTargets = nodes.map (qualify flow) :=
    choiceTargets_joinQualified hflow hnodes Message.choiceMatch?_setChoiceMatch
  refine ⟨htargets, ?_⟩
  rw [htargets, List.map_map]
  apply List.map_congr_left
  intro node _
  exact split?_qualify hflow.no_separator

/-- Ids may have blanks inside, and letters of any script; a node may be given twice. -/
theorem choiceTargets_setChoiceMatch_scripts :
    let m : Message := { id := ⟨0⟩, createdAt := ⟨0, 0⟩ }
    FlowDefinition.checkIdentifier "línea 2" = .ok () ∧
      (∀ node ∈ ["b", "日本 語", "b"], FlowDefinition.checkIdentifier node = .ok ()) ∧
      (m.setChoiceMatch "línea 2:b,línea 2:日本 語,línea 2:b").choiceTargets =
        ["línea 2:b", "línea 2:日本 語", "línea 2:b"] := by
  intro m
  have hf : FlowDefinition.checkIdentifier "línea 2" = .ok () := rfl
  have hn : ∀ node ∈ ["b", "日本 語", "b"], FlowDefinition.checkIdentifier node = .ok () := by
    simp only [List.forall_mem_cons]
    exact ⟨rfl, rfl, rfl, fun _ hnil => absurd hnil List.not_mem_nil⟩
  exact ⟨hf, hn, (choiceTargets_setChoiceMatch m "línea 2" ["b", "日本 語", "b"] hf hn).1⟩

end StageId

/-- A stage id of the flow itself belongs to the node that it names. -/
theorem CompiledGraph.resolve?_qualify {g : CompiledGraph} (hf : Admitted g.flowId) (node : String) :
    g.resolve? (StageId.qualify g.flowId node) = g.node? node := by
  simp [CompiledGraph.resolve?, StageId.split?_qualify hf.no_separator]

end MessageFlow
