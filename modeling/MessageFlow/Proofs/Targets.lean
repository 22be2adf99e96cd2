import Mathlib.Logic.Function.Defs
import MessageFlow.Graph.BranchTable
import MessageFlow.Proofs.Edges

/-!
Where the edges of a node lead, in the order of the edges. While edges are read one after another, the graph
keeps the targets of each node and a table keeps those under each label. What both say depends on nothing but
the edges read so far.
-/

namespace MessageFlow

section EraseDups
variable {α : Type} [BEq α] [LawfulBEq α]

theorem nodup_eraseDups (xs : List α) : xs.eraseDups.Nodup := by
  induction hn : xs.length using Nat.strongRecOn generalizing xs with
  | ind n ih =>
    cases xs with
    | nil => simp
    | cons x rest =>
      have hl := List.length_filter_le (fun y => !y == x) rest
      rw [List.length_cons] at hn
      rw [List.eraseDups_cons, List.nodup_cons]
      exact ⟨by simp, ih _ (by omega) _ rfl⟩

theorem eraseDups_eq_self {xs : List α} (h : xs.Nodup) : xs.eraseDups = xs := by
  induction xs with
  | nil => rfl
  | cons x rest ih =>
    obtain ⟨hx, hrest⟩ := List.nodup_cons.1 h
    have hf : rest.filter (fun y => !y == x) = rest := by
      rw [List.filter_eq_self]
      intro y hy
      have hne : y ≠ x := fun heq => hx (heq ▸ hy)
      simp [hne]
    rw [List.eraseDups_cons, hf, ih hrest]

/-- Items that stay different have the same repetitions. -/
theorem eraseDups_map {β : Type} [BEq β] [LawfulBEq β] {f : α → β} (hf : Function.Injective f) (xs : List α) :
    (xs.map f).eraseDups = xs.eraseDups.map f := by
  induction hn : xs.length using Nat.strongRecOn generalizing xs with
  | ind n ih =>
    cases xs with
    | nil => simp
    | cons x rest =>
      have hl := List.length_filter_le (fun y => !y == x) rest
      rw [List.length_cons] at hn
      have hkept : (fun y => !y == f x) ∘ f = fun y => !y == x := by
        funext y
        exact congrArg not hf.beq_eq
      rw [List.map_cons, List.eraseDups_cons, List.eraseDups_cons, List.map_cons, List.filter_map, hkept,
        ih _ (by omega) _ rfl]

/-- One item more comes to the end, unless it was there before. -/
theorem eraseDups_concat [DecidableEq α] (xs : List α) (x : α) :
    (xs ++ [x]).eraseDups = xs.eraseDups ++ if x ∉ xs.eraseDups then [x] else [] := by
  rw [List.eraseDups_append]
  by_cases h : x ∈ xs <;> simp [List.removeAll, h, List.eraseDups_cons]

end EraseDups

namespace FlowDefinition
variable {edges done : List Edge} {e : Edge} {source label : String} {targets : List String}

/-- The targets of a node's edges, each once, in the order of the edges. -/
def targetsOf (edges : List Edge) (source : String) : List String :=
  ((edges.filter (fun e => e.source = source)).map Edge.target).eraseDups

/-- The targets of a node's edges with a label, each once, in the order of the edges. -/
def branchTargets (edges : List Edge) (source label : String) : List String :=
  ((edges.filter (fun e => e.source = source ∧ e.label = some label)).map Edge.target).eraseDups

/-- The targets under a label that has edges. -/
def branchTargets? (edges : List Edge) (source label : String) : Option (List String) :=
  match branchTargets edges source label with
  | [] => none
  | targets => some targets

theorem mem_targetsOf {target : String} :
    target ∈ targetsOf edges source ↔ ∃ e ∈ edges, e.source = source ∧ e.target = target := by
  simp [targetsOf, and_assoc]

theorem mem_branchTargets {target : String} : target ∈ branchTargets edges source label ↔
    ∃ e ∈ edges, e.source = source ∧ e.label = some label ∧ e.target = target := by
  simp [branchTargets, and_assoc]

/-- Where a label leads, an edge leads. -/
theorem mem_targetsOf_of_mem_branchTargets {target : String} (h : target ∈ branchTargets edges source label) :
    target ∈ targetsOf edges source := by
  obtain ⟨e, he, hs, -, ht⟩ := mem_branchTargets.1 h
  exact mem_targetsOf.2 ⟨e, he, hs, ht⟩

theorem branchTargets_ne_nil_iff : branchTargets edges source label ≠ [] ↔
    ∃ e ∈ edges, e.source = source ∧ e.label = some label := by
  constructor
  · intro h
    obtain ⟨target, ht⟩ := List.exists_mem_of_ne_nil _ h
    obtain ⟨e, he, hs, hl, -⟩ := mem_branchTargets.1 ht
    exact ⟨e, he, hs, hl⟩
  · rintro ⟨e, he, hs, hl⟩
    exact List.ne_nil_of_mem (mem_branchTargets.2 ⟨e, he, hs, hl, rfl⟩)

theorem branchTargets?_eq_some_iff : branchTargets? edges source label = some targets ↔
    branchTargets edges source label = targets ∧ targets ≠ [] := by
  unfold branchTargets?
  cases branchTargets edges source label with
  | nil => simp only [reduceCtorEq, false_iff, not_and, Decidable.not_not]; exact Eq.symm
  | cons first rest => simp +contextual [Eq.comm]

theorem getD_branchTargets? :
    (branchTargets? edges source label).getD [] = branchTargets edges source label := by
  unfold branchTargets?
  cases branchTargets edges source label <;> rfl

/-- What one edge more adds to the targets of the edges of some kind. -/
theorem targets_concat (p : Edge → Bool) (done : List Edge) (e : Edge) :
    (((done ++ [e]).filter p).map Edge.target).eraseDups =
      ((done.filter p).map Edge.target).eraseDups ++
        if p e = true ∧ e.target ∉ ((done.filter p).map Edge.target).eraseDups then [e.target] else [] := by
  rw [List.filter_append, List.map_append]
  cases hp : p e with
  | false => simp [hp]
  | true =>
    have hone : [e].filter p = [e] := by simp [hp]
    rw [hone, List.map_singleton, eraseDups_concat]
    simp only [true_and]

theorem targetsOf_concat (done : List Edge) (e : Edge) (source : String) :
    targetsOf (done ++ [e]) source = targetsOf done source ++
      if e.source = source ∧ e.target ∉ targetsOf done source then [e.target] else [] := by
  have h := targets_concat (fun d => d.source = source) done e
  simp only [decide_eq_true_eq] at h
  exact h

theorem branchTargets_concat (done : List Edge) (e : Edge) (source label : String) :
    branchTargets (done ++ [e]) source label = branchTargets done source label ++
      if (e.source = source ∧ e.label = some label) ∧ e.target ∉ branchTargets done source label
      then [e.target] else [] := by
  have h := targets_concat (fun d => d.source = source ∧ d.label = some label) done e
  simp only [decide_eq_true_eq] at h
  exact h

theorem branchTargets?_concat_of_not {done : List Edge} {e : Edge} {source label : String}
    (h : ¬ ((e.source = source ∧ e.label = some label) ∧ e.target ∉ branchTargets done source label)) :
    branchTargets? (done ++ [e]) source label = branchTargets? done source label := by
  rw [branchTargets?, branchTargets_concat, if_neg h, List.append_nil, branchTargets?]

end FlowDefinition

/-- Note the target of an edge that has a label, where the vertices have these names. -/
def BranchTable.noteEdge (names : List String) (t : BranchTable) (e : Edge) : BranchTable :=
  match names.findIdx? (fun name => name = e.source), e.label with
  | some i, some label => t.note i label e.target
  | _, _ => t

/-- Note the targets of edges, one edge after another. -/
def BranchTable.noted (names : List String) (t : BranchTable) (edges : List Edge) : BranchTable :=
  edges.foldl (noteEdge names) t

namespace Arena
open FlowDefinition
variable {a : Arena} {t : BranchTable} {done edges : List Edge} {e : Edge} {i j : Nat}

/-- What the graph and the table say is what these edges say. -/
structure Reads (a : Arena) (t : BranchTable) (done : List Edge) : Prop where
  successors : ∀ i source, a.names[i]? = some source →
    (a.successors i).map (fun j => a.names[j]?) = (targetsOf done source).map some
  branches : ∀ i source label, a.names[i]? = some source →
    t.get? i label = branchTargets? done source label

theorem Ends.names (h : a.Ends e i j) : a.names[i]? = some e.source ∧ a.names[j]? = some e.target :=
  ⟨names_of_find? h.source, names_of_find? h.target⟩

/-- Where no name is given twice, an edge leaves the vertex of the name of its source. -/
theorem Ends.source_iff (hn : a.names.Nodup) (he : a.Ends e i j) {k : Nat} {source : String}
    (hk : a.names[k]? = some source) : k = i ↔ e.source = source := by
  obtain ⟨hi, -⟩ := he.names
  constructor
  · rintro rfl
    exact Option.some.inj (hi.symm.trans hk)
  · rintro rfl
    exact (List.getElem?_inj (List.getElem?_eq_some_iff.1 hk).1 hn).1 (hk.trans hi.symm)

namespace Reads

/-- An edge goes where an earlier one went if its target is a successor already. -/
theorem mem_successors_iff (h : a.Reads t done) (hn : a.names.Nodup) (he : a.Ends e i j) :
    j ∈ a.successors i ↔ e.target ∈ targetsOf done e.source := by
  obtain ⟨hi, hj⟩ := he.names
  have hmem : e.target ∈ targetsOf done e.source ↔ ∃ k ∈ a.successors i, a.names[k]? = some e.target := by
    rw [← List.mem_map, h.successors i _ hi]
    simp
  rw [hmem]
  constructor
  · exact fun hs => ⟨j, hs, hj⟩
  · rintro ⟨k, hs, hk⟩
    have hlt : k < a.names.length := (List.getElem?_eq_some_iff.1 hk).1
    rwa [(List.getElem?_inj hlt hn).1 (hk.trans hj.symm)] at hs

/-- The successors, with one edge more. -/
theorem successors_link (h : a.Reads t done) (hn : a.names.Nodup) (he : a.Ends e i j) {k : Nat}
    {source : String} (hk : a.names[k]? = some source) :
    ((a.link e).successors k).map (fun l => a.names[l]?) = (targetsOf (done ++ [e]) source).map some := by
  obtain ⟨-, hj⟩ := he.names
  rw [link_of_ends he, successors_connect (lt_size_of_find? he.source), targetsOf_concat, List.map_append,
    List.map_append, h.successors k source hk]
  congr 1
  by_cases hki : k = i
  · obtain rfl := (he.source_iff hn hk).1 hki
    simp only [hki, true_and, h.mem_successors_iff hn he]
    split
    · rw [List.map_singleton, List.map_singleton, hj]
    · rfl
  · have hsource : e.source ≠ source := fun hs => hki ((he.source_iff hn hk).2 hs)
    simp [hki, hsource]

/-- The rows of the table, with one edge more. -/
theorem get?_noteEdge (h : a.Reads t done) (hn : a.names.Nodup) (he : a.Ends e i j) {k : Nat}
    {source : String} (hk : a.names[k]? = some source) (label : String) :
    (t.noteEdge a.names e).get? k label = branchTargets? (done ++ [e]) source label := by
  obtain ⟨hi, -⟩ := he.names
  have hfind : a.names.findIdx? (fun name => name = e.source) = some i :=
    find?_eq_findIdx?.symm.trans he.source
  have hold := h.branches k source label hk
  unfold BranchTable.noteEdge
  rw [hfind]
  cases hl : e.label with
  | none => rw [hold, branchTargets?_concat_of_not (by simp [hl])]
  | some noted =>
    dsimp only
    have hrow : (t.get? i noted).getD [] = branchTargets done e.source noted := by
      rw [h.branches i e.source noted hi, getD_branchTargets?]
    by_cases hmem : e.target ∈ branchTargets done e.source noted
    · rw [BranchTable.note_of_mem (hrow ▸ hmem), hold, branchTargets?_concat_of_not]
      rintro ⟨⟨rfl, hlabel⟩, hnew⟩
      obtain rfl : noted = label := Option.some.inj (hl.symm.trans hlabel)
      exact hnew hmem
    · rw [BranchTable.get?_note (hrow ▸ hmem), hrow]
      have hki : k = i ↔ e.source = source := he.source_iff hn hk
      split
      · next hkey =>
        obtain ⟨rfl, rfl⟩ := hkey
        obtain rfl := hki.1 rfl
        symm
        rw [branchTargets?_eq_some_iff, branchTargets_concat, if_pos ⟨⟨rfl, hl⟩, hmem⟩]
        simp
      · next hkey =>
        rw [hold, branchTargets?_concat_of_not]
        rintro ⟨⟨hs, hlabel⟩, -⟩
        exact hkey ⟨hki.2 hs, Option.some.inj (hlabel.symm.trans hl)⟩

/-- One edge more. -/
theorem link (h : a.Reads t done) (hn : a.names.Nodup) (he : a.Ends e i j) :
    (a.link e).Reads (t.noteEdge a.names e) (done ++ [e]) where
  successors k source hk := by
    rw [names_link] at hk ⊢
    exact h.successors_link hn he hk
  branches k source label hk := by
    rw [names_link] at hk
    exact h.get?_noteEdge hn he hk label

/-- Any number of edges. -/
theorem linked (h : a.Reads t done) (hn : a.names.Nodup) (hends : ∀ e ∈ edges, ∃ i j, a.Ends e i j) :
    (a.linked edges).Reads (t.noted a.names edges) (done ++ edges) := by
  induction edges generalizing a t done with
  | nil =>
    rw [List.append_nil]
    exact h
  | cons e rest ih =>
    obtain ⟨⟨i, j, he⟩, hrest⟩ := List.forall_mem_cons.1 hends
    have hnext : ((a.link e).linked rest).Reads ((t.noteEdge a.names e).noted (a.link e).names rest)
        (done ++ [e] ++ rest) := by
      apply ih (h.link hn he)
      · rwa [names_link]
      · intro d hd
        obtain ⟨k, l, hkl⟩ := hrest d hd
        exact ⟨k, l, (ends_iff_of_names (a.names_link e)).2 hkl⟩
    rw [names_link, List.append_assoc] at hnext
    exact hnext

end Reads

theorem reads_ofNames (names : List String) : (ofNames names).Reads {} [] where
  successors i source _ := by
    rw [successors_ofNames]
    rfl
  branches _ _ _ _ := rfl

end Arena
end MessageFlow
