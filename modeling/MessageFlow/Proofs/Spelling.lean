import Mathlib.Data.List.Forall2
import Mathlib.Data.List.Nodup
import Mathlib.Data.List.Pairwise
import MessageFlow.Flow.Definition
import MessageFlow.Proofs.Trees

/-!
Spellings of JSON values. A record that is written in one way may be given in many: its fields in another order,
under other names or left out, and other members beside them. What a reader of the record finds is the same in all of
them.
-/

namespace MessageFlow

/-! Which values spell a written one -/

def Field.spellings (f : Field) : List String := f.name :: f.aliases

/-- How written values may be given: which values spell which. -/
abbrev Spelling := Json → Json → Prop

/-- A field of a record as it is written: how its value may be spelled, and the written form of what it stands for
when it is left out. -/
structure FieldFormat extends Field where
  default : Option Json := none
  spelling : Spelling

/-- The members that a written field may be given by: one with a spelling of its value, under any name of the field,
and none where the value is the default. -/
inductive FieldFormat.SpelledBy (f : FieldFormat) (written : Json) : List (String × Json) → Prop
  | given {name : String} {spelled : Json} : f.spelling written spelled → f.SpelledBy written [(name, spelled)]
  | leftOut : f.default = some written → f.SpelledBy written []

namespace Spelling

/-- The same value, with the members of its objects in any order. -/
def free : Spelling := fun written spelled => spelled.sorted = written.sorted

/-- Item by item. -/
def items (item : Spelling) : Spelling := fun written spelled =>
  ∃ xs ys, written = .array xs ∧ spelled = .array ys ∧ List.Forall₂ item xs ys

/-- A record, field by field. Members stand in any order, and those that no field is spelled by are anything. -/
def record (formats : List FieldFormat) : Spelling := fun written spelled =>
  ∃ fields members, written = .object fields ∧ spelled = .object members ∧
    List.Forall₂ (fun f field => field.1 = f.name ∧
      f.SpelledBy field.2 (members.filter (fun m => m.1 ∈ f.spellings))) formats fields

/-! What a reader finds in a spelling -/

open DocumentNode
variable {α : Type} {spelling : Spelling} {read : Json.Place → Option α} {written : Json} {a : α}

/-- Whatever spells the written value reads as `a`, unless it is nested too deeply. -/
def Reads (spelling : Spelling) (read : Json.Place → Option α) (written : Json) (a : α) : Prop :=
  ∀ spelled depth, spelling written spelled → spelled.height < depth → read (spelled.place depth) = some a

theorem eq_string_of_free {s : String} {v : Json} (h : free (.string s) v) : v = .string s := by
  cases v <;> cases h
  rfl

theorem eq_null_of_free {v : Json} (h : free .null v) : v = .null := by
  cases v <;> cases h
  rfl

theorem reads_text (s : String) : free.Reads text? (.string s) s := by
  intro v depth hv _
  obtain rfl := eq_string_of_free hv
  rfl

theorem reads_optionalText (s : Option String) : free.Reads optionalText? (optionalJson s) s := by
  intro v depth hv _
  cases s with
  | none =>
    obtain rfl := eq_null_of_free hv
    rfl
  | some s =>
    obtain rfl := eq_string_of_free hv
    rfl

theorem reads_values {d : Dict Json} (h : d.InOrder) : free.Reads values? (.ofDict d) d := by
  intro v depth hv hdepth
  cases v with
  | object members =>
    have hsorted : (Json.object members).sorted = .ofDict d := hv.trans (sorted_ofDict h)
    have hentries : entries? ((Json.object members).place depth) = some (Json.placed members (depth - 1)) :=
      Json.members?_place hdepth
    have hvalues : (Json.placed members (depth - 1)).mapM (fun p => do return (p.1, ← value? p.2)) =
        some (Json.sortedMembers members) := by
      rw [mapM_eq_some_iff, Json.sortedMembers_eq, Json.placed, List.map_map, List.map_map]
      apply List.map_congr_left
      intro p hp
      have hvalue : value? (p.2.place (depth - 1)) = some p.2.sorted :=
        Json.value?_tree p.2 (depth - 1) (Json.height_lt_of_mem_object hp hdepth)
      simp [hvalue]
    have hdict : Dict.ofList (Json.sortedMembers members) = d := Dict.ext (Json.object.inj hsorted)
    exact Option.bind_eq_some_iff.2 ⟨_, hentries, Option.bind_eq_some_iff.2 ⟨_, hvalues, congrArg some hdict⟩⟩
  | _ => cases hv

theorem map_read_of_spelled {write : α → Json} {xs : List α} {vs : List Json} {depth : Nat}
    (h : ∀ x ∈ xs, spelling.Reads read (write x) x) (hspelled : List.Forall₂ spelling (xs.map write) vs)
    (hheight : ∀ v ∈ vs, v.height < depth) : vs.map (fun v => read (v.place depth)) = xs.map some := by
  rw [List.forall₂_map_left_iff] at hspelled
  induction hspelled with
  | nil => rfl
  | cons hv _ ih =>
    obtain ⟨hx, hrest⟩ := List.forall_mem_cons.1 h
    obtain ⟨hlow, hheight⟩ := List.forall_mem_cons.1 hheight
    rw [List.map_cons, List.map_cons, hx _ depth hv hlow, ih hrest hheight]

theorem reads_items {write : α → Json} {xs : List α} (h : ∀ x ∈ xs, spelling.Reads read (write x) x) :
    (items spelling).Reads (list? read) (.array (xs.map write)) xs := by
  rintro v depth ⟨ws, vs, hws, rfl, hspelled⟩ hdepth
  cases hws
  have hread : (vs.map (fun v => v.place (depth - 1))).mapM read = some xs := by
    rw [mapM_eq_some_iff, List.map_map]
    exact map_read_of_spelled h hspelled (fun v hv => Json.height_lt_of_mem_array hv hdepth)
  exact Option.bind_eq_some_iff.2 ⟨_, Json.items?_place hdepth, hread⟩

/-! Records -/

variable {fields : List Field} {f g : Field} {name : String}

theorem name_mem_spellings (f : Field) : f.name ∈ f.spellings := List.mem_cons_self

theorem spelledBy_iff : (f.name = name || f.aliases.contains name) = true ↔ name ∈ f.spellings := by
  rw [Bool.or_eq_true, decide_eq_true_iff, List.contains_iff_mem, Field.spellings, List.mem_cons, eq_comm]

theorem exists_of_fieldName? {meant : String} (h : fieldName? fields name = some meant) :
    ∃ g ∈ fields, g.name = meant ∧ name ∈ g.spellings := by
  obtain ⟨g, hfind, hname⟩ := Option.map_eq_some_iff.1 h
  have hspelled := List.find?_some hfind
  exact ⟨g, List.mem_of_find?_eq_some hfind, hname, spelledBy_iff.1 hspelled⟩

section
variable (hdistinct : (fields.flatMap Field.spellings).Nodup)
include hdistinct

theorem eq_of_mem_spellings (hf : f ∈ fields) (hg : g ∈ fields) (hnf : name ∈ f.spellings)
    (hng : name ∈ g.spellings) : f = g := by
  by_contra hne
  obtain ⟨-, hpairwise⟩ := List.nodup_flatMap.1 hdistinct
  have hsymm : Std.Symm (Function.onFun List.Disjoint Field.spellings) := ⟨fun _ _ h _ hx hy => h hy hx⟩
  have hdisjoint : List.Disjoint f.spellings g.spellings := hpairwise.forall hf hg hne
  exact hdisjoint hnf hng

/-- A name stands for the field that it spells. -/
theorem fieldName?_eq_some_iff (hf : f ∈ fields) : fieldName? fields name = some f.name ↔ name ∈ f.spellings := by
  constructor
  · intro h
    obtain ⟨g, hg, hname, hspelled⟩ := exists_of_fieldName? h
    have hmem : f.name ∈ g.spellings := hname ▸ name_mem_spellings g
    rwa [eq_of_mem_spellings hdistinct hf hg (name_mem_spellings f) hmem]
  · intro hspelled
    cases h : fieldName? fields name with
    | none => exact absurd (spelledBy_iff.2 hspelled) (List.find?_eq_none.1 (Option.map_eq_none_iff.1 h) f hf)
    | some meant =>
      obtain ⟨g, hg, rfl, hg'⟩ := exists_of_fieldName? h
      rw [eq_of_mem_spellings hdistinct hg hf hg' hspelled]

end

/-- The known members of a record, under the names of their fields. -/
def known (fields : List Field) (members : List (String × Json.Place)) : List (String × Json.Place) :=
  members.filterMap (fun p => (fieldName? fields p.1).map (fun name => (name, p.2)))

/-- The known members under one name are those that its field is spelled by. -/
theorem filter_known (hdistinct : (fields.flatMap Field.spellings).Nodup) (hf : f ∈ fields)
    (members : List (String × Json.Place)) : (known fields members).filter (fun p => p.1 = f.name) =
      (members.filter (fun p => p.1 ∈ f.spellings)).map (fun p => (f.name, p.2)) := by
  induction members with
  | nil => rfl
  | cons p rest ih =>
    have hiff : fieldName? fields p.1 = some f.name ↔ p.1 ∈ f.spellings := fieldName?_eq_some_iff hdistinct hf
    rw [known] at ih ⊢
    by_cases hp : p.1 ∈ f.spellings
    · simp [hiff.2 hp, hp, ih]
    · cases hname : fieldName? fields p.1 with
      | none => simp [hname, hp, ih]
      | some name =>
        have hne : name ≠ f.name := by
          intro he
          exact hp (hiff.1 (he ▸ hname))
        simp [hname, hp, hne, ih]

theorem find_eq_head?_filter {β : Type} {k : String} (es : List (String × β)) :
    Dict.find k es = (es.filter (fun p => p.1 = k)).head?.map Prod.snd := by
  induction es with
  | nil => rfl
  | cons p rest ih =>
    rw [Dict.find]
    by_cases hk : k = p.1
    · simp [hk]
    · simp [hk, Ne.symm hk, ih]

/-- What is known under a field's name: its value in a spelling, or nothing where the field stands for its
default. -/
def Found (r : List (String × Json.Place)) (depth : Nat) (f : FieldFormat) (written : Json) : Prop :=
  (∃ spelled, f.spelling written spelled ∧ spelled.height < depth ∧
    Dict.find f.name r = some (spelled.place depth)) ∨
  (f.default = some written ∧ Dict.find f.name r = none)

theorem Found.required {r : List (String × Json.Place)} {depth : Nat} {f : FieldFormat}
    (h : Found r depth f written) (hreads : f.spelling.Reads read written a) (hdefault : f.default = none) :
    required? read f.name r = some a := by
  rcases h with ⟨v, hv, hheight, hfind⟩ | ⟨hwritten, -⟩
  · rw [required?, hfind]
    exact hreads v depth hv hheight
  · rw [hdefault] at hwritten
    cases hwritten

theorem Found.defaulted {r : List (String × Json.Place)} {depth : Nat} {f : FieldFormat} {default : α}
    (h : Found r depth f written) (hreads : f.spelling.Reads read written a)
    (hdefault : f.default = some written → default = a) : defaulted? read default f.name r = some a := by
  rcases h with ⟨v, hv, hheight, hfind⟩ | ⟨hwritten, hfind⟩
  · rw [defaulted?, hfind]
    exact hreads v depth hv hheight
  · rw [defaulted?, hfind, hdefault hwritten]
    rfl

theorem nodup_names_iff {β : Type} {es : List (String × β)} :
    (es.map Prod.fst).Nodup ↔ ∀ k, (es.filter (fun p => p.1 = k)).length ≤ 1 := by
  rw [List.nodup_iff_count_le_one]
  apply forall_congr'
  intro k
  rw [List.count_eq_countP, List.countP_map, List.countP_eq_length_filter]
  rfl

/-- The names of the known members are the fields' own. -/
theorem nodup_known {members : List (String × Json.Place)} (hdistinct : (fields.flatMap Field.spellings).Nodup)
    (hone : ∀ f ∈ fields, (members.filter (fun p => p.1 ∈ f.spellings)).length ≤ 1) :
    ((known fields members).map Prod.fst).Nodup := by
  rw [nodup_names_iff]
  intro k
  by_cases hk : ∃ f ∈ fields, f.name = k
  · obtain ⟨f, hf, rfl⟩ := hk
    rw [filter_known hdistinct hf, List.length_map]
    exact hone f hf
  · have hnone : (known fields members).filter (fun p => p.1 = k) = [] := by
      rw [List.filter_eq_nil_iff]
      intro p hp heq
      obtain ⟨q, -, hq⟩ := List.mem_filterMap.1 hp
      obtain ⟨name, hname, rfl⟩ := Option.map_eq_some_iff.1 hq
      obtain ⟨f, hf, hfname, -⟩ := exists_of_fieldName? hname
      exact hk ⟨f, hf, hfname.trans (of_decide_eq_true heq)⟩
    simp [hnone]

theorem filter_placed (f : Field) (members : List (String × Json)) (depth : Nat) :
    (Json.placed members depth).filter (fun p => p.1 ∈ f.spellings) =
      Json.placed (members.filter (fun p => p.1 ∈ f.spellings)) depth := List.filter_map

/-- A record can be read when no field is given twice. -/
theorem record?_place {members : List (String × Json)} {depth : Nat}
    (hdistinct : (fields.flatMap Field.spellings).Nodup)
    (hone : ∀ f ∈ fields, (members.filter (fun p => p.1 ∈ f.spellings)).length ≤ 1)
    (hheight : (Json.object members).height < depth) : record? fields ((Json.object members).place depth) =
      some (known fields (Json.placed members (depth - 1))) := by
  have hgiven : fields? (fields.map (·.name)) ((Json.object members).place depth) =
      some (Json.placed members (depth - 1)) := Json.members?_place hheight
  have hnodup : ((known fields (Json.placed members (depth - 1))).map (·.1)).Nodup := by
    apply nodup_known hdistinct
    intro f hf
    rw [filter_placed, Json.placed, List.length_map]
    exact hone f hf
  rw [record?, hgiven]
  exact if_pos hnodup

theorem length_le_one_of_spelledBy {f : FieldFormat} {members : List (String × Json)}
    (h : f.SpelledBy written members) : members.length ≤ 1 := by
  cases h <;> simp

/-- What the members under a field's names are, is found under its own. -/
theorem found_known {members : List (String × Json)} {depth : Nat} {f : FieldFormat}
    (hdistinct : (fields.flatMap Field.spellings).Nodup) (hf : f.toField ∈ fields)
    (hspelled : f.SpelledBy written (members.filter (fun p => p.1 ∈ f.spellings)))
    (hheight : ∀ p ∈ members, p.2.height < depth) :
    Found (known fields (Json.placed members depth)) depth f written := by
  have hfind : Dict.find f.name (known fields (Json.placed members depth)) =
      ((members.filter (fun p => p.1 ∈ f.spellings)).head?).map (fun p => p.2.place depth) := by
    rw [find_eq_head?_filter, filter_known hdistinct hf, filter_placed, Json.placed, List.head?_map, List.head?_map,
      Option.map_map, Option.map_map]
    rfl
  generalize hmembers : members.filter (fun p => p.1 ∈ f.spellings) = given at hspelled hfind
  cases hspelled with
  | @given name v hv =>
    have hmem : (name, v) ∈ members.filter (fun p => p.1 ∈ f.spellings) := by
      rw [hmembers]
      exact List.mem_singleton_self _
    exact .inl ⟨v, hv, hheight _ (List.mem_filter.1 hmem).1, hfind⟩
  | leftOut hdefault => exact .inr ⟨hdefault, hfind⟩

/-- A record can be read in every spelling, and each of its fields is found. -/
theorem exists_record {formats : List FieldFormat} {written : List (String × Json)} {v : Json} {depth : Nat}
    (hdistinct : ((formats.map FieldFormat.toField).flatMap Field.spellings).Nodup)
    (hspelled : record formats (.object written) v) (hheight : v.height < depth) :
    ∃ r, record? (formats.map FieldFormat.toField) (v.place depth) = some r ∧
      List.Forall₂ (fun f field => Found r (depth - 1) f field.2) formats written := by
  obtain ⟨written', members, hwritten, rfl, hfields⟩ := hspelled
  obtain rfl := Json.object.inj hwritten
  have hone : ∀ f ∈ formats, (members.filter (fun p => p.1 ∈ f.spellings)).length ≤ 1 :=
    ((List.forall₂_and_left _ _).1 (hfields.imp (fun _ _ h => ⟨length_le_one_of_spelledBy h.2, h⟩))).1
  have hmem : List.Forall₂ (fun f field => f ∈ formats ∧ _) formats written :=
    (List.forall₂_and_left _ _).2 ⟨fun _ hf => hf, hfields⟩
  refine ⟨_, record?_place hdistinct ?_ hheight, hmem.imp ?_⟩
  · intro field hfield
    obtain ⟨format, hformat, rfl⟩ := List.mem_map.1 hfield
    exact hone format hformat
  · rintro f field ⟨hf, -, hspelled⟩
    apply found_known hdistinct (List.mem_map_of_mem hf) hspelled
    intro p hp
    exact Json.height_lt_of_mem_object hp hheight

end Spelling
end MessageFlow
