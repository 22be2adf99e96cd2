import MessageFlow.Message.Merge

/-!
What a join of copies holds. Each place of the message, a header, a property, the body or the failure, is
followed through the fold on its own: one copy either leaves the place or puts its own value there, so
the last copy that changed it decides.
-/

namespace MessageFlow

section Places
variable {α : Type} [BEq α] {base old new : Option α} {finals : List (Option α)}

/-- One copy's word on a place: its value if it is there and differs from the base, else the old one. -/
def newer (base old new : Option α) : Option α := if new.isSome && base != new then new else old

/-- The last of the final values that is there and differs from the base, otherwise the base. -/
def latestChange (base : Option α) (finals : List (Option α)) : Option α :=
  (finals.reverse.find? (fun v => v.isSome && base != v)).getD base

@[simp] theorem newer_none : newer base old none = old := rfl

theorem foldl_newer : finals.foldl (newer base) old =
    (finals.reverse.find? (fun v => v.isSome && base != v)).getD old := by
  induction finals generalizing old with
  | nil => rfl
  | cons v rest ih =>
    rw [List.foldl_cons, ih, List.reverse_cons, List.find?_append]
    cases hf : rest.reverse.find? (fun v => v.isSome && base != v) with
    | some w => rfl
    | none =>
      by_cases hv : v.isSome && base != v <;> simp [newer, hv]

theorem foldl_newer_base : finals.foldl (newer base) base = latestChange base finals := foldl_newer

/-- The latest change is the base, or what one of the copies brought. -/
theorem latestChange_mem (base : Option α) (finals : List (Option α)) :
    latestChange base finals = base ∨ latestChange base finals ∈ finals := by
  unfold latestChange
  cases hf : finals.reverse.find? (fun v => v.isSome && base != v) with
  | none => exact .inl rfl
  | some w => exact .inr (List.mem_reverse.1 (List.mem_of_find?_eq_some hf))

/-- The latest change from nothing is the last value that is there. -/
theorem latestChange_none_cons (v : Option α) :
    latestChange none (v :: finals) = (latestChange none finals).or v := by
  unfold latestChange
  rw [List.reverse_cons, List.find?_append]
  cases hf : finals.reverse.find? (fun v => v.isSome && none != v) with
  | some w =>
    have hw := List.find?_some hf
    cases w with
    | none => simp at hw
    | some x => rfl
  | none => cases v <;> rfl

end Places

namespace Dict
variable {α : Type} [BEq α] {base target : Dict α} {k : String} {es fs : List (String × α)}

/-- Overlaying is decided name by name. -/
theorem get?_overlay (h : (es.map (·.1)).Nodup) :
    (base.overlay es target).get? k = newer (base.get? k) (target.get? k) (find k es) := by
  induction es generalizing target with
  | nil => simp [overlay, find]
  | cons e rest ih =>
    obtain ⟨hn, hr⟩ := List.nodup_cons.1 h
    have hstep : base.overlay (e :: rest) target =
        base.overlay rest (if base.get? e.1 == some e.2 then target else target.insert e.1 e.2) := rfl
    rw [hstep, ih hr]
    by_cases hk : k = e.1
    · subst hk
      have hf : find e.1 rest = none := by
        cases hv : find e.1 rest with
        | none => rfl
        | some v => exact (hn (List.mem_map.2 ⟨_, (find_eq_some_iff hr).1 hv, rfl⟩)).elim
      by_cases hb : base.get? e.1 == some e.2 <;> simp [hf, find, newer, hb, bne]
    · have ht : (if base.get? e.1 == some e.2 then target else target.insert e.1 e.2).get? k =
          target.get? k := by
        split
        · rfl
        · simp [hk]
      rw [ht]
      simp [find, hk]

/-- The order in which the entries are listed leaves no trace. -/
theorem overlay_perm (h : es.Perm fs) (hn : (es.map (·.1)).Nodup) :
    base.overlay es target = base.overlay fs target := by
  apply ext_get?
  intro k
  rw [get?_overlay hn, get?_overlay ((h.map _).nodup_iff.1 hn), find_perm h hn]

end Dict

namespace Message
variable {base target copy : Message} {copies : List Message} {name : String}

theorem header?_absorb : (absorb base target copy).header? name =
    newer (base.header? name) (target.header? name) (copy.header? name) :=
  Dict.get?_overlay copy.headers.nodup_keys

theorem property?_absorb : (absorb base target copy).property? name =
    newer (base.property? name) (target.property? name) (copy.property? name) :=
  Dict.get?_overlay copy.properties.nodup_keys

theorem body_absorb : some (absorb base target copy).body =
    newer (some base.body) (some target.body) (some copy.body) := by
  have hb : (some base.body != some copy.body) = !(copy.body == base.body) := by
    rw [Json.beq_comm]
    rfl
  by_cases h : copy.body == base.body <;> simp [absorb, absorbListed, newer, hb, h]

theorem error_absorb : (absorb base target copy).error =
    newer base.error target.error copy.error := by
  cases hc : copy.error with
  | none => simp [absorb, absorbListed, hc]
  | some f =>
    by_cases h : base.error = some f
    · simp [absorb, absorbListed, newer, hc, h]
    · simp [absorb, absorbListed, newer, hc, h, Ne.symm h]

section Restoring
variable {m : Message}

/-- Restoring the choice match touches nothing but the properties. -/
theorem restoreChoiceMatch_eq (base m : Message) :
    ∃ d, restoreChoiceMatch base m = { m with properties := d } := by
  unfold restoreChoiceMatch
  split
  · exact ⟨_, rfl⟩
  · exact ⟨_, rfl⟩

theorem property?_restoreChoiceMatch (hn : name ≠ choiceMatchKey) :
    (restoreChoiceMatch base m).property? name = m.property? name := by
  cases h : base.choiceMatch? <;> simp [restoreChoiceMatch, h, setChoiceMatch, clearChoiceMatch, hn]

@[simp] theorem choiceMatch?_restoreChoiceMatch :
    (restoreChoiceMatch base m).choiceMatch? = base.choiceMatch? := by
  cases h : base.choiceMatch? <;> simp [restoreChoiceMatch, h]

end Restoring

/-- A place that every single copy decides by `newer` is decided by the latest change in the join. -/
theorem foldl_absorb {α : Type} [BEq α] (f : Message → Option α)
    (hf : ∀ target copy, f (absorb base target copy) = newer (f base) (f target) (f copy)) :
    f (copies.foldl (absorb base) base) = latestChange (f base) (copies.map f) := by
  rw [← foldl_newer_base, List.foldl_map]
  exact (List.foldl_hom f (fun target copy => (hf target copy).symm)).symm

/-- What no copy touches stays as it is at the start of the fold. -/
theorem foldl_absorb_const {β : Type} (f : Message → β)
    (hf : ∀ target copy, f (absorb base target copy) = f target) :
    f (copies.foldl (absorb base) target) = f target := by
  induction copies generalizing target with
  | nil => rfl
  | cons c rest ih => exact ih.trans (hf target c)

/-- A join is the fold of the copies, but for some property. -/
theorem joinCopies_eq (base : Message) (copies : List Message) :
    ∃ d, base.joinCopies copies = { copies.foldl (absorb base) base with properties := d } :=
  restoreChoiceMatch_eq base (copies.foldl (absorb base) base)

theorem header?_joinCopies : (base.joinCopies copies).header? name =
    latestChange (base.header? name) (copies.map (·.header? name)) := by
  obtain ⟨d, hd⟩ := joinCopies_eq base copies
  rw [hd]
  exact foldl_absorb (·.header? name) (fun _ _ => header?_absorb)

theorem property?_joinCopies (hn : name ≠ choiceMatchKey) :
    (base.joinCopies copies).property? name =
      latestChange (base.property? name) (copies.map (·.property? name)) := by
  rw [joinCopies, property?_restoreChoiceMatch hn]
  exact foldl_absorb (·.property? name) (fun _ _ => property?_absorb)

theorem body_joinCopies : some (base.joinCopies copies).body =
    latestChange (some base.body) (copies.map (fun c => some c.body)) := by
  obtain ⟨d, hd⟩ := joinCopies_eq base copies
  rw [hd]
  exact foldl_absorb (fun m => some m.body) (fun _ _ => body_absorb)

theorem error_joinCopies : (base.joinCopies copies).error =
    latestChange base.error (copies.map (·.error)) := by
  obtain ⟨d, hd⟩ := joinCopies_eq base copies
  rw [hd]
  exact foldl_absorb (·.error) (fun _ _ => error_absorb)

theorem id_joinCopies : (base.joinCopies copies).id = base.id := by
  obtain ⟨d, hd⟩ := joinCopies_eq base copies
  rw [hd]
  exact foldl_absorb_const (·.id) (fun _ _ => rfl)

theorem createdAt_joinCopies : (base.joinCopies copies).createdAt = base.createdAt := by
  obtain ⟨d, hd⟩ := joinCopies_eq base copies
  rw [hd]
  exact foldl_absorb_const (·.createdAt) (fun _ _ => rfl)

/-- A copy as a traversal meets it: its entries in some order. -/
structure Listing where
  copy : Message
  headers : List (String × Json)
  properties : List (String × Json)
  headers_perm : headers.Perm copy.headers.toList
  properties_perm : properties.Perm copy.properties.toList

/-- The join that visits the entries of each copy in an order of its own. -/
def joinListings (base : Message) (listings : List Listing) : Message :=
  restoreChoiceMatch base
    (listings.foldl (fun target l => absorbListed base target l.copy l.headers l.properties) base)

theorem absorbListed_listing (l : Listing) :
    absorbListed base target l.copy l.headers l.properties = absorb base target l.copy := by
  have hh : base.headers.overlay l.headers target.headers =
      base.headers.overlay l.copy.headers.toList target.headers :=
    (Dict.overlay_perm l.headers_perm.symm l.copy.headers.nodup_keys).symm
  have hp : base.properties.overlay l.properties target.properties =
      base.properties.overlay l.copy.properties.toList target.properties :=
    (Dict.overlay_perm l.properties_perm.symm l.copy.properties.nodup_keys).symm
  simp only [absorb, absorbListed, hh, hp]

theorem joinListings_eq (base : Message) (listings : List Listing) :
    base.joinListings listings = base.joinCopies (listings.map Listing.copy) := by
  simp only [joinListings, joinCopies, List.foldl_map, absorbListed_listing]

/-- The join of copies, place by place: of every header, of every property but the choice match, of the
body and of the failure it holds what the last copy that changed them left. The choice match, the id and
the time of creation are those of the base, and no order of the entries makes a difference. -/
theorem joinCopies_latest (base : Message) (copies : List Message) :
    (∀ name, (base.joinCopies copies).header? name =
      latestChange (base.header? name) (copies.map (·.header? name))) ∧
    (∀ name, name ≠ choiceMatchKey → (base.joinCopies copies).property? name =
      latestChange (base.property? name) (copies.map (·.property? name))) ∧
    some (base.joinCopies copies).body =
      latestChange (some base.body) (copies.map (fun c => some c.body)) ∧
    (base.joinCopies copies).error = latestChange base.error (copies.map (·.error)) ∧
    (base.joinCopies copies).choiceMatch? = base.choiceMatch? ∧
    (base.joinCopies copies).id = base.id ∧
    (base.joinCopies copies).createdAt = base.createdAt ∧
    ∀ listings : List Listing, listings.map Listing.copy = copies →
      base.joinListings listings = base.joinCopies copies := by
  refine ⟨?headers, ?properties, ?body, ?error, ?choice, ?id, ?created, ?order⟩
  case headers =>
    intro name
    exact header?_joinCopies
  case properties =>
    intro name hn
    exact property?_joinCopies hn
  case body => exact body_joinCopies
  case error => exact error_joinCopies
  case choice => exact choiceMatch?_restoreChoiceMatch
  case id => exact id_joinCopies
  case created => exact createdAt_joinCopies
  case order =>
    rintro listings rfl
    exact joinListings_eq base listings

end Message
end MessageFlow
