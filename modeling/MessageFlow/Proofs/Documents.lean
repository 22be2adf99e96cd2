import MessageFlow.Flow.Document
import MessageFlow.Proofs.Spelling

/-!
Flow documents in all their spellings. Whoever writes a document may choose between the names of a field, leave out
what is at its default, order fields as they like and add fields of their own; the document that is read is the same.
-/

namespace MessageFlow

/-! The fields of a document: their names, the names they may be given under, and the written form of defaults -/

def WhenClause.formats : List FieldFormat := [
  { name := "label", spelling := .free },
  { name := "expression", aliases := ["predicate"], spelling := .free },
  { name := "language", default := some .null, spelling := .free }]

def Node.formats : List FieldFormat := [
  { name := "id", spelling := .free },
  { name := "kind", default := some (.string "step"), spelling := .free },
  { name := "component_name", aliases := ["componentName", "component"], default := some (.string ""),
    spelling := .free },
  { name := "parameters", default := some (.object []), spelling := .free },
  { name := "when_clauses", aliases := ["whenClauses"], default := some (.array []),
    spelling := .items (.record WhenClause.formats) },
  { name := "otherwise_label", aliases := ["otherwiseLabel"], default := some .null, spelling := .free }]

def Edge.formats : List FieldFormat := [
  { name := "source", spelling := .free },
  { name := "target", spelling := .free },
  { name := "branch_label", aliases := ["branchLabel", "sourceHandle"], default := some .null, spelling := .free }]

def FlowDefinition.formats : List FieldFormat := [
  { name := "id", spelling := .free },
  { name := "name", default := some .null, spelling := .free },
  { name := "nodes", default := some (.array []), spelling := .items (.record Node.formats) },
  { name := "edges", default := some (.array []), spelling := .items (.record Edge.formats) }]

def Component.formats : List FieldFormat := [
  { name := "name", spelling := .free },
  { name := "binding", spelling := .free }]

def FlowDocument.formats : List FieldFormat := [
  { name := "flow", spelling := .record FlowDefinition.formats },
  { name := "components", default := some (.array []), spelling := .items (.record Component.formats) }]

/-- A value that spells the document: its written form, up to the order and names of fields, fields that are left out
at their default, and fields of others. -/
def FlowDocument.SpelledBy (d : FlowDocument) (v : Json) : Prop :=
  Spelling.record FlowDocument.formats d.toJson v

/-- The values of all parameters stand as readers build them. -/
def FlowDocument.InOrder (d : FlowDocument) : Prop := ∀ n ∈ d.flow.nodes, n.parameters.InOrder

/-! The written form -/

theorem spelled_items {α : Type} {spelling : Spelling} {write : α → Json} (h : ∀ x, spelling (write x) (write x))
    (xs : List α) : Spelling.items spelling (.array (xs.map write)) (.array (xs.map write)) := by
  refine ⟨_, _, rfl, rfl, List.forall₂_same.2 ?_⟩
  intro w hw
  obtain ⟨x, -, rfl⟩ := List.mem_map.1 hw
  exact h x

theorem WhenClause.spelled_toJson (c : WhenClause) : Spelling.record WhenClause.formats c.toJson c.toJson :=
  ⟨_, _, rfl, rfl, .cons ⟨rfl, .given rfl⟩ <| .cons ⟨rfl, .given rfl⟩ <| .cons ⟨rfl, .given rfl⟩ .nil⟩

theorem Node.spelled_toJson (n : Node) : Spelling.record Node.formats n.toJson n.toJson := by
  have hclauses := spelled_items WhenClause.spelled_toJson n.whenClauses
  exact ⟨_, _, rfl, rfl, .cons ⟨rfl, .given rfl⟩ <| .cons ⟨rfl, .given rfl⟩ <| .cons ⟨rfl, .given rfl⟩ <|
    .cons ⟨rfl, .given rfl⟩ <| .cons ⟨rfl, .given hclauses⟩ <| .cons ⟨rfl, .given rfl⟩ .nil⟩

theorem Edge.spelled_toJson (e : Edge) : Spelling.record Edge.formats e.toJson e.toJson :=
  ⟨_, _, rfl, rfl, .cons ⟨rfl, .given rfl⟩ <| .cons ⟨rfl, .given rfl⟩ <| .cons ⟨rfl, .given rfl⟩ .nil⟩

theorem FlowDefinition.spelled_toJson (f : FlowDefinition) :
    Spelling.record FlowDefinition.formats f.toJson f.toJson := by
  have hnodes := spelled_items Node.spelled_toJson f.nodes
  have hedges := spelled_items Edge.spelled_toJson f.edges
  exact ⟨_, _, rfl, rfl, .cons ⟨rfl, .given rfl⟩ <| .cons ⟨rfl, .given rfl⟩ <| .cons ⟨rfl, .given hnodes⟩ <|
    .cons ⟨rfl, .given hedges⟩ .nil⟩

theorem Component.spelled_toJson (c : Component) : Spelling.record Component.formats c.toJson c.toJson :=
  ⟨_, _, rfl, rfl, .cons ⟨rfl, .given rfl⟩ <| .cons ⟨rfl, .given rfl⟩ .nil⟩

/-- A document is spelled by what it is written as. -/
theorem FlowDocument.spelledBy_toJson (d : FlowDocument) : d.SpelledBy d.toJson := by
  have hcomponents := spelled_items Component.spelled_toJson d.components
  exact ⟨_, _, rfl, rfl, .cons ⟨rfl, .given d.flow.spelled_toJson⟩ <| .cons ⟨rfl, .given hcomponents⟩ .nil⟩

/-! Reading what spells a part of a document -/

section Reading
open DocumentNode Spelling

theorem reads_kind (k : NodeKind) : Spelling.free.Reads NodeKind.read? (.string k.name) k := by
  intro v depth hv _
  obtain rfl := eq_string_of_free hv
  cases k <;> rfl

theorem none_eq_of_written {s : Option String} (h : some Json.null = some (optionalJson s)) : none = s := by
  cases s with
  | none => rfl
  | some s => cases h

theorem nil_eq_of_written {α : Type} {write : α → Json} {xs : List α}
    (h : some (Json.array []) = some (.array (xs.map write))) : [] = xs := by
  cases xs with
  | nil => rfl
  | cons x rest => cases h

theorem empty_eq_of_written {d : Dict Json} (h : some (Json.object []) = some (.ofDict d)) : Dict.empty = d :=
  Dict.ext (Json.object.inj (Option.some.inj h))

theorem step_eq_of_written {k : NodeKind} (h : some (Json.string "step") = some (.string k.name)) : .step = k := by
  cases k <;> first | rfl | exact absurd (Json.string.inj (Option.some.inj h)) (by decide)

theorem empty_text_eq_of_written {s : String} (h : some (Json.string "") = some (.string s)) : "" = s :=
  Json.string.inj (Option.some.inj h)

theorem WhenClause.reads (c : WhenClause) :
    (Spelling.record WhenClause.formats).Reads WhenClause.read? c.toJson c := by
  intro v depth hv hheight
  obtain ⟨r, hr, hfound⟩ := exists_record (by decide) hv hheight
  have hrecord : record? WhenClause.fields (v.place depth) = some r := hr
  simp only [WhenClause.formats, List.forall₂_cons] at hfound
  obtain ⟨hlabel, hexpression, hlanguage, -⟩ := hfound
  have hlabel : required? text? "label" r = some c.label := hlabel.required (reads_text _) rfl
  have hexpression : required? text? "expression" r = some c.expression := hexpression.required (reads_text _) rfl
  have hlanguage : defaulted? optionalText? none "language" r = some c.language :=
    hlanguage.defaulted (reads_optionalText _) none_eq_of_written
  simp [WhenClause.read?, hrecord, hlabel, hexpression, hlanguage]

theorem Node.reads (n : Node) (horder : n.parameters.InOrder) :
    (Spelling.record Node.formats).Reads Node.read? n.toJson n := by
  intro v depth hv hheight
  obtain ⟨r, hr, hfound⟩ := exists_record (by decide) hv hheight
  have hrecord : record? Node.fields (v.place depth) = some r := hr
  simp only [Node.formats, List.forall₂_cons] at hfound
  obtain ⟨hid, hkind, hcomponent, hparameters, hclauses, hotherwise, -⟩ := hfound
  have hid : required? text? "id" r = some n.id := hid.required (reads_text _) rfl
  have hkind : defaulted? NodeKind.read? .step "kind" r = some n.kind :=
    hkind.defaulted (reads_kind _) step_eq_of_written
  have hcomponent : defaulted? text? "" "component_name" r = some n.component :=
    hcomponent.defaulted (reads_text _) empty_text_eq_of_written
  have hparameters : defaulted? values? .empty "parameters" r = some n.parameters :=
    hparameters.defaulted (reads_values horder) empty_eq_of_written
  have hclauses : defaulted? (list? WhenClause.read?) [] "when_clauses" r = some n.whenClauses :=
    hclauses.defaulted (reads_items (fun c _ => c.reads)) nil_eq_of_written
  have hotherwise : defaulted? optionalText? none "otherwise_label" r = some n.otherwiseLabel :=
    hotherwise.defaulted (reads_optionalText _) none_eq_of_written
  simp [Node.read?, hrecord, hid, hkind, hcomponent, hparameters, hclauses, hotherwise]

theorem Edge.reads (e : Edge) : (Spelling.record Edge.formats).Reads Edge.read? e.toJson e := by
  intro v depth hv hheight
  obtain ⟨r, hr, hfound⟩ := exists_record (by decide) hv hheight
  have hrecord : record? Edge.fields (v.place depth) = some r := hr
  simp only [Edge.formats, List.forall₂_cons] at hfound
  obtain ⟨hsource, htarget, hlabel, -⟩ := hfound
  have hsource : required? text? "source" r = some e.source := hsource.required (reads_text _) rfl
  have htarget : required? text? "target" r = some e.target := htarget.required (reads_text _) rfl
  have hlabel : defaulted? optionalText? none "branch_label" r = some e.label :=
    hlabel.defaulted (reads_optionalText _) none_eq_of_written
  simp [Edge.read?, hrecord, hsource, htarget, hlabel]

theorem FlowDefinition.reads (f : FlowDefinition) (horder : ∀ n ∈ f.nodes, n.parameters.InOrder) :
    (Spelling.record FlowDefinition.formats).Reads FlowDefinition.read? f.toJson f := by
  intro v depth hv hheight
  obtain ⟨r, hr, hfound⟩ := exists_record (by decide) hv hheight
  have hrecord : record? FlowDefinition.fields (v.place depth) = some r := hr
  simp only [FlowDefinition.formats, List.forall₂_cons] at hfound
  obtain ⟨hid, hname, hnodes, hedges, -⟩ := hfound
  have hid : required? text? "id" r = some f.id := hid.required (reads_text _) rfl
  have hname : defaulted? optionalText? none "name" r = some f.name :=
    hname.defaulted (reads_optionalText _) none_eq_of_written
  have hnodes : defaulted? (list? Node.read?) [] "nodes" r = some f.nodes :=
    hnodes.defaulted (reads_items (fun n hn => n.reads (horder n hn))) nil_eq_of_written
  have hedges : defaulted? (list? Edge.read?) [] "edges" r = some f.edges :=
    hedges.defaulted (reads_items (fun e _ => e.reads)) nil_eq_of_written
  simp [FlowDefinition.read?, hrecord, hid, hname, hnodes, hedges]

theorem Component.reads (c : Component) :
    (Spelling.record Component.formats).Reads Component.read? c.toJson c := by
  intro v depth hv hheight
  obtain ⟨r, hr, hfound⟩ := exists_record (by decide) hv hheight
  have hrecord : record? Component.fields (v.place depth) = some r := hr
  simp only [Component.formats, List.forall₂_cons] at hfound
  obtain ⟨hname, hbinding, -⟩ := hfound
  have hname : required? text? "name" r = some c.name := hname.required (reads_text _) rfl
  have hbinding : required? text? "binding" r = some c.binding := hbinding.required (reads_text _) rfl
  simp [Component.read?, hrecord, hname, hbinding]

theorem FlowDocument.reads (d : FlowDocument) (horder : d.InOrder) :
    (Spelling.record FlowDocument.formats).Reads FlowDocument.read? d.toJson d := by
  intro v depth hv hheight
  obtain ⟨r, hr, hfound⟩ := exists_record (by decide) hv hheight
  have hrecord : record? FlowDocument.fields (v.place depth) = some r := hr
  simp only [FlowDocument.formats, List.forall₂_cons] at hfound
  obtain ⟨hflow, hcomponents, -⟩ := hfound
  have hflow : required? FlowDefinition.read? "flow" r = some d.flow := hflow.required (d.flow.reads horder) rfl
  have hcomponents : defaulted? (list? Component.read?) [] "components" r = some d.components :=
    hcomponents.defaulted (reads_items (fun c _ => c.reads)) nil_eq_of_written
  simp [FlowDocument.read?, hrecord, hflow, hcomponents]

/-! Documents that were read -/

theorem Node.inOrder_of_read? {p : Json.Place} {n : Node} (h : Node.read? p = some n) : n.parameters.InOrder := by
  simp only [Node.read?, Option.bind_eq_bind, Option.bind_eq_some_iff] at h
  obtain ⟨r, -, _, -, _, -, _, -, parameters, hparameters, _, -, _, -, h⟩ := h
  cases h
  show parameters.InOrder
  rw [defaulted?] at hparameters
  split at hparameters
  · exact inOrder_of_values? hparameters
  · cases hparameters
    exact nofun

theorem FlowDefinition.inOrder_of_read? {p : Json.Place} {f : FlowDefinition} (h : FlowDefinition.read? p = some f) :
    ∀ n ∈ f.nodes, n.parameters.InOrder := by
  simp only [FlowDefinition.read?, Option.bind_eq_bind, Option.bind_eq_some_iff] at h
  obtain ⟨r, -, _, -, _, -, nodes, hnodes, _, -, h⟩ := h
  cases h
  show ∀ n ∈ nodes, n.parameters.InOrder
  rw [defaulted?] at hnodes
  split at hnodes
  · intro n hn
    obtain ⟨places, -, hnodes⟩ := Option.bind_eq_some_iff.1 hnodes
    obtain ⟨place, -, hplace⟩ := exists_of_mem_mapM hnodes hn
    exact Node.inOrder_of_read? hplace
  · cases hnodes
    exact nofun

/-- In every document that was read, parameters are in order. -/
theorem FlowDocument.inOrder_of_read? {p : Json.Place} {d : FlowDocument} (h : FlowDocument.read? p = some d) :
    d.InOrder := by
  simp only [FlowDocument.read?, Option.bind_eq_bind, Option.bind_eq_some_iff] at h
  obtain ⟨r, -, f, hf, _, -, h⟩ := h
  cases h
  obtain ⟨place, -, hplace⟩ := Option.bind_eq_some_iff.1 hf
  exact FlowDefinition.inOrder_of_read? hplace

end Reading

/-- Whatever spells a document is read as that document: as a value, unless the allowed nesting is too little for it,
and as text. -/
theorem FlowDocument.read?_spelling {d : FlowDocument} {v : Json} (horder : d.InOrder) (hv : d.SpelledBy v) :
    (∀ depth, v.height < depth → FlowDocument.read? (v.place depth) = some d) ∧
    ∀ text, Json.Tree.read? text = some v.tree → v.height < Json.Tree.depthLimit →
      FlowDocument.parse .json text = .ok d := by
  constructor
  · exact fun depth => d.reads horder v depth hv
  · intro text htext hheight
    have hread : FlowDocument.read? (Json.Place.root v.tree) = some d := d.reads horder v _ hv hheight
    simp [FlowDocument.parse, htext, hread]

namespace Letters

/-- Letters that are not too heavy go by express. -/
def document : FlowDocument where
  flow := {
    id := "letters"
    nodes := [
      .entry "inbox" "timer",
      ((Node.choice "sort").when "express" "weight < 5").otherwise "other",
      (Node.step "store" "log").withParameter "limits" (.object [("high", .nat 9), ("low", .nat 1)])]
    edges := [⟨"inbox", "sort", none⟩, ⟨"sort", "store", some "other"⟩] }
  components := [⟨"log", "log:out"⟩]

/-- The nodes from an editor that orders fields in its own way, gives them other names, leaves out what it can, and
adds where it draws the nodes. -/
def editedNodes : List Json := [
  .object [("kind", .string "entry"), ("component", .string "timer"), ("x", .nat 40), ("id", .string "inbox")],
  .object [("id", .string "sort"), ("kind", .string "choice"), ("otherwiseLabel", .string "other"),
    ("whenClauses", .array [.object [("predicate", .string "weight < 5"), ("label", .string "express")]])],
  .object [("parameters", .object [("limits", .object [("low", .nat 1), ("high", .nat 9)])]),
    ("componentName", .string "log"), ("id", .string "store")]]

def editedEdges : List Json := [
  .object [("target", .string "sort"), ("source", .string "inbox")],
  .object [("source", .string "sort"), ("sourceHandle", .string "other"), ("target", .string "store")]]

def edited : Json := .object [
  ("version", .nat 2),
  ("components", .array [.object [("binding", .string "log:out"), ("name", .string "log")]]),
  ("flow", .object [("edges", .array editedEdges), ("nodes", .array editedNodes), ("id", .string "letters")])]

theorem inOrder_document : document.InOrder := by
  intro n hn p hp
  rcases hn with _ | ⟨_, _ | ⟨_, _ | ⟨_, h⟩⟩⟩
  · cases hp
  · cases hp
  · rcases hp with _ | ⟨_, h⟩
    · rfl
    · cases h
  · cases h

theorem spelled_nodes :
    List.Forall₂ (Spelling.record Node.formats) (document.flow.nodes.map Node.toJson) editedNodes := by
  refine .cons ⟨_, _, rfl, rfl, ?_⟩ (.cons ⟨_, _, rfl, rfl, ?_⟩ (.cons ⟨_, _, rfl, rfl, ?_⟩ .nil))
  · exact .cons ⟨rfl, .given rfl⟩ <| .cons ⟨rfl, .given rfl⟩ <| .cons ⟨rfl, .given rfl⟩ <|
      .cons ⟨rfl, .leftOut rfl⟩ <| .cons ⟨rfl, .leftOut rfl⟩ <| .cons ⟨rfl, .leftOut rfl⟩ .nil
  · have hclauses : Spelling.items (.record WhenClause.formats)
        (.array [WhenClause.toJson ⟨"express", "weight < 5", none⟩])
        (.array [.object [("predicate", .string "weight < 5"), ("label", .string "express")]]) :=
      ⟨_, _, rfl, rfl, .cons ⟨_, _, rfl, rfl, .cons ⟨rfl, .given rfl⟩ <| .cons ⟨rfl, .given rfl⟩ <|
        .cons ⟨rfl, .leftOut rfl⟩ .nil⟩ .nil⟩
    exact .cons ⟨rfl, .given rfl⟩ <| .cons ⟨rfl, .given rfl⟩ <| .cons ⟨rfl, .leftOut rfl⟩ <|
      .cons ⟨rfl, .leftOut rfl⟩ <| .cons ⟨rfl, .given hclauses⟩ <| .cons ⟨rfl, .given rfl⟩ .nil
  · exact .cons ⟨rfl, .given rfl⟩ <| .cons ⟨rfl, .leftOut rfl⟩ <| .cons ⟨rfl, .given rfl⟩ <|
      .cons ⟨rfl, .given rfl⟩ <| .cons ⟨rfl, .leftOut rfl⟩ <| .cons ⟨rfl, .leftOut rfl⟩ .nil

theorem spelled_edges :
    List.Forall₂ (Spelling.record Edge.formats) (document.flow.edges.map Edge.toJson) editedEdges := by
  refine .cons ⟨_, _, rfl, rfl, ?_⟩ (.cons ⟨_, _, rfl, rfl, ?_⟩ .nil)
  · exact .cons ⟨rfl, .given rfl⟩ <| .cons ⟨rfl, .given rfl⟩ <| .cons ⟨rfl, .leftOut rfl⟩ .nil
  · exact .cons ⟨rfl, .given rfl⟩ <| .cons ⟨rfl, .given rfl⟩ <| .cons ⟨rfl, .given rfl⟩ .nil

theorem spelledBy_edited : document.SpelledBy edited := by
  have hflow : Spelling.record FlowDefinition.formats document.flow.toJson
      (.object [("edges", .array editedEdges), ("nodes", .array editedNodes), ("id", .string "letters")]) :=
    ⟨_, _, rfl, rfl, .cons ⟨rfl, .given rfl⟩ <| .cons ⟨rfl, .leftOut rfl⟩ <|
      .cons ⟨rfl, .given ⟨_, _, rfl, rfl, spelled_nodes⟩⟩ <|
      .cons ⟨rfl, .given ⟨_, _, rfl, rfl, spelled_edges⟩⟩ .nil⟩
  have hcomponents : Spelling.items (.record Component.formats) (.array (document.components.map Component.toJson))
      (.array [.object [("binding", .string "log:out"), ("name", .string "log")]]) :=
    ⟨_, _, rfl, rfl, .cons ⟨_, _, rfl, rfl, .cons ⟨rfl, .given rfl⟩ <| .cons ⟨rfl, .given rfl⟩ .nil⟩ .nil⟩
  exact ⟨_, _, rfl, rfl, .cons ⟨rfl, .given hflow⟩ <| .cons ⟨rfl, .given hcomponents⟩ .nil⟩

end Letters

theorem FlowDocument.read?_spelling_letters : Letters.document.InOrder ∧ Letters.document.SpelledBy Letters.edited ∧
    FlowDocument.read? (Letters.edited.place Json.Tree.depthLimit) = some Letters.document :=
  ⟨Letters.inOrder_document, Letters.spelledBy_edited,
    (FlowDocument.read?_spelling Letters.inOrder_document Letters.spelledBy_edited).1 _ (by decide)⟩

end MessageFlow
