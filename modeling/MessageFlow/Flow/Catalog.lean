import MessageFlow.Flow.Definition

/-!
Catalogs of components by name.
-/

namespace MessageFlow

/-- Where components are looked up by name. -/
abbrev ComponentLookup := String → Option Component

/-- Components by their names. -/
structure Catalog where
  components : Dict Component := .empty

namespace Catalog

/-- Add a component, in place of one of the same name. -/
def register (c : Catalog) (x : Component) : Catalog := ⟨c.components.insert x.name x⟩

def ofList (xs : List Component) : Catalog := xs.foldl register {}

def lookup (c : Catalog) : ComponentLookup := c.components.get?
def size (c : Catalog) : Nat := c.components.size
def isEmpty (c : Catalog) : Bool := c.components.isEmpty

end Catalog

def FlowDocument.catalog (d : FlowDocument) : Catalog := .ofList d.components

end MessageFlow
