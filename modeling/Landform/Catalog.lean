import Landform.Kind
import Landform.Registry

/-!
# The catalog of node kinds

The registry of all node kinds under their names, and the look-up of a kind by name.
-/

namespace Landform.Catalog

/-- The registry that holds every kind under its name. -/
def kinds : Registry Kind :=
  .ofTable (Kind.all.map fun k => (k.name, k))

/-- The names of all kinds, sorted by code point. -/
def names : List String :=
  kinds.names

/-- The kind of a name. -/
def find (name : String) : Except Error Kind :=
  (kinds.get name).map (·.1.entry)

end Landform.Catalog
