import Landform.Error
import Landform.Table
import Landform.Text.Blank
import Landform.Text.Closest

/-!
# Registries

A registry maps names to entries. Looking an entry up makes an instance of it once and keeps it
until the name is registered anew; a serial number tells instances of one entry apart. Names lose
the blanks around them when they are registered, not when they are looked up. A look-up that fails
names the closest names and all names.
-/

namespace Landform

open Text

/-- An instance of an entry, with the name of the entry and the number of instances made before. -/
structure Instance (α : Type) where
  name : String
  entry : α
  serial : Nat
deriving Repr, DecidableEq

/-- A table of entries, the instances that are kept, and the number of instances made so far. -/
structure Registry (α : Type) where
  entries : Table α
  instances : Table (Instance α)
  made : Nat

namespace Registry

variable {α : Type}

def empty : Registry α := ⟨[], [], 0⟩

/-- The registry of a table, before any look-up. -/
def ofTable (entries : Table α) : Registry α := ⟨entries, [], 0⟩

/-- Registers an entry. The instance made from an earlier entry of the name is dropped. -/
def register (r : Registry α) (name : String) (entry : α) : Except Error (Registry α) :=
  let name := trim name
  if name == "" then .error .blankKind
  else .ok { r with entries := r.entries.put name entry, instances := r.instances.erase name }

/-- The registered names, sorted by code point. -/
def names (r : Registry α) : List String :=
  r.entries.names.mergeSort

def contains (r : Registry α) (name : String) : Bool :=
  (r.entries.get? name).isSome

/-- The failure to find a name. -/
def unknown (r : Registry α) (name : String) : Error :=
  .unknownKind name (closest name r.entries.names) r.names

/-- The instance of a name, and the registry that keeps it. -/
def get (r : Registry α) (name : String) : Except Error (Instance α × Registry α) :=
  match r.instances.get? name with
  | some kept => .ok (kept, r)
  | none =>
    match r.entries.get? name with
    | some entry =>
      let fresh : Instance α := ⟨name, entry, r.made⟩
      .ok (fresh, { r with instances := r.instances.put name fresh, made := r.made + 1 })
    | none => .error (r.unknown name)

end Registry

end Landform
