/-!
# Ordered tables

A table is a list of named values, in the order in which the names came. `put` replaces a value in
place or appends it; `get?` finds the value of a name.
-/

namespace Landform

/-- Named values in order. -/
abbrev Table (α : Type) := List (String × α)

namespace Table

variable {α : Type}

/-- The value under a name. -/
def get? (table : Table α) (name : String) : Option α :=
  (table.find? (·.1 == name)).map (·.2)

/-- Sets the value under a name: in place if there is one, at the end otherwise. -/
def put : Table α → String → α → Table α
  | [], name, value => [(name, value)]
  | (key, old) :: rest, name, value =>
    if key == name then (key, value) :: rest else (key, old) :: put rest name value

/-- Sets each value of a second table in turn. -/
def putAll (table updates : Table α) : Table α :=
  updates.foldl (fun table update => put table update.1 update.2) table

/-- The table without a name. -/
def erase (table : Table α) (name : String) : Table α :=
  table.filter (·.1 != name)

/-- The names, in order. -/
def names (table : Table α) : List String :=
  table.map (·.1)

end Table

end Landform
