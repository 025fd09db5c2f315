import Landform.Error
import Landform.Value

/-!
# Merging layers

A layer of settings is laid over another. Objects are merged field by field; anything else in the
upper layer replaces what is below it. A list and an object at one place do not fit together.
-/

namespace Landform.Settings

mutual

/-- A value laid over another. -/
def mergeValue (below : Value) : Value → Except Error Value
  | .object fields => match below with
    | .object base => (mergeFields base fields).map .object
    | .list _ => .error .mixedShapes
    | _ => .ok (.object fields)
  | .list items => match below with
    | .object _ => .error .mixedShapes
    | _ => .ok (.list items)
  | value => .ok value

/-- Fields laid over others: a field that is there already keeps its place, the others follow. -/
def mergeFields (below : Fields) : List (String × Value) → Except Error Fields
  | [] => .ok below
  | (name, value) :: rest => do
    let merged ← match Table.get? below name with
      | some old => mergeValue old value
      | none => .ok value
    mergeFields (Table.put below name merged) rest

end

/-- Layers from the lowest to the highest, one laid over the other. -/
def mergeAll : List Value → Except Error Value
  | [] => .ok (.object [])
  | lowest :: others => others.foldlM mergeValue lowest

end Landform.Settings
