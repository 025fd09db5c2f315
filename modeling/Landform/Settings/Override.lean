import Landform.Document.Block
import Landform.Settings.Merge
import Landform.Text.Runs

/-!
# Overrides

An override sets one value: the names on the way to it between dots, an equals sign, and the value
as it would stand in a document. Without an equals sign the value is null. Several overrides make
one layer; later ones win.
-/

namespace Landform.Settings

/-- The two sides of the first equals sign. -/
def sides (override : String) : String × Option String :=
  let text := override.toList
  match text.dropWhile (· != '=') with
  | [] => (override, none)
  | _ :: value => (String.ofList (text.takeWhile (· != '=')), some (String.ofList value))

/-- Sets the value at the end of a way of names. Whatever on the way is no object gives way to one,
and the value is laid over what is at its place. -/
def assign (value : Value) : List String → Fields → Except Error Fields
  | [], fields => .ok fields
  | [name], fields => mergeFields fields [(name, value)]
  | name :: rest, fields => do
    let inner := match Table.get? fields name with
      | some (.object inner) => inner
      | _ => []
    return Table.put fields name (.object (← assign value rest inner))

/-- Adds an override to a layer. -/
def applyOverride (fields : Fields) (override : String) : Except Error Fields := do
  let (way, text) := sides override
  let value ← match text with
    | none => .ok .null
    | some text => match Document.read? text with
      | some value => .ok value
      | none => .error .unreadable
  assign value (Text.split '.' way) fields

/-- The layer of a list of overrides. -/
def ofOverrides (overrides : List String) : Except Error Value := do
  return .object (← overrides.foldlM applyOverride [])

end Landform.Settings
