import Landform.Files
import Landform.Settings.Override

/-!
# Settings in layers

Settings come in layers: the built-in defaults at the bottom, then a chain of files of which each
may name the file that it is based on, and overrides on top. The base of a file is looked up from
the directory of that file, and the field that names it is not part of the settings.
-/

namespace Landform.Settings

/-- The built-in settings. -/
def defaults : Value :=
  .object [
    ("evaluator", .object [("max_depth", .int 100)]),
    ("compiler", .object [("water_level", .int 0), ("header", .text "-- Luamap generated terrain")]),
    ("sampler", .object [("scale", .float 100), ("resolution", .int 16), ("solid_only", .bool true)]),
    ("logging", .object [("level", .text "WARNING")])]

/-- The field that names the base of a layer. -/
def baseName : String := "_base_"

/-- The path that a value gives. -/
def pathOf : Value → Except Error String
  | .text path => .ok path
  | .list _ => .error (.notAPath "ListConfig")
  | .object _ => .error (.notAPath "DictConfig")
  | value => .error (.notAPath value.typeName)

/-- An object without a field. -/
def without (name : String) : Value → Value
  | .object fields => .object (Table.erase fields name)
  | value => value

/-- A layer laid over the chain of its bases. `open?` gives the data of a file, and the first number
bounds the length of the chain. -/
def withBases (open? : String → Except Error Value) : Nat → String → Value → Except Error Value
  | 0, _, _ => .error .endlessChain
  | length + 1, directory, layer =>
    match layer.field? baseName with
    | none => .ok layer
    | some base => do
      let path := Path.within directory (← pathOf base)
      let below ← withBases open? length (Path.directory path) (← open? path)
      return without baseName (← mergeValue below layer)

/-- The data of a file. -/
def openFile (files : Files) (path : String) : Except Error Value := do
  Document.ofText (← files.read path)

/-- The topmost layer of a chain: a file, or data as if it were a file where everything starts. -/
inductive Source where
  | file (path : String)
  | data (layer : Value)

/-- The settings of a source with its bases. A chain that does not come back to one of its files has
at most as many layers as there are files, besides the data it may start with. -/
def chain (files : Files) : Source → Except Error Value
  | .file path => do
    withBases (openFile files) (files.texts.length + 1) (Path.directory path)
      (← openFile files path)
  | .data layer => withBases (openFile files) (files.texts.length + 1) "" layer

/-- The settings of a source, if any, and of overrides over the defaults. -/
def load (files : Files) (source : Option Source) (overrides : List String) :
    Except Error Value := do
  let chosen ← match source with
    | none => .ok defaults
    | some source => mergeValue defaults (← chain files source)
  if overrides.isEmpty then return chosen
  else mergeValue chosen (← ofOverrides overrides)

/-- A setting of a section. -/
def setting (settings : Value) (part name : String) : Except Error Value :=
  match (settings.field? part).bind (·.field? name) with
  | some value => .ok value
  | none => .error .missingPart

/-- A setting of a section, unless a value is given in its place. -/
def settingOr (settings : Value) (part name : String) : Option Value → Except Error Value
  | some value => .ok value
  | none => setting settings part name

end Landform.Settings
