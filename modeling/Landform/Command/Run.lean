import Landform.Command.Arguments
import Landform.Graph.Config
import Landform.Script.Compile
import Landform.Settings.Load
import Landform.Voxel

/-!
# Running commands

A command reads files, prints and may write a file. `run` gives all of it as plain data: what was
printed, the files afterwards and the exit code. A cause of failure that the user can mend is
reported in one line; any other cause is the failure of the run itself.
-/

namespace Landform.Command

open Decimal

/-- What a command prints to and writes to. -/
structure Console where
  printed : String
  files : Files

/-- A step of a command. What it printed or wrote before it fails stays. -/
abbrev Action := EStateM Error Console

namespace Action

/-- Prints a text. -/
def print (text : String) : Action Unit :=
  modify fun c => { c with printed := c.printed ++ text }

/-- Prints a line. -/
def printLine (text : String) : Action Unit :=
  print (text ++ "\n")

/-- Prints messages under a label. -/
def printMessages (label : String) (messages : List String) : Action Unit :=
  messages.forM fun message => printLine s!"{label}: {message}"

/-- Goes on with a result. -/
def lift {α : Type} : Except Error α → Action α
  | .ok value => pure value
  | .error cause => throw cause

/-- Writes a text to a file and says so. -/
def save (path text : String) : Action Unit := do
  let c ← get
  let files ← lift (c.files.write path text)
  set ({ c with files := files } : Console)
  printLine s!"Saved: {path}"

/-- Writes a text to a file, or prints it if there is no path. -/
def deliver (output : Option String) (text : String) : Action Unit :=
  match output with
  | some path => if path == "" then print text else save path text
  | none => print text

/-- The graph of a file. -/
def openGraph (path : String) : Action Graph := do
  let config ← lift (Settings.openFile (← get).files path)
  lift (Graph.ofValue config 0)

/-- A setting of a section. -/
def setting (settings : Value) (part name : String) : Action Value :=
  lift (Settings.setting settings part name)

/-! ## Commands -/

/-- Reports whether a graph is valid. -/
def validate (path : String) : Action Nat := do
  let findings ← lift (← openGraph path).validate
  printMessages "error" findings.errorMessages
  printMessages "warning" findings.warningMessages
  printLine (if findings.isValid then "Graph is valid" else "Graph has errors")
  return if findings.isValid then 0 else 1

/-- Compiles a graph. Code that fails its check is delivered all the same. -/
def compile (settings : Value) (path : String) (output : Option String) : Action Nat := do
  let g ← openGraph path
  let waterLevel ← setting settings "compiler" "water_level"
  let header ← setting settings "compiler" "header"
  let compiled ← lift (Script.compile g ⟨waterLevel, header⟩)
  printMessages "warning" compiled.warnings
  printMessages "error" compiled.errors
  match compiled.code with
  | none => return 1
  | some code =>
    deliver output code
    return if compiled.isValid then 0 else 1

/-- The terrain of a graph by point; there is none under a limit that cannot be used. -/
def terrainUnder (g : Graph) (limit : Value) : Point → Option Terrain :=
  match DepthLimit.ofValue limit with
  | some limit =>
    let probe := g.probe
    probe.terrain limit
  | none => fun _ => none

/-- Prints the terrain at a point. -/
def eval (settings : Value) (path : String) (point : Point) : Action Nat := do
  let g ← openGraph path
  let limit ← setting settings "evaluator" "max_depth"
  match terrainUnder g limit point with
  | none =>
    printLine "none"
    return 1
  | some t =>
    printLine s!"{t.name} ({t.material.name}, {t.color})"
    return 0

/-- The lines about the colours of a grid, from an index of the palette on. -/
def colorLines (grid : Voxel.Grid) : Nat → List String → List String
  | _, [] => []
  | index, color :: rest =>
    let name := (grid.names.get? color).getD ""
    s!"  {color} {name}: {grid.countOf index}" :: colorLines grid (index + 1) rest

/-- Prints how many places of a grid hold terrain, by colour. -/
def sample (settings : Value) (path : String) (scale : Option Float) (resolution : Option Int) :
    Action Nat := do
  let g ← openGraph path
  let scale ← lift (Settings.settingOr settings "sampler" "scale" (scale.map .float))
  let resolution ← lift (Settings.settingOr settings "sampler" "resolution" (resolution.map .int))
  let solidOnly ← setting settings "sampler" "solid_only"
  let limit ← setting settings "evaluator" "max_depth"
  let options ← lift (Voxel.Options.ofValues scale resolution solidOnly)
  let grid ← lift (Voxel.sampleOf (terrainUnder g limit) options)
  printLine s!"{grid.filled} voxel(s) at resolution {grid.resolution}, step {general grid.step}"
  (colorLines grid 0 grid.palette).forM printLine
  return 0

/-- Delivers the graph of a template. -/
def template (name : String) (seed : Int) (output : Option String) : Action Nat := do
  let g ← lift (Template.build name seed)
  deliver output (Document.block g.toValue)
  return 0

/-- Prints the names of the node kinds. -/
def kinds : Action Nat := do
  Catalog.names.forM printLine
  return 0

/-- Carries out a command under some settings. -/
def perform (settings : Value) : Command → Action Nat
  | .validate graph => validate graph
  | .compile graph output => compile settings graph output
  | .eval graph point => eval settings graph point
  | .sample graph scale resolution => sample settings graph scale resolution
  | .template name seed output => template name seed output
  | .kinds => kinds

end Action

/-! ## Runs -/

/-- What a run leaves: the exit code, what it printed and reported, and the files. The output of a
run that stops at its arguments is not given. -/
structure Report where
  exit : Nat
  stopped : Bool
  output : String
  errors : String
  files : Files

/-- Whether a cause is reported to the user. -/
def isReported (cause : Error) : Bool :=
  match cause.family with
  | .badValue | .missingKey | .missingFile | .badFile => true
  | _ => false

/-- The settings of a command line. The level of the log must be set unless more is reported
anyway. -/
def Arguments.settings (a : Arguments) (files : Files) : Except Error Value := do
  let settings ← Settings.load files (a.config.map .file) a.overrides
  if !a.verbose then
    let _ ← Settings.setting settings "logging" "level"
  return settings

/-- Carries out what a command line asks for. -/
def Arguments.run (a : Arguments) (files : Files) : Except Error Report := do
  let settings ← a.settings files
  match (Action.perform settings a.command).run ⟨"", files⟩ with
  | .ok exit console => return ⟨exit, false, console.printed, "", console.files⟩
  | .error cause console =>
    if isReported cause then
      return ⟨1, false, console.printed, s!"error: {cause.report}\n", console.files⟩
    else throw cause

/-- Runs a command line over some files. -/
def run (args : List String) (files : Files) : Except Error Report :=
  match Arguments.parse args with
  | .ok arguments => arguments.run files
  | .error .help => .ok ⟨0, true, "", "", files⟩
  | .error .usage => .ok ⟨2, true, "", "", files⟩

end Landform.Command
