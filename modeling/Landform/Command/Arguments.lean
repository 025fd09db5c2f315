import Landform.Command.Line
import Landform.Decimal.Read
import Landform.Graph.Template
import Landform.Terrain

/-!
# Arguments

What the user of the command line asks for: a command with its own arguments, and the options that
every command shares. `Arguments.parse` reads a command line. It fails on a mistake and stops at a
request for help, whichever comes first.
-/

namespace Landform

open Decimal

/-- What to do. -/
inductive Command where
  | validate (graph : String)
  | compile (graph : String) (output : Option String)
  | eval (graph : String) (point : Point)
  | sample (graph : String) (scale : Option Float) (resolution : Option Int)
  | template (name : String) (seed : Int) (output : Option String)
  | kinds

namespace Command

/-- A command with the shared options: a file of settings, overrides in order, and whether to report
more. -/
structure Arguments where
  config : Option String
  overrides : List String
  verbose : Bool
  command : Command

/-- Why there is nothing to do. -/
inductive Stop where
  | help
  | usage
deriving Repr, DecidableEq

/-! ## One command -/

/-- The options of the commands. -/
inductive Modifier where
  | help
  | output
  | scale
  | resolution
  | seed

/-- The spellings of the request for help. -/
def helpSpellings {α : Type} (help : α) : List (Spelling α) :=
  [⟨"-h", false, help⟩, ⟨"--help", false, help⟩]

/-- The spellings of the place for the output. -/
def outputSpellings : List (Spelling Modifier) :=
  [⟨"--output", true, .output⟩, ⟨"-o", true, .output⟩]

/-- The form of a command: its options, how many words follow it, and which words it takes at each
place. -/
structure Form where
  spellings : List (Spelling Modifier)
  words : Nat
  accepts : Nat → String → Bool

/-- The words and options that have been read. -/
structure Found where
  words : List String := []
  output : Option String := none
  scale : Option Float := none
  resolution : Option Int := none
  seed : Option Int := none
  surplus : Bool := false

/-- A value that is read from an argument. -/
def readOr {α : Type} : Option α → Except Stop α
  | some value => .ok value
  | none => .error .usage

/-- Adds an event to what has been read. -/
def Found.add (form : Form) (found : Found) : Event Modifier → Except Stop Found
  | .word text =>
    if form.accepts found.words.length text then .ok { found with words := found.words ++ [text] }
    else .error .usage
  | .command .. => .error .usage
  | .option .help _ => .error .help
  | .option .output value => .ok { found with output := some value }
  | .option .scale value => do return { found with scale := some (← readOr (readFloat? value)) }
  | .option .resolution value => do
    return { found with resolution := some (← readOr (readInt? value)) }
  | .option .seed value => do return { found with seed := some (← readOr (readInt? value)) }
  | .surplus => .ok { found with surplus := true }
  | .mistake => .error .usage

/-- What the arguments of a command say. All words must be there, and nothing else. -/
def Form.read (form : Form) (args : List String) : Except Stop Found := do
  let found ← (events (helpSpellings .help ++ form.spellings) (some form.words) args).foldlM
    (Found.add form) {}
  if found.words.length = form.words && !found.surplus then return found else throw .usage

/-- A form without further conditions on its words. -/
def plainForm (spellings : List (Spelling Modifier)) (words : Nat) : Form :=
  ⟨spellings, words, fun _ _ => true⟩

/-- The command of a name with its arguments. -/
def parse (name : String) (args : List String) : Except Stop Command :=
  match name with
  | "validate" => do
    let found ← (plainForm [] 1).read args
    return .validate (found.words.headD "")
  | "compile" => do
    let found ← (plainForm outputSpellings 1).read args
    return .compile (found.words.headD "") found.output
  | "eval" => do
    let form : Form := ⟨[], 4, fun place text => place = 0 || (readFloat? text).isSome⟩
    match (← form.read args).words with
    | [graph, x, y, z] =>
      return .eval graph ⟨← readOr (readFloat? x), ← readOr (readFloat? y), ← readOr (readFloat? z)⟩
    | _ => throw .usage
  | "sample" => do
    let found ← (plainForm [⟨"--scale", true, .scale⟩, ⟨"--resolution", true, .resolution⟩] 1).read
      args
    return .sample (found.words.headD "") found.scale found.resolution
  | "template" => do
    let form : Form :=
      ⟨⟨"--seed", true, .seed⟩ :: outputSpellings, 1, fun _ text => Template.names.contains text⟩
    let found ← form.read args
    return .template (found.words.headD "") (found.seed.getD 0) found.output
  | "kinds" => do
    let _ ← (plainForm [] 0).read args
    return .kinds
  | _ => throw .usage

/-! ## The whole line -/

/-- The options that all commands share. -/
inductive Shared where
  | help
  | config
  | override
  | verbose

/-- The spellings of the shared options. -/
def sharedSpellings : List (Spelling Shared) :=
  helpSpellings .help ++
    [⟨"--config", true, .config⟩, ⟨"--set", true, .override⟩, ⟨"-v", false, .verbose⟩,
      ⟨"--verbose", false, .verbose⟩]

/-- The shared options and the command that have been read. -/
structure Draft where
  config : Option String := none
  overrides : List String := []
  verbose : Bool := false
  command : Option Command := none
  surplus : Bool := false

/-- Adds an event to what has been read. -/
def Draft.add (draft : Draft) : Event Shared → Except Stop Draft
  | .word _ => .error .usage
  | .command name args => do return { draft with command := some (← parse name args) }
  | .option .help _ => .error .help
  | .option .config value => .ok { draft with config := some value }
  | .option .override value => .ok { draft with overrides := draft.overrides ++ [value] }
  | .option .verbose _ => .ok { draft with verbose := true }
  | .surplus => .ok { draft with surplus := true }
  | .mistake => .error .usage

/-- Reads a command line. -/
def Arguments.parse (args : List String) : Except Stop Arguments := do
  let draft ← (events sharedSpellings none args).foldlM Draft.add {}
  if draft.surplus then throw .usage
  return {
    config := draft.config
    overrides := draft.overrides
    verbose := draft.verbose
    command := ← readOr draft.command }

end Command

end Landform
