import Landform.Lua.Balance
import Landform.Lua.Helper
import Landform.Script.Emit
import Landform.Script.Locals
import Landform.Validation

/-!
# Scripts

A script is what a graph compiles to: the registrations of its noise fields, the locals of its
contents, the helpers its nodes call, and the body that decides the content of a place. With a
comparison anywhere in the graph the body is the decision of the node behind the terrain output;
without one it is a height below which everything is stone.
-/

namespace Landform

open Lua Decimal

namespace Script

/-! ## The parts of a script -/

/-- The registration of the noise field of a node; a field in space has a third spread. -/
structure Registration where
  node : Int
  settings : Noise.Settings Float
  spreadZ : Option Float

/-- The body of a script. -/
inductive Body where
  /-- Leaves the content as it is. -/
  | keep
  | decide (decision : Decision)
  /-- Puts stone, held by a local, below a height. -/
  | height (level : Expr) (stone : String)

end Script

/-- A script. Each content is a local and the name it stands for. -/
structure Script where
  header : String
  registrations : List Script.Registration
  contents : List (String × String)
  helpers : List Helper
  waterLevel : String
  body : Script.Body

namespace Script

/-! ## Text -/

/-- An indented line. -/
def indented (depth : Nat) (line : String) : String :=
  String.join (List.replicate depth step) ++ line

/-- The lines of a registration. -/
def Registration.lines (r : Registration) : List String :=
  let s := r.settings
  let plane := "x=" ++ number s.spreadX ++ ", y=" ++ number s.spreadY
  let spread := match r.spreadZ with
    | some z => plane ++ ", z=" ++ number z
    | none => plane
  let dimension := if r.spreadZ.isSome then "3d" else "2d"
  ["luamap.register_noise(\"" ++ noiseName r.node ++ "\", \x7b",
    indented 1 ("type = \"" ++ dimension ++ "\","),
    indented 1 "np_vals = \x7b",
    indented 2 ("offset = " ++ number s.offset ++ ","),
    indented 2 ("scale = " ++ number s.scale ++ ","),
    indented 2 ("spread = \x7b" ++ spread ++ "\x7d,"),
    indented 2 ("seed = " ++ integerText s.seed ++ ","),
    indented 2 ("octaves = " ++ integerText s.octaves ++ ","),
    indented 2 ("persist = " ++ number s.persist ++ ","),
    indented 2 ("lacunarity = " ++ number s.lacunarity ++ ","),
    indented 2 ("flags = \"" ++ " ".intercalate s.flags.names ++ "\""),
    indented 1 "\x7d,",
    "\x7d)",
    ""]

/-- The line that declares a content. -/
def contentLine (slot name : String) : String :=
  "local " ++ slot ++ " = minetest.get_content_id(" ++ Lua.text name ++ ")"

/-- The lines of a body. -/
def Body.lines : Body → List String
  | .keep => []
  | .decide decision => [indented 1 "-- Terrain evaluation"] ++ decision.lines step ++ [""]
  | .height level stone =>
    [indented 1 "-- Terrain evaluation",
      indented 1 ("local height = " ++ level.render),
      "",
      indented 1 "if y < 0 then",
      indented 2 "content = c_water",
      indented 1 "end",
      indented 1 "if y < height then",
      indented 2 ("content = " ++ stone),
      indented 1 "end",
      ""]

/-- The lines of a script. -/
def lines (s : Script) : List String :=
  [s.header, "luamap.set_singlenode()", ""] ++ s.registrations.flatMap Registration.lines ++
    ["-- Define content IDs"] ++ s.contents.map (fun c => contentLine c.1 c.2) ++ [""] ++
    s.helpers.flatMap (fun h => h.lines ++ [""]) ++
    ["local water_level = " ++ s.waterLevel,
      "",
      "local old_logic = luamap.logic",
      "",
      "function luamap.logic(noise_vals, x, y, z, seed, original_content)",
      indented 1 "-- Get any terrain defined in another mod",
      indented 1 "local content = old_logic(noise_vals, x, y, z, seed, original_content)",
      ""] ++
    s.body.lines ++ [indented 1 "return content", "end", ""]

/-- A script as text. -/
def render (s : Script) : String :=
  "\n".intercalate s.lines

/-! ## The script of a graph -/

/-- The registration of a noise node. -/
def registration? (n : Node) : Option Registration :=
  match n.params with
  | .noise2d settings => some ⟨n.id, settings, none⟩
  | .noise3d settings => some ⟨n.id, settings.toSettings, some settings.spreadZ⟩
  | _ => none

/-- The locals claimed so far, and the local of each terrain node. -/
structure Assignment where
  declared : Locals
  slots : List (Int × String)

/-- The contents every script has. -/
def builtIn : Locals :=
  [("c_air", "air"), ("c_water", "default:water_source")]

/-- Claims a local for a terrain node. -/
def Assignment.addNode (a : Assignment) (n : Node) : Assignment :=
  match n.params with
  | .terrainType t =>
    let claim := a.declared.claim (contentLocal t.name) t.name ("_" ++ integerText n.id)
    ⟨claim.declared, a.slots ++ [(n.id, claim.slot)]⟩
  | _ => a

/-- The locals of the terrain nodes of a graph. -/
def assignment (g : Graph) : Assignment :=
  g.nodes.foldl Assignment.addNode ⟨builtIn, []⟩

/-- The local of a terrain node; a node that has none yet gets that of its name. -/
def contentsOf (slots : List (Int × String)) : Contents := fun n =>
  match slots.find? (·.1 == n.id) with
  | some entry => entry.2
  | none =>
    match n.params with
    | .terrainType t => contentLocal t.name
    | _ => contentLocal ""

/-- The contents of nodes before any local has been claimed. -/
def freshContents : Contents :=
  contentsOf []

/-- The helpers that the nodes of a graph call, in the order of the nodes. -/
def helpersOf (g : Graph) : List Helper :=
  (g.nodes.filterMap fun n => Helper.ofKind? n.kind).eraseDups

/-- Whether any node of a graph is a comparison. -/
def hasComparison (g : Graph) : Bool :=
  g.nodes.any (·.kind = .compare)

/-- The body for a graph, and the locals declared including those of the body. -/
def bodyOf (g : Graph) (a : Assignment) : Except Error (Body × Locals) := do
  let w := g.wiring
  let contents := contentsOf a.slots
  match g.output? with
  | none => return (.keep, a.declared)
  | some output =>
    if hasComparison g then
      match (w.incoming? (portId output.id "in")).bind fun c => w.owner? c.source with
      | none => return (.keep, a.declared)
      | some source => return (.decide (← decision w contents [] source.id), a.declared)
    else
      let claim := a.declared.claim "c_stone" "default:stone" "_1"
      return (.height (← inputExpr w contents output "in") claim.slot, claim.declared)

/-- A header as text. -/
def headerText : Value → Except Error String
  | .text s => .ok s
  | value => .error (.headerNotText value.typeName)

/-- What a script is compiled with, as loosely typed data. -/
structure Options where
  waterLevel : Value
  header : Value

/-- The usual options. -/
def Options.default : Options :=
  ⟨.int 0, .text "-- Luamap generated terrain"⟩

/-- The script of a graph, whether the graph is valid or not. -/
def ofGraph (g : Graph) (options : Options) : Except Error Script := do
  let assigned := assignment g
  let (body, declared) ← bodyOf g assigned
  let waterLevel ← numberOf options.waterLevel
  let header ← headerText options.header
  return {
    header := header
    registrations := g.nodes.filterMap registration?
    contents := declared
    helpers := helpersOf g
    waterLevel := waterLevel
    body := body }

/-! ## Compilation -/

/-- The outcome of compilation. There is no code for a graph with problems; code that fails the
balance check is still there. -/
structure Compiled where
  code : Option String
  errors : List String
  warnings : List String

/-- Whether the code can be used. -/
def Compiled.isValid (c : Compiled) : Bool :=
  c.code.isSome && c.errors.isEmpty

/-- Validates a graph, compiles it and checks the code. -/
def compile (g : Graph) (options : Options) : Except Error Compiled := do
  let findings ← g.validate
  let warnings := findings.warningMessages
  if !findings.isValid then return ⟨none, findings.errorMessages, warnings⟩
  match ofGraph g options with
  | .error cause => return ⟨none, ["Code generation failed: " ++ cause.report], warnings⟩
  | .ok script =>
    let code := script.render
    return ⟨some code, (imbalances code).map (·.message), warnings⟩

end Script

end Landform
