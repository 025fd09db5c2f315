import Landform.Graph.Edit

/-!
# Templates

Two graphs to start from. Both compare the height of a point with a noise field, so that
everything below the surface is stone.
-/

namespace Landform.Template

/-- Adds a node at integer coordinates. -/
def place (kind : String) (x y : Int) : Edit Int :=
  Edit.add kind (.int x) (.int y)

/-- Adds a terrain. -/
def terrain (name material color : String) (x y : Int) : Edit Int := do
  let id ← place "terrain-type" x y
  let _ ← Edit.update id
    [("name", .text name), ("material", .text material), ("color", .text color)]
  return id

/-- Connects a role of one node to a role of another. -/
def link (source : Int) (sourceRole : String) (target : Int) (targetRole : String) :
    Edit Unit := do
  let source := portId source sourceRole
  let target := portId target targetRole
  match ← Edit.connect source target with
  | .done _ => return
  | .refused why => throw (.templateConnection source target why.message)

/-- Stone below a noise surface, air above. -/
def simple : Edit Unit := do
  let position ← place "position" 100 150
  let noise ← place "noise2d" 300 100
  let _ ← Edit.update noise [("scale", .int 20)]
  let compare ← place "compare" 500 150
  let stone ← terrain "default:stone" "solid" "#888888" 300 250
  let air ← terrain "air" "air" "#aaccff" 300 350
  let output ← place "terrain-output" 700 150
  link position "outY" compare "in1"
  link noise "out" compare "in2"
  link stone "out" compare "useTrue"
  link air "out" compare "useFalse"
  link compare "out" output "in"

/-- Stone under rolling hills, water below a constant level, air elsewhere. The level is noise of
scale zero. -/
def layered : Edit Unit := do
  let position ← place "position" 100 200
  let hills ← place "noise2d" 300 100
  let _ ← Edit.update hills
    [("offset", .int 0), ("scale", .int 50), ("spread_x", .int 384), ("spread_y", .int 256),
      ("seed", .int 5900033), ("octaves", .int 5), ("persist", .float 0.63),
      ("lacunarity", .float 2), ("flags", .int Noise.Flags.defaults.bits)]
  let compare ← place "compare" 500 200
  let stone ← terrain "default:stone" "solid" "#888888" 350 300
  let water ← terrain "default:water_source" "liquid" "#4444ff" 650 300
  let waterCompare ← place "compare" 650 200
  let _ ← Edit.update waterCompare [("use_true", .int 0), ("use_false", .int 0)]
  let waterLevel ← place "noise2d" 500 100
  let _ ← Edit.update waterLevel
    [("offset", .int 0), ("scale", .int 0), ("spread_x", .int 100), ("spread_y", .int 100)]
  let air ← terrain "air" "air" "#aaccff" 500 400
  let output ← place "terrain-output" 800 200
  link position "outY" compare "in1"
  link position "outY" waterCompare "in1"
  link waterLevel "out" waterCompare "in2"
  link hills "out" compare "in2"
  link stone "out" compare "useTrue"
  link waterCompare "out" compare "useFalse"
  link water "out" waterCompare "useTrue"
  link air "out" waterCompare "useFalse"
  link compare "out" output "in"

/-- The templates by name, sorted. -/
def all : Table (Edit Unit) :=
  [("layered", layered), ("simple", simple)]

/-- The names of the templates. -/
def names : List String :=
  all.names

/-- The graph of a template. -/
def build (name : String) (seed : Int) : Except Error Graph :=
  match all.get? name with
  | none => .error (.unknownTemplate name names)
  | some edit =>
    let (g, answer) := (Graph.empty seed).run edit
    answer.map fun _ => g

end Landform.Template
