import Landform.Error
import Landform.Value

/-!
# Terrain

A terrain says what occupies a place: its name, its material and the colour it is shown in. A
signal is what a port carries at a point, a number or a terrain.
-/

namespace Landform

/-- The materials. -/
inductive Material where
  | solid
  | liquid
  | air
deriving Repr, DecidableEq

namespace Material

def name : Material → String
  | solid => "solid"
  | liquid => "liquid"
  | air => "air"

def ofName? : String → Option Material
  | "solid" => some solid
  | "liquid" => some liquid
  | "air" => some air
  | _ => none

/-- A material from data: its name and nothing else. -/
def ofValue (value : Value) : Except Error Material :=
  match value with
  | .text s => match ofName? s with
    | some material => .ok material
    | none => .error (.unknownMaterial value.shown)
  | _ => .error (.unknownMaterial value.shown)

end Material

/-- What occupies a place. -/
structure Terrain where
  name : String
  material : Material
  color : String
deriving Repr, DecidableEq

namespace Terrain

def isSolid (t : Terrain) : Bool := t.material = .solid

/-- The terrain of a place that nothing else is known of. -/
def openAir : Terrain := ⟨"air", .air, "#aaccff"⟩

end Terrain

/-- A place in the world. -/
structure Point where
  x : Float
  y : Float
  z : Float

/-- What a port carries at a point. -/
inductive Signal where
  | number (x : Float)
  | terrain (t : Terrain)

namespace Signal

/-- The number of a signal that carries one. -/
def number? : Signal → Option Float
  | number x => some x
  | terrain _ => none

end Signal

end Landform
