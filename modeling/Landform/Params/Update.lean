import Landform.Params.Basic

/-!
# Parameter updates

An update names fields and gives them loosely typed values. Field names may be written in the style
of the editor, with inner capitals, or in the plain style, with underscores; `canonicalField` maps
both to the plain one. `Params.replace` reads the named fields and keeps the others; `Params.merge`
separates the fields that the parameters have from the others, which are handed back untouched.
-/

namespace Landform

open Text

/-! ## Field names -/

/-- An underscore before each ASCII capital but one at the start of the text. -/
def splitCapitals : List Char → List Char
  | [] => []
  | c :: rest => c :: rest.flatMap fun d => if d.isUpper then ['_', d] else [d]

/-- The editor's names that follow no rule. -/
def fieldAliases : List (String × String) :=
  [("type", "material"), ("materialKind", "material"), ("material_kind", "material")]

/-- The plain name of a field. -/
def canonicalField (name : String) : String :=
  match fieldAliases.find? (·.1 == name) with
  | some (_, field) => field
  | none => lower (String.ofList (splitCapitals name.toList))

/-! ## Reading single fields -/

/-- The value of the last update of a field. -/
def Fields.last? (updates : Fields) (field : String) : Option Value :=
  Table.get? updates.reverse field

/-- The new value of a field: read from its last update, or else the current one. -/
def Fields.pick {α : Type} (updates : Fields) (field : String) (read : Value → Except Error α)
    (current : α) : Except Error α :=
  match updates.last? field with
  | some value => read value
  | none => .ok current

/-- The new value of a number. -/
def Fields.number (updates : Fields) (field : String) (current : Float) : Except Error Float :=
  updates.pick field Value.toFloat current

/-- Accepts a count that is not negative. -/
def checkCount (field : String) (count : Int) : Except Error Nat :=
  if count < 0 then .error (.negativeCount field count) else .ok count.toNat

/-- Accepts a number that is not zero. -/
def checkNonzero (field : String) (x : Float) : Except Error Unit :=
  if x == 0.0 then .error (.zeroField field) else .ok ()

/-! ## Reading parameters -/

/-- The bell with the updated fields read, if its spread is not zero. -/
def Bell.replace (bell : Bell) (updates : Fields) : Except Error Bell := do
  let centerX ← updates.number "center_x" bell.centerX
  let centerY ← updates.number "center_y" bell.centerY
  let centerZ ← updates.number "center_z" bell.centerZ
  let spread ← updates.number "spread" bell.spread
  checkNonzero "spread" spread
  return ⟨centerX, centerY, centerZ, spread⟩

/-- The bounds with the updated fields read. -/
def Bounds.replace (bounds : Bounds) (updates : Fields) : Except Error Bounds := do
  let inMin ← updates.number "in_min" bounds.inMin
  let inMax ← updates.number "in_max" bounds.inMax
  let outMin ← updates.number "out_min" bounds.outMin
  let outMax ← updates.number "out_max" bounds.outMax
  return ⟨inMin, inMax, outMin, outMax⟩

/-- The point with the updated fields read. -/
def Point.replace (point : Point) (updates : Fields) : Except Error Point := do
  let x ← updates.number "point_x" point.x
  let y ← updates.number "point_y" point.y
  let z ← updates.number "point_z" point.z
  return ⟨x, y, z⟩

/-- The test with the updated fields read, if its operator is one of the six. -/
def Test.replace (test : Test) (updates : Fields) : Except Error Test := do
  let sign ← updates.pick "operator" (fun value => .ok value.asText) test.operator.sign
  let useTrue ← updates.number "use_true" test.useTrue
  let useFalse ← updates.number "use_false" test.useFalse
  match Comparison.ofSign? sign with
  | some operator => return ⟨operator, useTrue, useFalse⟩
  | none => throw (.unknownOperator sign)

/-- The terrain with the updated fields read, if its name is not blank. -/
def Terrain.replace (terrain : Terrain) (updates : Fields) : Except Error Terrain := do
  let name ← updates.pick "name" (fun value => .ok value.asText) terrain.name
  let color ← updates.pick "color" (fun value => .ok value.asText) terrain.color
  let material ← updates.pick "material" Material.ofValue terrain.material
  if isBlankText name then throw .blankTerrainName
  return ⟨name, material, color⟩

namespace Noise

/-- The numbers of noise settings, before any check. The octaves are still an integer. -/
structure Draft where
  settings : Settings Float
  octaves : Int

/-- The updated fields of noise settings, read in the order flags, seed, octaves, numbers. -/
def Settings.draft (s : Settings Float) (updates : Fields) : Except Error Draft := do
  let flags ← updates.pick "flags" Flags.ofValue s.flags
  let seed ← updates.pick "seed" Value.toInt s.seed
  let octaves ← updates.pick "octaves" Value.toInt (s.octaves : Int)
  let offset ← updates.number "offset" s.offset
  let scale ← updates.number "scale" s.scale
  let persist ← updates.number "persist" s.persist
  let lacunarity ← updates.number "lacunarity" s.lacunarity
  let spreadX ← updates.number "spread_x" s.spreadX
  let spreadY ← updates.number "spread_y" s.spreadY
  return ⟨{ offset, scale, spreadX, spreadY, seed, octaves := 0, persist, lacunarity, flags },
    octaves⟩

/-- Accepts settings whose octaves are not negative and whose spreads are not zero. -/
def Draft.check (d : Draft) : Except Error (Settings Float) := do
  let octaves ← checkCount "octaves" d.octaves
  checkNonzero "spread_x" d.settings.spreadX
  checkNonzero "spread_y" d.settings.spreadY
  return { d.settings with octaves }

/-- The settings with the updated fields read. -/
def Settings.replace (s : Settings Float) (updates : Fields) : Except Error (Settings Float) := do
  (← s.draft updates).check

/-- The settings in space with the updated fields read. -/
def Settings3.replace (s : Settings3 Float) (updates : Fields) :
    Except Error (Settings3 Float) := do
  let draft ← s.toSettings.draft updates
  let spreadZ ← updates.number "spread_z" s.spreadZ
  let settings ← draft.check
  checkNonzero "spread_z" spreadZ
  return { settings with spreadZ }

/-- The view with the updated fields read, if its scale is not zero and its steps not negative. -/
def Mandelbrot.replace (m : Mandelbrot Float) (updates : Fields) :
    Except Error (Mandelbrot Float) := do
  let scale ← updates.number "scale" m.scale
  let offsetX ← updates.number "offset_x" m.offsetX
  let offsetZ ← updates.number "offset_z" m.offsetZ
  let steps ← updates.pick "steps" Value.toInt (m.steps : Int)
  let remap ← updates.pick "remap" Value.toBool m.remap
  let remapMin ← updates.number "remap_min" m.remapMin
  let remapMax ← updates.number "remap_max" m.remapMax
  checkNonzero "scale" scale
  let steps ← checkCount "steps" steps
  return ⟨scale, offsetX, offsetZ, steps, remap, remapMin, remapMax⟩

end Noise

namespace Params

/-- The parameters with the updated fields read and checked. -/
def replace (updates : Fields) : Params → Except Error Params
  | lerp power => return lerp (← updates.number "power" power)
  | gaussian bell => return gaussian (← bell.replace updates)
  | remap bounds => return remap (← bounds.replace updates)
  | distance point => return distance (← point.replace updates)
  | noise2d settings => return noise2d (← settings.replace updates)
  | noise3d settings => return noise3d (← settings.replace updates)
  | mandelbrot view => return mandelbrot (← view.replace updates)
  | terrainType terrain => return terrainType (← terrain.replace updates)
  | compare test => return compare (← test.replace updates)
  | p => .ok p

/-! ## Merging -/

/-- The updates of fields that the parameters have, under their plain names. -/
def known (p : Params) (updates : Fields) : Fields :=
  (updates.map fun update => (canonicalField update.1, update.2)).filter fun update =>
    p.fieldNames.contains update.1

/-- The updates of fields that the parameters do not have. -/
def extras (p : Params) (updates : Fields) : Fields :=
  updates.filter fun update => !p.fieldNames.contains (canonicalField update.1)

/-- The result of an update: the new parameters, and the fields that they do not have. `same`
tells that no field of the parameters was named. -/
structure Merged where
  params : Params
  extras : Fields
  same : Bool

/-- Updates parameters by the fields they have. -/
def merge (p : Params) (updates : Fields) : Except Error Merged :=
  let known := p.known updates
  let extras := p.extras updates
  if known.isEmpty then .ok ⟨p, extras, true⟩
  else do return ⟨← p.replace known, extras, false⟩

end Params

end Landform
