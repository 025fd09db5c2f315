import Landform.Noise.Lattice

/-!
# Value noise

Between the lattice points the field is interpolated: linearly along each axis in turn, in two
dimensions as in three, after an optional easing of the local coordinates by the quintic fade. The
field has no value at a point that is not finite.
-/

namespace Landform.Noise

variable {α : Type} [Scalar α]

/-! ## Interpolation -/

/-- The quintic fade `6 t ^ 5 - 15 t ^ 4 + 10 t ^ 3`. -/
@[specialize] def ease (t : α) : α :=
  t * t * t * (t * (Scalar.ofInt 6 * t - Scalar.ofInt 15) + Scalar.ofInt 10)

/-- The point at the fraction `t` of the way from `v0` to `v1`. -/
@[specialize] def blend (v0 v1 t : α) : α :=
  v0 + (v1 - v0) * t

/-- Interpolation in a square without easing. The corners come with the first coordinate running
fastest. -/
@[specialize] def blend2 (v00 v10 v01 v11 x y : α) : α :=
  blend (blend v00 v10 x) (blend v01 v11 x) y

/-- Interpolation in a square, eased if wanted. -/
@[specialize] def interpolate2 (v00 v10 v01 v11 x y : α) (eased : Bool) : α :=
  if eased then blend2 v00 v10 v01 v11 (ease x) (ease y) else blend2 v00 v10 v01 v11 x y

/-- Interpolation in a cube without easing. -/
@[specialize] def blend3 (v000 v100 v010 v110 v001 v101 v011 v111 x y z : α) : α :=
  blend (blend2 v000 v100 v010 v110 x y) (blend2 v001 v101 v011 v111 x y) z

/-- Interpolation in a cube; each coordinate is eased once, if wanted. -/
@[specialize] def interpolate3 (v000 v100 v010 v110 v001 v101 v011 v111 x y z : α)
    (eased : Bool) : α :=
  if eased then
    blend3 v000 v100 v010 v110 v001 v101 v011 v111 (ease x) (ease y) (ease z)
  else blend3 v000 v100 v010 v110 v001 v101 v011 v111 x y z

/-! ## The fields -/

/-- The field of a cell of the plane at local coordinates. -/
@[specialize] def cell2 (x0 y0 seed : Int) (x y : α) (eased : Bool) : α :=
  interpolate2 (hash2 x0 y0 seed) (hash2 (x0 + 1) y0 seed) (hash2 x0 (y0 + 1) seed)
    (hash2 (x0 + 1) (y0 + 1) seed) x y eased

/-- The field of a cell of space at local coordinates. -/
@[specialize] def cell3 (x0 y0 z0 seed : Int) (x y z : α) (eased : Bool) : α :=
  interpolate3 (hash3 x0 y0 z0 seed) (hash3 (x0 + 1) y0 z0 seed) (hash3 x0 (y0 + 1) z0 seed)
    (hash3 (x0 + 1) (y0 + 1) z0 seed) (hash3 x0 y0 (z0 + 1) seed) (hash3 (x0 + 1) y0 (z0 + 1) seed)
    (hash3 x0 (y0 + 1) (z0 + 1) seed) (hash3 (x0 + 1) (y0 + 1) (z0 + 1) seed) x y z eased

/-- The part of a number above its greatest integer. -/
@[specialize] def offsetIn (x : α) (x0 : Int) : α :=
  x - Scalar.ofInt x0

/-- Value noise in the plane. -/
@[specialize] def gradient2 (x y : α) (seed : Int) (eased : Bool) : α :=
  if Scalar.isFinite x && Scalar.isFinite y then
    let x0 := Scalar.floor x
    let y0 := Scalar.floor y
    cell2 x0 y0 seed (offsetIn x x0) (offsetIn y y0) eased
  else Scalar.undefined

/-- Value noise in space. -/
@[specialize] def gradient3 (x y z : α) (seed : Int) (eased : Bool) : α :=
  if Scalar.isFinite x && Scalar.isFinite y && Scalar.isFinite z then
    let x0 := Scalar.floor x
    let y0 := Scalar.floor y
    let z0 := Scalar.floor z
    cell3 x0 y0 z0 seed (offsetIn x x0) (offsetIn y y0) (offsetIn z z0) eased
  else Scalar.undefined

end Landform.Noise
