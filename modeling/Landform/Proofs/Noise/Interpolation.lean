import Landform.Noise.Gradient
import Landform.Proofs.Noise.Words
import Mathlib

/-!
# Value noise as an interpolation

Over the rational numbers the arithmetic of value noise is exact. The field of a cell is a blend of
the values at its corners, one axis after the other. The fade maps the unit interval into itself and
keeps its ends, so that an eased blend is one as well. A local coordinate of zero or one leaves only
the corners on that side, which the neighbouring cell has in the same order.

1. `hash2_mem`, `hash3_mem`: the values at lattice points.
2. `blend_mem`, `ease_mem`: what blends and the fade keep.
3. `cell2_mem`, `cell3_mem`: the field inside a cell.
4. `cell2_right`, `cell3_right` and the like: the field at the borders of a cell.
5. `gradient_interpolates`: value noise at all points, under all seeds.
-/

namespace Landform.Noise

open Set

/-! ## 1. Values at lattice points -/

/-- The coefficients of the polynomial that scrambles are odd, and with the constant they are three:
for an odd argument all of them count, for an even one only the constant does. -/
theorem odd_polynomial (m : Nat) : Odd (m * (m * m * 60493 + 19990303) + 1376312589) := by
  have even : Even (m * (m * m * 60493 + 19990303)) := by
    rcases Nat.even_or_odd m with even | odd
    · exact even.mul_right _
    · exact (((odd.mul odd).mul (by decide)).add_odd (by decide)).mul_left _
  exact even.add_odd (by decide)

theorem odd_scramble (n : Int) : Odd (scramble n) := by
  simp only [scramble]
  rw [Nat.odd_iff, Nat.mod_mod_of_dvd _ (dvd_pow_self 2 (by decide)), ← Nat.odd_iff]
  exact odd_polynomial _

theorem fraction_eq (n : Nat) : (fraction n : Rat) = 1 - n / 2 ^ 30 := by
  show ((1 : Int) : Rat) - ((n : Int) : Rat) / ((1073741824 : Int) : Rat) = _
  norm_num

theorem fraction_mem (n : Int) : (fraction (scramble n) : Rat) ∈ Ioo (-1) 1 := by
  have low : (0 : Rat) < scramble n := Nat.cast_pos.mpr (odd_scramble n).pos
  have high : (scramble n : Rat) < 2 ^ 31 := by exact_mod_cast scramble_lt n
  rw [fraction_eq]
  constructor
  · rw [lt_sub_comm, div_lt_iff₀ (by norm_num)]
    linarith
  · exact sub_lt_self 1 (div_pos low (by norm_num))

theorem hash2_mem (x y seed : Int) : (hash2 x y seed : Rat) ∈ Ioo (-1) 1 :=
  fraction_mem _

theorem hash3_mem (x y z seed : Int) : (hash3 x y z seed : Rat) ∈ Ioo (-1) 1 :=
  fraction_mem _

/-! ## 2. Blends and the fade -/

theorem blend_eq (a b t : Rat) : blend a b t = a + (b - a) * t := rfl

@[simp]
theorem blend_zero (a b : Rat) : blend a b 0 = a := by
  rw [blend_eq]
  ring

@[simp]
theorem blend_one (a b : Rat) : blend a b 1 = b := by
  rw [blend_eq]
  ring

section Hull

variable {low high : Rat}

/-- A blend stays in every interval that holds both its ends. -/
theorem blend_mem {a b t : Rat} (inside : t ∈ Icc 0 1) (first : a ∈ Icc low high)
    (second : b ∈ Icc low high) : blend a b t ∈ Icc low high := by
  have weights : blend a b t = (1 - t) * a + t * b := by
    rw [blend_eq]
    ring
  rw [weights]
  exact convex_Icc low high first second (sub_nonneg.mpr inside.2) inside.1 (sub_add_cancel 1 t)

theorem blend2_mem {v00 v10 v01 v11 x y : Rat} (hx : x ∈ Icc 0 1) (hy : y ∈ Icc 0 1)
    (corners : ∀ v ∈ [v00, v10, v01, v11], v ∈ Icc low high) :
    blend2 v00 v10 v01 v11 x y ∈ Icc low high := by
  simp only [List.forall_mem_cons] at corners
  obtain ⟨h00, h10, h01, h11, -⟩ := corners
  exact blend_mem hy (blend_mem hx h00 h10) (blend_mem hx h01 h11)

theorem blend3_mem {v000 v100 v010 v110 v001 v101 v011 v111 x y z : Rat} (hx : x ∈ Icc 0 1)
    (hy : y ∈ Icc 0 1) (hz : z ∈ Icc 0 1)
    (corners : ∀ v ∈ [v000, v100, v010, v110, v001, v101, v011, v111], v ∈ Icc low high) :
    blend3 v000 v100 v010 v110 v001 v101 v011 v111 x y z ∈ Icc low high := by
  have split : ∀ v ∈ [v000, v100, v010, v110] ++ [v001, v101, v011, v111], v ∈ Icc low high :=
    corners
  obtain ⟨bottom, top⟩ := List.forall_mem_append.mp split
  exact blend_mem hz (blend2_mem hx hy bottom) (blend2_mem hx hy top)

end Hull

theorem ease_eq (t : Rat) : ease t = t * t * t * (t * (6 * t - 15) + 10) := by
  show t * t * t * (t * (((6 : Int) : Rat) * t - ((15 : Int) : Rat)) + ((10 : Int) : Rat)) = _
  norm_num

/-- A local coordinate, faded if wanted. -/
def faded (eased : Bool) (t : Rat) : Rat :=
  if eased then ease t else t

@[simp]
theorem faded_zero (eased : Bool) : faded eased 0 = 0 := by
  cases eased
  · rfl
  · rw [faded, if_pos rfl, ease_eq]
    norm_num

@[simp]
theorem faded_one (eased : Bool) : faded eased 1 = 1 := by
  cases eased
  · rfl
  · rw [faded, if_pos rfl, ease_eq]
    norm_num

/-- The fade maps the unit interval into itself: its complement is the fade of the complement. -/
theorem ease_mem {t : Rat} (inside : t ∈ Icc 0 1) : ease t ∈ Icc 0 1 := by
  have nonneg : ∀ s : Rat, 0 ≤ s → 0 ≤ ease s := by
    intro s hs
    have square : s * (6 * s - 15) + 10 = 6 * (s - 5 / 4) ^ 2 + 5 / 8 := by ring
    rw [ease_eq, square]
    positivity
  have complement : ease t = 1 - ease (1 - t) := by
    rw [ease_eq, ease_eq]
    ring
  have below := nonneg (1 - t) (sub_nonneg.mpr inside.2)
  exact ⟨nonneg t inside.1, by linarith⟩

theorem faded_mem (eased : Bool) {t : Rat} (inside : t ∈ Icc 0 1) : faded eased t ∈ Icc 0 1 := by
  cases eased
  · exact inside
  · exact ease_mem inside

/-- Interpolation in a square fades each coordinate once. -/
theorem interpolate2_eq (v00 v10 v01 v11 x y : Rat) (eased : Bool) :
    interpolate2 v00 v10 v01 v11 x y eased =
      blend2 v00 v10 v01 v11 (faded eased x) (faded eased y) := by
  cases eased <;> rfl

/-- Interpolation in a cube fades each coordinate once. -/
theorem interpolate3_eq (v000 v100 v010 v110 v001 v101 v011 v111 x y z : Rat) (eased : Bool) :
    interpolate3 v000 v100 v010 v110 v001 v101 v011 v111 x y z eased =
      blend3 v000 v100 v010 v110 v001 v101 v011 v111 (faded eased x) (faded eased y)
        (faded eased z) := by
  cases eased <;> rfl

/-! ## 3. Inside a cell -/

/-- The values at the corners of a cell of the plane. -/
def corners2 (x0 y0 seed : Int) : List Rat :=
  [hash2 x0 y0 seed, hash2 (x0 + 1) y0 seed, hash2 x0 (y0 + 1) seed, hash2 (x0 + 1) (y0 + 1) seed]

/-- The values at the corners of a cell of space. -/
def corners3 (x0 y0 z0 seed : Int) : List Rat :=
  [hash3 x0 y0 z0 seed, hash3 (x0 + 1) y0 z0 seed, hash3 x0 (y0 + 1) z0 seed,
    hash3 (x0 + 1) (y0 + 1) z0 seed, hash3 x0 y0 (z0 + 1) seed, hash3 (x0 + 1) y0 (z0 + 1) seed,
    hash3 x0 (y0 + 1) (z0 + 1) seed, hash3 (x0 + 1) (y0 + 1) (z0 + 1) seed]

theorem corners2_ne_nil (x0 y0 seed : Int) : corners2 x0 y0 seed ≠ [] :=
  List.cons_ne_nil _ _

theorem corners3_ne_nil (x0 y0 z0 seed : Int) : corners3 x0 y0 z0 seed ≠ [] :=
  List.cons_ne_nil _ _

theorem mem_min_max {values : List Rat} (some : values ≠ []) :
    ∀ v ∈ values, v ∈ Icc (values.min some) (values.max some) :=
  fun _ listed => ⟨List.min_le_of_mem listed, List.le_max_of_mem listed⟩

/-- What lies between the least and the greatest of some values lies in every open interval that
holds them all. -/
theorem mem_of_min_max {values : List Rat} (some : values ≠ []) {low high v : Rat}
    (all : ∀ c ∈ values, c ∈ Ioo low high) (between : v ∈ Icc (values.min some) (values.max some)) :
    v ∈ Ioo low high :=
  ⟨(all _ (List.min_mem some)).1.trans_le between.1,
    between.2.trans_lt (all _ (List.max_mem some)).2⟩

section Cell

variable {x y z : Rat} (hx : x ∈ Icc 0 1) (hy : y ∈ Icc 0 1) (hz : z ∈ Icc 0 1)
  (x0 y0 z0 seed : Int) (eased : Bool)

include hx hy

theorem cell2_mem : cell2 x0 y0 seed x y eased ∈
    Icc ((corners2 x0 y0 seed).min (corners2_ne_nil x0 y0 seed))
      ((corners2 x0 y0 seed).max (corners2_ne_nil x0 y0 seed)) := by
  rw [cell2, interpolate2_eq]
  exact blend2_mem (faded_mem eased hx) (faded_mem eased hy) (mem_min_max _)

include hz

theorem cell3_mem : cell3 x0 y0 z0 seed x y z eased ∈
    Icc ((corners3 x0 y0 z0 seed).min (corners3_ne_nil x0 y0 z0 seed))
      ((corners3 x0 y0 z0 seed).max (corners3_ne_nil x0 y0 z0 seed)) := by
  rw [cell3, interpolate3_eq]
  exact blend3_mem (faded_mem eased hx) (faded_mem eased hy) (faded_mem eased hz) (mem_min_max _)

end Cell

/-! ## 4. Borders of a cell -/

section Borders

variable (x0 y0 z0 seed : Int) (x y z : Rat) (eased : Bool)

theorem cell2_right : cell2 x0 y0 seed 1 y eased = cell2 (x0 + 1) y0 seed 0 y eased := by
  simp only [cell2, interpolate2_eq, blend2, faded_zero, faded_one, blend_zero, blend_one]

theorem cell2_top : cell2 x0 y0 seed x 1 eased = cell2 x0 (y0 + 1) seed x 0 eased := by
  simp only [cell2, interpolate2_eq, blend2, faded_zero, faded_one, blend_zero, blend_one]

theorem cell2_corner : cell2 x0 y0 seed 0 0 eased = (hash2 x0 y0 seed : Rat) := by
  simp only [cell2, interpolate2_eq, blend2, faded_zero, blend_zero]

theorem cell3_right :
    cell3 x0 y0 z0 seed 1 y z eased = cell3 (x0 + 1) y0 z0 seed 0 y z eased := by
  simp only [cell3, interpolate3_eq, blend3, blend2, faded_zero, faded_one, blend_zero, blend_one]

theorem cell3_top : cell3 x0 y0 z0 seed x 1 z eased = cell3 x0 (y0 + 1) z0 seed x 0 z eased := by
  simp only [cell3, interpolate3_eq, blend3, blend2, faded_zero, faded_one, blend_zero, blend_one]

theorem cell3_back : cell3 x0 y0 z0 seed x y 1 eased = cell3 x0 y0 (z0 + 1) seed x y 0 eased := by
  simp only [cell3, interpolate3_eq, blend3, blend2, faded_zero, faded_one, blend_zero, blend_one]

theorem cell3_corner : cell3 x0 y0 z0 seed 0 0 0 eased = (hash3 x0 y0 z0 seed : Rat) := by
  simp only [cell3, interpolate3_eq, blend3, blend2, faded_zero, blend_zero]

end Borders

/-! ## 5. Value noise -/

theorem floor_eq (x : Rat) : Scalar.floor x = ⌊x⌋ := rfl

theorem offsetIn_eq (x : Rat) (x0 : Int) : offsetIn x x0 = x - x0 := rfl

theorem gradient2_eq (x y : Rat) (seed : Int) (eased : Bool) :
    gradient2 x y seed eased = cell2 ⌊x⌋ ⌊y⌋ seed (x - ⌊x⌋) (y - ⌊y⌋) eased := by
  have finite : (Scalar.isFinite x && Scalar.isFinite y) = true := rfl
  rw [gradient2, if_pos finite]
  simp only [floor_eq, offsetIn_eq]

theorem gradient3_eq (x y z : Rat) (seed : Int) (eased : Bool) :
    gradient3 x y z seed eased =
      cell3 ⌊x⌋ ⌊y⌋ ⌊z⌋ seed (x - ⌊x⌋) (y - ⌊y⌋) (z - ⌊z⌋) eased := by
  have finite : (Scalar.isFinite x && Scalar.isFinite y && Scalar.isFinite z) = true := rfl
  rw [gradient3, if_pos finite]
  simp only [floor_eq, offsetIn_eq]

theorem local_mem (x : Rat) : x - ⌊x⌋ ∈ Icc (0 : Rat) 1 :=
  ⟨Int.fract_nonneg x, (Int.fract_lt_one x).le⟩

/-- A point of a closed interval between integers lies in its half-open part, or is its end. -/
theorem floor_of_mem {x : Rat} {x0 : Int} (inside : x ∈ Icc (x0 : Rat) (x0 + 1)) :
    ⌊x⌋ = x0 ∨ x = x0 + 1 ∧ ⌊x⌋ = x0 + 1 := by
  rcases inside.2.lt_or_eq with below | rfl
  · exact .inl (Int.floor_eq_iff.mpr ⟨inside.1, below⟩)
  · refine .inr ⟨rfl, ?_⟩
    rw [Int.floor_add_one, Int.floor_intCast]

/-- Value noise in the plane, over the rational numbers: between the values at the corners of the
cell, hence strictly between minus one and one; the hash at lattice points; the same from both
sides of every border between cells, and given by the formula of every closed cell that holds the
point. -/
structure Interpolates2 (seed : Int) (eased : Bool) : Prop where
  between : ∀ x y : Rat, gradient2 x y seed eased ∈
    Icc ((corners2 x.floor y.floor seed).min (corners2_ne_nil _ _ _))
      ((corners2 x.floor y.floor seed).max (corners2_ne_nil _ _ _))
  inside : ∀ x y : Rat, gradient2 x y seed eased ∈ Ioo (-1) 1
  at_lattice : ∀ x0 y0 : Int, gradient2 (x0 : Rat) (y0 : Rat) seed eased = hash2 x0 y0 seed
  across_x : ∀ (x0 y0 : Int) (y : Rat),
    cell2 x0 y0 seed 1 y eased = cell2 (x0 + 1) y0 seed 0 y eased
  across_y : ∀ (x0 y0 : Int) (x : Rat),
    cell2 x0 y0 seed x 1 eased = cell2 x0 (y0 + 1) seed x 0 eased
  in_cell : ∀ (x0 y0 : Int) (x y : Rat), x ∈ Icc (x0 : Rat) (x0 + 1) → y ∈ Icc (y0 : Rat) (y0 + 1) →
    gradient2 x y seed eased = cell2 x0 y0 seed (x - x0) (y - y0) eased

/-- Value noise in space, over the rational numbers, as `Interpolates2` says it of the plane. -/
structure Interpolates3 (seed : Int) (eased : Bool) : Prop where
  between : ∀ x y z : Rat, gradient3 x y z seed eased ∈
    Icc ((corners3 x.floor y.floor z.floor seed).min (corners3_ne_nil _ _ _ _))
      ((corners3 x.floor y.floor z.floor seed).max (corners3_ne_nil _ _ _ _))
  inside : ∀ x y z : Rat, gradient3 x y z seed eased ∈ Ioo (-1) 1
  at_lattice : ∀ x0 y0 z0 : Int,
    gradient3 (x0 : Rat) (y0 : Rat) (z0 : Rat) seed eased = hash3 x0 y0 z0 seed
  across_x : ∀ (x0 y0 z0 : Int) (y z : Rat),
    cell3 x0 y0 z0 seed 1 y z eased = cell3 (x0 + 1) y0 z0 seed 0 y z eased
  across_y : ∀ (x0 y0 z0 : Int) (x z : Rat),
    cell3 x0 y0 z0 seed x 1 z eased = cell3 x0 (y0 + 1) z0 seed x 0 z eased
  across_z : ∀ (x0 y0 z0 : Int) (x y : Rat),
    cell3 x0 y0 z0 seed x y 1 eased = cell3 x0 y0 (z0 + 1) seed x y 0 eased
  in_cell : ∀ (x0 y0 z0 : Int) (x y z : Rat), x ∈ Icc (x0 : Rat) (x0 + 1) →
    y ∈ Icc (y0 : Rat) (y0 + 1) → z ∈ Icc (z0 : Rat) (z0 + 1) →
    gradient3 x y z seed eased = cell3 x0 y0 z0 seed (x - x0) (y - y0) (z - z0) eased

theorem gradient2_interpolates (seed : Int) (eased : Bool) : Interpolates2 seed eased := by
  have between (x y : Rat) := cell2_mem (local_mem x) (local_mem y) ⌊x⌋ ⌊y⌋ seed eased
  have corners (x0 y0 : Int) : ∀ c ∈ corners2 x0 y0 seed, c ∈ Ioo (-1) 1 := by
    simp only [corners2, List.forall_mem_cons, List.not_mem_nil, false_implies, implies_true,
      hash2_mem, and_self]
  simp only [← gradient2_eq] at between
  refine ⟨between, fun x y => mem_of_min_max _ (corners _ _) (between x y), ?_,
    fun x0 y0 y => cell2_right x0 y0 seed y eased, fun x0 y0 x => cell2_top x0 y0 seed x eased, ?_⟩
  · intro x0 y0
    rw [gradient2_eq, Int.floor_intCast, Int.floor_intCast, sub_self, sub_self, cell2_corner]
  · intro x0 y0 x y hx hy
    rw [gradient2_eq]
    rcases floor_of_mem hx with floor | ⟨rfl, floor⟩ <;>
      rcases floor_of_mem hy with floor' | ⟨rfl, floor'⟩ <;>
      simp [floor, floor', cell2_right, cell2_top]

theorem gradient3_interpolates (seed : Int) (eased : Bool) : Interpolates3 seed eased := by
  have between (x y z : Rat) :=
    cell3_mem (local_mem x) (local_mem y) (local_mem z) ⌊x⌋ ⌊y⌋ ⌊z⌋ seed eased
  have corners (x0 y0 z0 : Int) : ∀ c ∈ corners3 x0 y0 z0 seed, c ∈ Ioo (-1) 1 := by
    simp only [corners3, List.forall_mem_cons, List.not_mem_nil, false_implies, implies_true,
      hash3_mem, and_self]
  simp only [← gradient3_eq] at between
  refine ⟨between, fun x y z => mem_of_min_max _ (corners _ _ _) (between x y z), ?_,
    fun x0 y0 z0 y z => cell3_right x0 y0 z0 seed y z eased,
    fun x0 y0 z0 x z => cell3_top x0 y0 z0 seed x z eased,
    fun x0 y0 z0 x y => cell3_back x0 y0 z0 seed x y eased, ?_⟩
  · intro x0 y0 z0
    rw [gradient3_eq, Int.floor_intCast, Int.floor_intCast, Int.floor_intCast, sub_self, sub_self,
      sub_self, cell3_corner]
  · intro x0 y0 z0 x y z hx hy hz
    rw [gradient3_eq]
    rcases floor_of_mem hx with floor | ⟨rfl, floor⟩ <;>
      rcases floor_of_mem hy with floor' | ⟨rfl, floor'⟩ <;>
      rcases floor_of_mem hz with floor'' | ⟨rfl, floor''⟩ <;>
      simp [floor, floor', floor'', cell3_right, cell3_top, cell3_back]

/-- Value noise interpolates the values of the lattice, in the plane as in space, eased or not. -/
theorem gradient_interpolates (seed : Int) (eased : Bool) :
    Interpolates2 seed eased ∧ Interpolates3 seed eased :=
  ⟨gradient2_interpolates seed eased, gradient3_interpolates seed eased⟩

end Landform.Noise
