import Landform.Evaluation.Rule
import Landform.Proofs.Noise.Interpolation

/-!
# Escape counts along an orbit

The loop that counts goes along one orbit, which does not depend on the limit. If the orbit has a
first iterate outside the circle, then the count under any limit is the index of that iterate or the
limit, whichever is smaller; if it has none, then the count is the limit. Hence a smaller limit caps
the count under a larger one, also where a limit is negative and where the constant is not finite.
All this holds on doubles as over the rational numbers, since no law of arithmetic is used.

1. `escapeFrom_of_first`, `escapeFrom_of_never`: the loop, from any iterate on.
2. `escapeCount_of_first`, `escapeCount_of_never`: the count under every limit.
3. `spread_mem`: a count spread over a range.
4. `escapeCount_capped`: escape counts and the values of the nodes that show them.
-/

namespace Landform.Noise

variable {α : Type} [Scalar α]

/-! ## Orbits -/

/-- The square of a complex number plus the constant `x + z i`. -/
def squared (x z : α) (w : α × α) : α × α :=
  (w.1 * w.1 - w.2 * w.2 + x, Scalar.ofInt 2 * w.1 * w.2 + z)

/-- Whether a complex number lies outside the circle whose squared radius is twenty. -/
def IsOutside (w : α × α) : Prop :=
  Scalar.exceeds (w.1 * w.1 + w.2 * w.2) (Scalar.ofInt 20) = true

instance (w : α × α) : Decidable (IsOutside w) :=
  inferInstanceAs (Decidable (_ = true))

/-- The iterate of zero with an index. The one with the index zero is the constant itself. -/
def iterate (x z : α) (i : Nat) : α × α :=
  (squared x z)^[i + 1] (Scalar.ofInt 0, Scalar.ofInt 0)

/-- Whether the constant is finite. -/
def IsFinitePoint (x z : α) : Prop :=
  Scalar.isFinite x = true ∧ Scalar.isFinite z = true

/-! ## 1. The loop -/

section Loop

variable (x z : α) (limit : Int)

theorem escapeFrom_succ (count : Nat) (index : Int) (w : α × α) :
    escapeFrom x z limit (count + 1) index w.1 w.2 =
      if IsOutside (squared x z w) then index
      else escapeFrom x z limit count (index + 1) (squared x z w).1 (squared x z w).2 := by
  rw [escapeFrom]
  exact if_congr Iff.rfl rfl rfl

/-- The loop stops at the first iterate outside the circle, if it gets that far. -/
theorem escapeFrom_of_first {i : Nat} (w : α × α) (index : Int) (count : Nat)
    (outside : IsOutside ((squared x z)^[i + 1] w))
    (first : ∀ j < i, ¬ IsOutside ((squared x z)^[j + 1] w)) :
    escapeFrom x z limit count index w.1 w.2 = if i < count then index + i else limit := by
  induction count generalizing i w index with
  | zero => rfl
  | succ count ih =>
    rw [escapeFrom_succ]
    cases i with
    | zero =>
      have here : IsOutside (squared x z w) := outside
      rw [if_pos here, if_pos (Nat.succ_pos count), Nat.cast_zero, add_zero]
    | succ i =>
      have here : ¬ IsOutside (squared x z w) := first 0 (Nat.succ_pos i)
      rw [if_neg here, ih (squared x z w) (index + 1) outside
        fun j less => first (j + 1) (Nat.succ_lt_succ less)]
      refine if_congr Nat.succ_lt_succ_iff.symm ?_ rfl
      push_cast
      ring

/-- The loop runs to its end if no iterate lies outside the circle. -/
theorem escapeFrom_of_never (w : α × α) (index : Int) (count : Nat)
    (never : ∀ j < count, ¬ IsOutside ((squared x z)^[j + 1] w)) :
    escapeFrom x z limit count index w.1 w.2 = limit := by
  induction count generalizing w index with
  | zero => rfl
  | succ count ih =>
    have here : ¬ IsOutside (squared x z w) := never 0 (Nat.succ_pos count)
    rw [escapeFrom_succ, if_neg here]
    exact ih (squared x z w) (index + 1) fun j less => never (j + 1) (Nat.succ_lt_succ less)

end Loop

/-! ## 2. The count under every limit -/

section Count

variable {x z : α}

theorem escapeCount_finite (finite : IsFinitePoint x z) (limit : Int) :
    escapeCount x z limit = escapeFrom x z limit (limit + 1).toNat 0 (Scalar.ofInt 0)
      (Scalar.ofInt 0) := by
  rw [escapeCount, finite.1, finite.2, Bool.and_self, if_pos rfl]

theorem escapeCount_infinite (infinite : ¬ IsFinitePoint x z) (limit : Int) :
    escapeCount x z limit = limit := by
  rw [escapeCount, if_neg]
  rwa [Bool.and_eq_true]

/-- The index of the first iterate outside the circle, unless the limit is smaller. -/
theorem escapeCount_of_first (finite : IsFinitePoint x z) {i : Nat}
    (outside : IsOutside (iterate x z i)) (first : ∀ j < i, ¬ IsOutside (iterate x z j))
    (limit : Int) : escapeCount x z limit = min (i : Int) limit := by
  rw [escapeCount_finite finite,
    escapeFrom_of_first x z limit (Scalar.ofInt 0, Scalar.ofInt 0) 0 _ outside first, zero_add]
  split <;> omega

/-- The limit, if no iterate up to it lies outside the circle. -/
theorem escapeCount_of_never (finite : IsFinitePoint x z) {limit : Int}
    (never : ∀ j : Nat, j ≤ limit → ¬ IsOutside (iterate x z j)) :
    escapeCount x z limit = limit := by
  rw [escapeCount_finite finite]
  exact escapeFrom_of_never x z limit (Scalar.ofInt 0, Scalar.ofInt 0) 0 _
    fun j less => never j (by omega)

/-- An orbit that leaves the circle has a first iterate outside it. -/
theorem exists_first (leaves : ∃ i, IsOutside (iterate x z i)) :
    ∃ i, IsOutside (iterate x z i) ∧ ∀ j < i, ¬ IsOutside (iterate x z j) := by
  exact ⟨Nat.find leaves, Nat.find_spec leaves, fun _ less => Nat.find_min leaves less⟩

theorem escapeCount_min (x z : α) {limit limit' : Int} (le : limit ≤ limit') :
    escapeCount x z limit = min (escapeCount x z limit') limit := by
  by_cases finite : IsFinitePoint x z
  · by_cases leaves : ∃ i, IsOutside (iterate x z i)
    · obtain ⟨i, outside, first⟩ := exists_first leaves
      rw [escapeCount_of_first finite outside first, escapeCount_of_first finite outside first,
        min_assoc, min_eq_right le]
    · have never (j : Nat) (l : Int) (_ : j ≤ l) : ¬ IsOutside (iterate x z j) :=
        fun outside => leaves ⟨j, outside⟩
      rw [escapeCount_of_never finite (never · limit),
        escapeCount_of_never finite (never · limit'), min_eq_right le]
  · rw [escapeCount_infinite finite, escapeCount_infinite finite, min_eq_right le]

/-- A count up to a limit: the least index up to the limit of an iterate outside the circle, or the
limit if there is none, and so between zero and the limit. -/
structure CountsEscape (x z : α) (limit count : Int) : Prop where
  first : ∀ i : Nat, i ≤ limit → IsOutside (iterate x z i) →
    (∀ j < i, ¬ IsOutside (iterate x z j)) → count = i
  never : (∀ i : Nat, i ≤ limit → ¬ IsOutside (iterate x z i)) → count = limit
  between : 0 ≤ count ∧ count ≤ limit

theorem escapeCount_mem (x z : α) {limit : Int} (nonneg : 0 ≤ limit) :
    0 ≤ escapeCount x z limit ∧ escapeCount x z limit ≤ limit := by
  refine ⟨?_, (escapeCount_min x z le_rfl).le.trans (min_le_right _ _)⟩
  by_cases finite : IsFinitePoint x z
  · by_cases leaves : ∃ i, IsOutside (iterate x z i)
    · obtain ⟨i, outside, first⟩ := exists_first leaves
      rw [escapeCount_of_first finite outside first]
      exact le_min (Nat.cast_nonneg i) nonneg
    · rw [escapeCount_of_never finite fun j _ outside => leaves ⟨j, outside⟩]
      exact nonneg
  · rwa [escapeCount_infinite finite]

theorem countsEscape (finite : IsFinitePoint x z) {limit : Int} (nonneg : 0 ≤ limit) :
    CountsEscape x z limit (escapeCount x z limit) where
  first i le outside first := by
    rw [escapeCount_of_first finite outside first, min_eq_left le]
  never := escapeCount_of_never finite
  between := escapeCount_mem x z nonneg

end Count

/-! ## 3. Counts over a range -/

/-- What a view shows at a point: the escape count, spread over its range if wanted. -/
def Mandelbrot.shown (view : Mandelbrot α) (x z : α) : α :=
  if view.remap then view.spread (view.count x z) else Scalar.ofInt (view.count x z)

theorem Mandelbrot.spread_eq (view : Mandelbrot Rat) (some : 0 < view.steps) (count : Int) :
    view.spread count = blend view.remapMin view.remapMax (count / view.steps) := by
  have spread : view.spread count =
      (count : Rat) / (view.steps : Int) * (view.remapMax - view.remapMin) + view.remapMin :=
    if_neg some.ne'
  rw [spread, blend_eq, Int.cast_natCast]
  ring

theorem Mandelbrot.spread_mem (view : Mandelbrot Rat) (some : 0 < view.steps) {count : Int}
    (nonneg : 0 ≤ count) (le : count ≤ view.steps) :
    view.spread count ∈ Set.uIcc view.remapMin view.remapMax := by
  have positive : (0 : Rat) < view.steps := Nat.cast_pos.mpr some
  rw [view.spread_eq some]
  refine blend_mem ⟨?_, ?_⟩ Set.left_mem_uIcc Set.right_mem_uIcc
  · exact div_nonneg (Int.cast_nonneg nonneg) positive.le
  · rw [div_le_one positive]
    exact_mod_cast le

/-! ## 4. Limits and nodes -/

/-- A smaller limit caps the count under a larger one, at every point. At a finite point the count
under a limit that is not negative is the least index of an iterate outside the circle, or the limit
if there is none up to it. A node that spreads the count shows a value of its range, read over the
rational numbers. -/
theorem escapeCount_capped (x z : α) {limit limit' : Int} (le : limit ≤ limit') :
    escapeCount x z limit = min (escapeCount x z limit') limit ∧
      (IsFinitePoint x z → 0 ≤ limit → CountsEscape x z limit (escapeCount x z limit)) ∧
      (∀ (view : Mandelbrot Float) (role : String) (s : Surroundings), view.remap = true →
        (Params.mandelbrot view).rule role s =
          some (.number (view.shown s.point.x s.point.z))) ∧
      ∀ (view : Mandelbrot Rat) (x z : Rat), view.remap = true → 0 < view.steps →
        view.shown x z ∈ Set.uIcc view.remapMin view.remapMax := by
  refine ⟨escapeCount_min x z le, fun finite => countsEscape finite, ?_, ?_⟩
  · intro view role s remap
    rw [Params.rule, Mandelbrot.value?, Mandelbrot.shown, if_pos remap, if_pos remap]
    rfl
  · intro view x z remap some
    have count := escapeCount_mem (x / view.scale + view.offsetX) (z / view.scale + view.offsetZ)
      (Nat.cast_nonneg view.steps)
    rw [Mandelbrot.shown, if_pos remap]
    exact view.spread_mem some count.1 count.2

/-- A view that spreads up to three steps from five down to two. -/
def falling (α : Type) [Scalar α] : Mandelbrot α where
  scale := Scalar.ofInt 1
  offsetX := Scalar.ofInt 0
  offsetZ := Scalar.ofInt 0
  steps := 3
  remap := true
  remapMin := Scalar.ofInt 5
  remapMax := Scalar.ofInt 2

/-- The orbit of one leaves the circle with its third iterate, which is five. -/
theorem one_escapeCount_capped :
    (escapeCount (1 : Float) 0 5 = 2 ∧ escapeCount (1 : Float) 0 1 = 1) ∧
      escapeCount (1 : Float) 0 1 = min (escapeCount (1 : Float) 0 5) 1 ∧
      CountsEscape (1 : Float) 0 1 (escapeCount (1 : Float) 0 1) ∧
      (∀ s, (Params.mandelbrot (falling Float)).rule "out" s =
        some (.number ((falling Float).shown s.point.x s.point.z))) ∧
      (falling Rat).shown 1 0 ∈ Set.uIcc 5 2 := by
  obtain ⟨least, counts, shows, between⟩ :=
    escapeCount_capped (1 : Float) 0 (by decide : (1 : Int) ≤ 5)
  have finite : IsFinitePoint (1 : Float) 0 := ⟨by decide +kernel, by decide +kernel⟩
  exact ⟨by decide +kernel, least, counts finite (by decide),
    fun s => shows (falling Float) "out" s rfl, between (falling Rat) 1 0 rfl (by decide)⟩

end Landform.Noise
