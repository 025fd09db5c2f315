import Landform.Decimal.Read
import Landform.Proofs.Decimal.Nearest

/-!
# The shortest decimal of a double reads back

The shortest decimal of a double is found by trying lengths from one digit on. It lies near the
double, since seventeen digits are fine enough to come near any double, and so it is rounded to the
double when it is read.

1. `zpow_magnitudeOf_le`: the number of digits before the point.
2. `near_shortest`: the shortest decimal is near the double.
3. `ofDecimal_of_near`: a decimal near a double is read as the double.
-/

namespace Landform.Decimal

-- Powers are those of the core library, whatever other instances are around.
attribute [local instance (5000)] instPowNat

/-- The number that a decimal stands for. -/
def Scientific.value (s : Scientific) : Rat :=
  s.digits * 10 ^ s.exponent

/-! ## 1. The number of digits before the point -/

theorem zpow_eq_div (b : Rat) (k : Int) : b ^ k = b ^ k.toNat / b ^ (-k).toNat := by
  rcases Int.le_total 0 k with up | down
  · obtain ⟨n, rfl⟩ := Int.eq_ofNat_of_zero_le up
    simp
  · obtain ⟨n, rfl⟩ : ∃ n : Nat, k = -n := ⟨(-k).toNat, by omega⟩
    simp [zpow_neg]

/-- The estimate of the number of digits before the point from the number of bits. -/
def estimate (bits : Int) : Int :=
  bits * 30103 / 100000

/-- Over the range of the doubles, `30103 / 100000` is near enough to the logarithm of two. -/
theorem estimate_table : ((List.range 2200).all fun (n : Nat) =>
    let bits : Int := n - 1100
    10 ^ (estimate bits - 2).toNat * 2 ^ (-(bits - 1)).toNat ≤
      2 ^ (bits - 1).toNat * 10 ^ (-(estimate bits - 2)).toNat) = true := by
  decide +kernel

theorem zpow_estimate_le {bits : Int} (low : -1100 ≤ bits) (high : bits < 1100) :
    (10 : Rat) ^ (estimate bits - 2) ≤ 2 ^ (bits - 1) := by
  obtain ⟨n, rfl⟩ : ∃ n : Nat, bits = n - 1100 := ⟨(bits + 1100).toNat, by omega⟩
  have row := of_decide_eq_true
    (List.all_eq_true.mp estimate_table n (List.mem_range.mpr (by omega)))
  rw [zpow_eq_div, zpow_eq_div, div_le_div_iff₀ (by positivity) (by positivity)]
  exact_mod_cast row

/-- The greatest of three powers that a number is known to reach, or else a lower one. -/
theorem zpow_choice {q : Rat} (guess : Int) {r : Int → Bool}
    (reaches : ∀ k, r k = true → (10 : Rat) ^ k ≤ q) (fewer : (10 : Rat) ^ (guess - 2) ≤ q) :
    (10 : Rat) ^ ((if r (guess + 1) then guess + 2 else if r guess then guess + 1
      else if r (guess - 1) then guess else guess - 1) - 1) ≤ q := by
  split_ifs with two one zero
  · rw [show guess + 2 - 1 = guess + 1 by ring]
    exact reaches _ two
  · rw [show guess + 1 - 1 = guess by ring]
    exact reaches _ one
  · exact reaches _ zero
  · rw [show guess - 1 - 1 = guess - 2 by ring]
    exact fewer

/-- The number of digits before the point is not overestimated. -/
theorem zpow_magnitudeOf_le {num den : Nat} (numPos : 0 < num) (denPos : 0 < den)
    (low : (2 : Rat) ^ (-1099 : Int) ≤ num / den) (high : (num : Rat) / den < 2 ^ (1098 : Int)) :
    (10 : Rat) ^ (magnitudeOf num den - 1) ≤ num / den := by
  have denPos' : (0 : Rat) < den := by exact_mod_cast denPos
  obtain ⟨below, above⟩ := ratio_bounds numPos denPos
  have reaches {k : Int} (reached : (if 0 ≤ k then decide (den * 10 ^ k.toNat ≤ num)
      else decide (den ≤ num * 10 ^ (-k).toNat)) = true) : (10 : Rat) ^ k ≤ num / den := by
    rw [le_div_iff₀ denPos']
    split at reached
    · next up =>
      obtain ⟨n, rfl⟩ := Int.eq_ofNat_of_zero_le up
      have reached : (den * 10 ^ n : Rat) ≤ num := by exact_mod_cast of_decide_eq_true reached
      rw [zpow_natCast]
      linarith
    · next down =>
      obtain ⟨n, rfl⟩ : ∃ n : Nat, k = -n := ⟨(-k).toNat, by omega⟩
      rw [neg_neg, Int.toNat_natCast] at reached
      have reached : (den : Rat) ≤ num * 10 ^ n := by exact_mod_cast of_decide_eq_true reached
      rw [zpow_neg, zpow_natCast, inv_mul_le_iff₀ (by positivity)]
      linarith
  have fewer : (10 : Rat) ^ (estimate ((num.log2 : Int) - den.log2) - 2) ≤ num / den := by
    have lower := zpow_two_lt (low.trans_lt above)
    have upper := zpow_two_lt (below.trans high)
    exact (zpow_estimate_le (by omega) (by omega)).trans below.le
  exact zpow_choice _ (r := fun k => if 0 ≤ k then decide (den * 10 ^ k.toNat ≤ num)
    else decide (den ≤ num * 10 ^ (-k).toNat)) (fun _ => reaches) fewer

/-! ## 2. The shortest decimal -/

theorem Near.of_lt {m : Nat} {e : Int} {q : Rat} (lower : m - reachBelow m e < q / 2 ^ e)
    (upper : q / 2 ^ e < m + 1 / 2) : Near m e q :=
  ⟨lower.le, upper.le, fun tie => (tie.elim lower.ne' upper.ne).elim⟩

theorem Near.pos {m : Nat} (pos : 0 < m) {e : Int} {q : Rat} (near : Near m e q) : 0 < q := by
  have one : (1 : Rat) ≤ m := by exact_mod_cast pos
  have reach := (quarter_le_reachBelow m e).2
  have power : (0 : Rat) < 2 ^ e := by positivity
  have lower := near.lower
  exact (div_pos_iff_of_pos_right power).mp (by linarith)

/-- A multiple of a power of ten as a quotient. -/
theorem contains_multiple {m : Nat} (pos : 0 < m) (e k : Int) (d : Nat) :
    (if 0 ≤ k then (interval m e).contains (d * 10 ^ k.toNat) 1
      else (interval m e).contains d (10 ^ (-k).toNat)) = true ↔ Near m e (d * 10 ^ k) := by
  split
  · next up =>
    obtain ⟨n, rfl⟩ := Int.eq_ofNat_of_zero_le up
    rw [contains_iff pos e (by decide)]
    simp
  · next down =>
    obtain ⟨n, rfl⟩ : ∃ n : Nat, k = -n := ⟨(-k).toNat, by omega⟩
    rw [contains_iff pos e (by positivity)]
    simp [div_eq_mul_inv]

/-- A decimal that is tried has a neighbour on its grid, and is found only if it reads back. -/
theorem near_of_decimal? {m : Nat} (pos : 0 < m) {e k : Int} {s : Scientific}
    (found : (interval m e).decimal? k = some s) : Near m e s.value := by
  unfold Interval.decimal? at found
  dsimp only at found
  have hit {d : Nat} := (contains_multiple pos e k d).mp
  split at found
  · next lower upper =>
    cases found
    rw [Scientific.value]
    dsimp only
    split
    · exact hit upper
    · exact hit lower
  · next lower _ =>
    cases found
    exact hit lower
  · next _ upper =>
    cases found
    exact hit upper
  · cases found

theorem inUnits_ratio (num : Nat) {den : Nat} (pos : 0 < den) (k : Int) :
    0 < (inUnits num den k).2 ∧
      ((inUnits num den k).1 : Rat) / (inUnits num den k).2 = num / den / 10 ^ k := by
  unfold inUnits
  split
  · next up =>
    obtain ⟨n, rfl⟩ := Int.eq_ofNat_of_zero_le up
    refine ⟨by positivity, ?_⟩
    simp [div_div]
  · next down =>
    obtain ⟨n, rfl⟩ : ∃ n : Nat, k = -n := ⟨(-k).toNat, by omega⟩
    refine ⟨pos, ?_⟩
    simp only [neg_neg, Int.toNat_natCast, zpow_neg, zpow_natCast]
    push_cast
    field_simp

/-- The middle of the interval of a double is the double. -/
theorem interval_middle {m : Nat} (pos : 0 < m) (e : Int) : 0 < (interval m e).value ∧
    0 < (interval m e).den ∧ ((interval m e).value : Rat) / (interval m e).den = m * 2 ^ e := by
  obtain ⟨u, w, uPos, wPos, unit, made⟩ := interval_eq pos e
  rw [made]
  refine ⟨by positivity, by positivity, ?_⟩
  rw [← unit]
  push_cast
  field_simp

/-- On a grid that is finer than the reach of a double, one of its neighbours reads back. -/
theorem decimal?_isSome {m : Nat} (pos : 0 < m) {e k : Int}
    (fine : (10 : Rat) ^ k / 2 ^ e < 1 / 2 + reachBelow m e) :
    ((interval m e).decimal? k).isSome = true := by
  obtain ⟨-, denPos, middle⟩ := interval_middle pos e
  obtain ⟨unitPos, ratio⟩ := inUnits_ratio (interval m e).value denPos k
  have power : (0 : Rat) < 2 ^ e := by positivity
  have grid : (0 : Rat) < 10 ^ k := by positivity
  have reach := (quarter_le_reachBelow m e).1
  rw [middle] at ratio
  unfold Interval.decimal?
  dsimp only
  generalize (inUnits (interval m e).value (interval m e).den k).1 = num at *
  generalize (inUnits (interval m e).value (interval m e).den k).2 = den at *
  have below : ((num / den : Nat) : Rat) * 10 ^ k / 2 ^ e ≤ m := by
    have := Nat.cast_div_le (α := Rat) (m := num) (n := den)
    rw [ratio, le_div_iff₀ grid] at this
    rwa [div_le_iff₀ power]
  have above : (m : Rat) < ((num / den + 1 : Nat) : Rat) * 10 ^ k / 2 ^ e := by
    have unitPos' : (0 : Rat) < den := by exact_mod_cast unitPos
    have : (num : Rat) < (num / den + 1 : Nat) * den := by
      exact_mod_cast Nat.lt_mul_of_div_lt (Nat.lt_succ_self _) unitPos
    rw [← div_lt_iff₀ unitPos', ratio, div_lt_iff₀ grid] at this
    rwa [lt_div_iff₀ power]
  have near : Near m e ((num / den : Nat) * 10 ^ k) ∨
      Near m e ((num / den + 1 : Nat) * 10 ^ k) := by
    by_contra neither
    obtain ⟨notLower, notUpper⟩ := not_or.mp neither
    have low := mt (fun less => Near.of_lt less (by linarith)) notLower
    have high := mt (fun less => Near.of_lt (by linarith) less) notUpper
    push_cast at high low
    rw [add_mul, one_mul, add_div] at high
    linarith
  have hits {d : Nat} := contains_multiple pos e k d
  split
  · rfl
  · rfl
  · rfl
  · next lower upper =>
    rcases near with near | near
    · exact absurd (hits.mpr near) (by simp [lower])
    · exact absurd (hits.mpr near) (by simp [upper])

/-- Seventeen digits are fine enough for every double. -/
theorem seventeen_fine {m : Nat} (small : m < 2 ^ 53) {e k : Int}
    (grid : (10 : Rat) ^ (k + 16) ≤ m * 2 ^ e) :
    (10 : Rat) ^ k / 2 ^ e < 1 / 2 + reachBelow m e := by
  have power : (0 : Rat) < 2 ^ e := by positivity
  have small' : (m : Rat) + 1 ≤ 2 ^ 53 := by exact_mod_cast small
  have step : (10 : Rat) ^ k / 2 ^ e * 10 ^ 16 ≤ m := by
    rw [zpow_add₀ (by norm_num)] at grid
    rw [div_mul_eq_mul_div, div_le_iff₀ power]
    exact_mod_cast grid
  unfold reachBelow
  split
  · next edge =>
    rw [edge.1] at step
    norm_num at step ⊢
    linarith
  · norm_num at step small' ⊢
    linarith

/-- The shortest decimal of a double reads back as the double. -/
theorem near_shortest {m : Nat} (pos : 0 < m) {e : Int} (canonical : Canonical m e) :
    Near m e (shortest m e).value := by
  obtain ⟨valuePos, denPos, middle⟩ := interval_middle pos e
  have one : (1 : Rat) ≤ m := by exact_mod_cast pos
  have small : (m : Rat) + 1 ≤ 2 ^ 53 := by exact_mod_cast canonical.small
  have low : (2 : Rat) ^ (-1099 : Int) ≤ (interval m e).value / (interval m e).den := by
    rw [middle]
    have := canonical.least
    calc (2 : Rat) ^ (-1099 : Int) ≤ 2 ^ e := zpow_le_zpow_right₀ (by norm_num) (by omega)
      _ ≤ m * 2 ^ e := le_mul_of_one_le_left (by positivity) one
  have high : ((interval m e).value : Rat) / (interval m e).den < 2 ^ (1098 : Int) := by
    rw [middle]
    have := canonical.most
    calc (m : Rat) * 2 ^ e < 2 ^ 53 * 2 ^ e := by gcongr; linarith
      _ = 2 ^ (53 + e) := by rw [zpow_two_add]; norm_cast
      _ ≤ 2 ^ (1098 : Int) := zpow_le_zpow_right₀ (by norm_num) (by omega)
  have magnitude := zpow_magnitudeOf_le valuePos denPos low high
  rw [middle] at magnitude
  unfold shortest
  dsimp only
  generalize magnitudeOf (interval m e).value (interval m e).den = digits at *
  have found : ((List.range 17).findSome? fun (n : Nat) =>
      (interval m e).decimal? (digits - n - 1)).isSome = true := by
    refine List.findSome?_isSome_iff.mpr ⟨16, by simp, decimal?_isSome pos ?_⟩
    refine seventeen_fine canonical.small ?_
    rwa [show digits - ((16 : Nat) : Int) - 1 + 16 = digits - 1 by push_cast; ring]
  split
  · next decimal given =>
    obtain ⟨n, -, same⟩ := List.exists_of_findSome?_eq_some given
    exact near_of_decimal? pos same
  · next none =>
    rw [none] at found
    cases found

/-! ## 3. Reading decimals -/

/-- A number that rounds to a double lies within the range of the doubles. -/
theorem Near.range {m : Nat} (pos : 0 < m) {e : Int} (canonical : Canonical m e) {q : Rat}
    (near : Near m e q) : (2 : Rat) ^ (-1075 : Int) ≤ q ∧ q < 2 ^ (1024 : Int) := by
  have one : (1 : Rat) ≤ m := by exact_mod_cast pos
  have small : (m : Rat) + 1 ≤ 2 ^ 53 := by exact_mod_cast canonical.small
  have reach := (quarter_le_reachBelow m e).2
  have least := canonical.least
  have most := canonical.most
  have power : (0 : Rat) < 2 ^ e := by positivity
  have lower := near.lower
  have upper := near.upper
  rw [le_div_iff₀ power] at lower
  rw [div_le_iff₀ power] at upper
  constructor
  · calc (2 : Rat) ^ (-1075 : Int) ≤ 2 ^ (-1 + e) := zpow_le_zpow_right₀ (by norm_num) (by omega)
      _ = 1 / 2 * 2 ^ e := by rw [zpow_two_add]; norm_num
      _ ≤ (m - reachBelow m e) * 2 ^ e := by gcongr; linarith
      _ ≤ q := lower
  · calc q ≤ (m + 1 / 2) * 2 ^ e := upper
      _ < 2 ^ 53 * 2 ^ e := by gcongr; linarith
      _ = 2 ^ (53 + e) := by rw [zpow_two_add]; norm_cast
      _ ≤ 2 ^ (1024 : Int) := zpow_le_zpow_right₀ (by norm_num) (by omega)

theorem ten_neg_le_two_neg : (10 : Rat) ^ (-401 : Int) ≤ 2 ^ (-1075 : Int) := by
  have powers : 2 ^ 1075 ≤ 10 ^ 401 := by decide +kernel
  have powers : (2 : Rat) ^ 1075 ≤ 10 ^ 401 := by exact_mod_cast powers
  rw [zpow_neg, zpow_neg]
  exact inv_anti₀ (by positivity) (by exact_mod_cast powers)

theorem two_le_ten : (2 : Rat) ^ (1024 : Int) ≤ 10 ^ (400 : Int) := by
  have powers : 2 ^ 1024 ≤ 10 ^ 400 := by decide +kernel
  exact_mod_cast powers

/-- The number of digits tells the magnitude of a natural number. -/
theorem natWidth_bounds {n : Nat} (pos : 0 < n) :
    10 ^ (ofDecimal.natWidth n - 1) ≤ n ∧ n < 10 ^ ofDecimal.natWidth n ∧
      0 < ofDecimal.natWidth n := by
  have some : 0 < (Nat.toDigits 10 n).length := Nat.length_toDigits_pos
  unfold ofDecimal.natWidth
  refine ⟨?_, (Nat.length_toDigits_le_iff (by decide) some).mp le_rfl, some⟩
  rcases Nat.eq_zero_or_pos ((Nat.toDigits 10 n).length - 1) with zero | positive
  · rw [zero]
    exact pos
  · by_contra less
    have := (Nat.length_toDigits_le_iff (by decide) positive).mpr (not_le.mp less)
    omega

/-- A decimal within the range of the doubles has its point near its digits. -/
theorem natWidth_range {digits : Nat} (some : 0 < digits) {exponent : Int}
    (low : (2 : Rat) ^ (-1075 : Int) ≤ digits * 10 ^ exponent)
    (high : digits * 10 ^ exponent < (2 : Rat) ^ (1024 : Int)) :
    -400 ≤ (ofDecimal.natWidth digits : Int) + exponent ∧
      (ofDecimal.natWidth digits : Int) + exponent ≤ 400 := by
  obtain ⟨least, most, width⟩ := natWidth_bounds some
  have grid : (0 : Rat) < 10 ^ exponent := by positivity
  constructor
  · by_contra small
    have most : (digits : Rat) < 10 ^ (ofDecimal.natWidth digits : Int) := by exact_mod_cast most
    have : (digits : Rat) * 10 ^ exponent < 2 ^ (-1075 : Int) := calc
      (digits : Rat) * 10 ^ exponent < 10 ^ (ofDecimal.natWidth digits : Int) * 10 ^ exponent := by
        gcongr
      _ = 10 ^ ((ofDecimal.natWidth digits : Int) + exponent) := by rw [zpow_add₀ (by norm_num)]
      _ ≤ 10 ^ (-401 : Int) := zpow_le_zpow_right₀ (by norm_num) (by omega)
      _ ≤ 2 ^ (-1075 : Int) := ten_neg_le_two_neg
    linarith
  · by_contra large
    have before : (ofDecimal.natWidth digits : Int) - 1 =
        ((ofDecimal.natWidth digits - 1 : Nat) : Int) := by
      omega
    have least : (10 : Rat) ^ ((ofDecimal.natWidth digits : Int) - 1) ≤ digits := by
      rw [before]
      exact_mod_cast least
    have : (2 : Rat) ^ (1024 : Int) ≤ digits * 10 ^ exponent := calc
      (2 : Rat) ^ (1024 : Int) ≤ 10 ^ (400 : Int) := two_le_ten
      _ ≤ 10 ^ ((ofDecimal.natWidth digits : Int) - 1 + exponent) :=
        zpow_le_zpow_right₀ (by norm_num) (by omega)
      _ = 10 ^ ((ofDecimal.natWidth digits : Int) - 1) * 10 ^ exponent := by
        rw [zpow_add₀ (by norm_num)]
      _ ≤ digits * 10 ^ exponent := by gcongr
    linarith

/-- A decimal that rounds to a double is read as the double. -/
theorem ofDecimal_of_near {negative : Bool} {digits m : Nat} {exponent e : Int} (pos : 0 < m)
    (canonical : Canonical m e) (near : Near m e (digits * 10 ^ exponent)) :
    ofDecimal negative digits exponent = ofMagnitude negative (bitsOf m e) := by
  obtain ⟨low, high⟩ := near.range pos canonical
  have some : 0 < digits := by
    by_contra none
    have zero : digits = 0 := by omega
    have := near.pos pos
    rw [zero] at this
    simp at this
  obtain ⟨notSmall, notLarge⟩ := natWidth_range some low high
  unfold ofDecimal
  dsimp only
  rw [if_neg (by simp [some.ne', notSmall]), if_neg (not_lt.mpr notLarge)]
  split
  · next up =>
    obtain ⟨n, rfl⟩ := Int.eq_ofNat_of_zero_le up
    rw [Int.toNat_natCast, ofQuotient?, magnitude?_of_near (by positivity) (by decide) canonical
      (by simpa using near)]
    rfl
  · next down =>
    obtain ⟨n, rfl⟩ : ∃ n : Nat, exponent = -n := ⟨(-exponent).toNat, by omega⟩
    rw [neg_neg, Int.toNat_natCast, ofQuotient?, magnitude?_of_near some (by positivity) canonical
      (by simpa [div_eq_mul_inv] using near)]
    rfl

end Landform.Decimal
