import Landform.Decimal.Shortest
import Landform.Proofs.Decimal.Special
import Mathlib

/-!
# The double nearest to a quotient

A finite double is a mantissa times a power of two, and it is what every number rounds to that lies
between the middles to its neighbours; a middle itself counts if the mantissa is even. Rounding a
quotient finds this power and this mantissa.

1. `eq_of_finite`: a finite double is made of its parts.
2. `roundQuotient_eq`, `exponentFor_eq`: rounding to a whole number, and the power of two.
3. `Near`, `magnitude?_of_near`: the numbers near a double round to it.
4. `contains_iff`: the interval of a printer holds just the numbers near the double.
-/

namespace Landform.Decimal

-- Powers are those of the core library, whatever other instances are around.
attribute [local instance (5000)] instPowNat

/-! ## 1. The parts of a double -/

/-- A mantissa and an exponent that a double has. -/
structure Canonical (mantissa : Nat) (exponent : Int) : Prop where
  small : mantissa < 2 ^ 53
  least : -1074 ≤ exponent
  most : exponent ≤ 971
  full : 2 ^ 52 ≤ mantissa ∨ exponent = -1074

/-- The bits of the absolute value of a double. -/
def bitsOf (mantissa : Nat) (exponent : Int) : Nat :=
  if mantissa < 2 ^ 52 then mantissa
  else (exponent + 1075).toNat * 2 ^ 52 + (mantissa - 2 ^ 52)

theorem ofBits_toBits (x : Float) : Float.ofBits x.toBits = x := by
  show Float.ofModel (Float.Model.pack x.toModel.unpack) = x
  rw [pack_unpack]

/-- A finite double is made of its parts. -/
theorem eq_of_finite {x : Float} {negative : Bool} {mantissa : Nat} {exponent : Int}
    (finite : form x = .finite negative mantissa exponent) :
    Canonical mantissa exponent ∧ x = ofMagnitude negative (bitsOf mantissa exponent) := by
  have bound := x.toBits.toNat_lt
  have same : Float.ofBits (UInt64.ofNat x.toBits.toNat) = x := by
    rw [UInt64.ofNat_toNat, ofBits_toBits]
  unfold form at finite
  generalize x.toBits.toNat = bits at finite bound same
  -- the first bit is the sign
  have made {n : Nat} (rest : n = bits % 2 ^ 63) : x = ofMagnitude (bits / 2 ^ 63 == 1) n := by
    have split : n + (if bits / 2 ^ 63 == 1 then 2 ^ 63 else 0) = bits := by
      simp only [beq_iff_eq]
      split <;> omega
    rw [ofMagnitude, split, ← same]
  simp only [beq_iff_eq] at finite
  split at finite
  · split at finite <;> cases finite
  · next finite' =>
    split at finite
    · next lowest =>
      cases finite
      refine ⟨⟨by omega, le_rfl, by decide, .inr rfl⟩, made ?_⟩
      rw [bitsOf, if_pos (by omega)]
      omega
    · next higher =>
      cases finite
      refine ⟨⟨by omega, by omega, by omega, .inl (by omega)⟩, made ?_⟩
      rw [bitsOf, if_neg (by omega)]
      omega

/-! ## 2. Rounding quotients -/

/-- A number rounds to an integer: it is at most one half away, and less than that from an odd
one. -/
structure RoundsTo (q : Rat) (m : Nat) : Prop where
  lower : (m : Rat) - 1 / 2 ≤ q
  upper : q ≤ m + 1 / 2
  even : (q = m - 1 / 2 ∨ q = m + 1 / 2) → m % 2 = 0

/-- Rounding a quotient, in whole numbers. -/
theorem roundQuotient_eq_of_bounds {num den m : Nat} (pos : 0 < den)
    (lower : 2 * (m * den) ≤ 2 * num + den) (upper : 2 * num ≤ 2 * (m * den) + den)
    (even : 2 * (m * den) = 2 * num + den ∨ 2 * num = 2 * (m * den) + den → m % 2 = 0) :
    roundQuotient num den = m := by
  have parts := Nat.div_add_mod num den
  have rest := Nat.mod_lt num pos
  unfold roundQuotient
  generalize num / den = whole at parts ⊢
  generalize num % den = r at parts rest ⊢
  have near : m = whole ∨ m = whole + 1 := by
    rcases Nat.lt_or_ge m whole with less | least
    · have := Nat.mul_le_mul_right den less
      have : whole * den = den * whole := Nat.mul_comm _ _
      rw [Nat.succ_mul] at *
      omega
    · rcases Nat.lt_or_ge (whole + 1) m with more | most
      · have := Nat.mul_le_mul_right den more
        have : whole * den = den * whole := Nat.mul_comm _ _
        simp only [Nat.succ_eq_add_one, Nat.add_mul, Nat.one_mul] at *
        omega
      · omega
  dsimp only
  rcases near with rfl | rfl
  · rw [Nat.mul_comm m den] at *
    split
    · rfl
    · split
      · omega
      · have := even (by omega)
        omega
  · rw [Nat.add_mul, Nat.one_mul, Nat.mul_comm whole den] at *
    split
    · omega
    · split
      · rfl
      · have := even (by omega)
        omega

theorem roundQuotient_eq {num den m : Nat} (pos : 0 < den) (rounds : RoundsTo (num / den) m) :
    roundQuotient num den = m := by
  have pos' : (0 : Rat) < den := by exact_mod_cast pos
  obtain ⟨lower, upper, even⟩ := rounds
  rw [le_div_iff₀ pos'] at lower
  rw [div_le_iff₀ pos'] at upper
  rw [div_eq_iff pos'.ne', div_eq_iff pos'.ne'] at even
  refine roundQuotient_eq_of_bounds pos ?_ ?_ fun tie =>
    even (tie.imp (fun tie => ?_) fun tie => ?_)
  · have : (2 * (m * den) : Rat) ≤ 2 * num + den := by linarith
    exact_mod_cast this
  · have : (2 * num : Rat) ≤ 2 * (m * den) + den := by linarith
    exact_mod_cast this
  · have : (2 * (m * den) : Rat) = 2 * num + den := by exact_mod_cast tie
    linarith
  · have : (2 * num : Rat) = 2 * (m * den) + den := by exact_mod_cast tie
    linarith

theorem scale_ratio (num : Nat) {den : Nat} (pos : 0 < den) (k : Int) :
    0 < (scale num den k).2 ∧
      ((scale num den k).1 : Rat) / (scale num den k).2 = num / den * 2 ^ k := by
  unfold scale
  split
  · next up =>
    obtain ⟨k, rfl⟩ := Int.eq_ofNat_of_zero_le up
    refine ⟨pos, ?_⟩
    simp [Nat.shiftLeft_eq]
    ring
  · next down =>
    obtain ⟨k, rfl⟩ : ∃ n : Nat, k = -n := ⟨(-k).toNat, by omega⟩
    simp [Nat.shiftLeft_eq, zpow_neg]
    refine ⟨pos, ?_⟩
    field_simp

/-- A positive quotient lies between the powers of two that the bits of its terms tell. -/
theorem ratio_bounds {num den : Nat} (numPos : 0 < num) (denPos : 0 < den) :
    (2 : Rat) ^ ((num.log2 : Int) - den.log2 - 1) < num / den ∧
      (num : Rat) / den < 2 ^ ((num.log2 : Int) - den.log2 + 1) := by
  have denPos' : (0 : Rat) < den := by exact_mod_cast denPos
  have numLow : (2 : Rat) ^ (num.log2 : Int) ≤ num := by
    exact_mod_cast Nat.log2_self_le numPos.ne'
  have numHigh : (num : Rat) < 2 ^ ((num.log2 : Int) + 1) := by
    exact_mod_cast Nat.lt_log2_self (n := num)
  have denLow : (2 : Rat) ^ (den.log2 : Int) ≤ den := by
    exact_mod_cast Nat.log2_self_le denPos.ne'
  have denHigh : (den : Rat) < 2 ^ ((den.log2 : Int) + 1) := by
    exact_mod_cast Nat.lt_log2_self (n := den)
  have two : (2 : Rat) ≠ 0 := by norm_num
  constructor
  · rw [lt_div_iff₀ denPos']
    calc (2 : Rat) ^ ((num.log2 : Int) - den.log2 - 1) * den
        < 2 ^ ((num.log2 : Int) - den.log2 - 1) * 2 ^ ((den.log2 : Int) + 1) := by gcongr
      _ = 2 ^ (num.log2 : Int) := by rw [← zpow_add₀ two]; congr 1; omega
      _ ≤ num := numLow
  · rw [div_lt_iff₀ denPos']
    calc (num : Rat) < 2 ^ ((num.log2 : Int) + 1) := numHigh
      _ = 2 ^ ((num.log2 : Int) - den.log2 + 1) * 2 ^ (den.log2 : Int) := by
        rw [← zpow_add₀ two]; congr 1; omega
      _ ≤ 2 ^ ((num.log2 : Int) - den.log2 + 1) * den := by gcongr

theorem zpow_two_lt {a b : Int} (less : (2 : Rat) ^ a < 2 ^ b) : a < b :=
  (zpow_lt_zpow_iff_right₀ (by norm_num)).mp less

theorem zpow_two_add (a b : Int) : (2 : Rat) ^ (a + b) = 2 ^ a * 2 ^ b :=
  zpow_add₀ (by norm_num) a b

/-- The exponent found for a quotient leaves 53 bits before the point, or is the least one. -/
theorem exponentFor_eq {num den : Nat} (numPos : 0 < num) (denPos : 0 < den) {e : Int}
    (least : -1074 ≤ e) (below : (num : Rat) / den < 2 ^ (53 + e))
    (above : (2 : Rat) ^ (52 + e) ≤ num / den ∨ e = -1074) : exponentFor num den = e := by
  obtain ⟨low, high⟩ := ratio_bounds numPos denPos
  generalize ratio : (num : Rat) / den = q at *
  obtain ⟨found, rest, lowest, highest⟩ : ∃ found : Int, exponentFor num den = max found (-1074) ∧
      (2 : Rat) ^ (52 + found) ≤ q ∧ q < 2 ^ (53 + found) := by
    let guess : Int := (num.log2 : Int) - den.log2 - 53
    obtain ⟨pos, same⟩ := scale_ratio num denPos (-guess)
    have pos' : (0 : Rat) < (scale num den (-guess)).2 := by exact_mod_cast pos
    have power : (0 : Rat) < 2 ^ guess := by positivity
    have whole : (scale num den (-guess)).1 / (scale num den (-guess)).2 < 2 ^ 53 ↔
        q < 2 ^ (53 + guess) := by
      rw [Nat.div_lt_iff_lt_mul pos, zpow_two_add, ← div_lt_iff₀ power, div_eq_mul_inv, ← zpow_neg,
        ← ratio, ← same, div_lt_iff₀ pos']
      norm_cast
    refine ⟨if (scale num den (-guess)).1 / (scale num den (-guess)).2 < 2 ^ 53 then guess
      else guess + 1, rfl, ?_⟩
    split
    · next fits =>
      refine ⟨?_, whole.mp fits⟩
      exact (show (52 + guess) = (num.log2 : Int) - den.log2 - 1 by omega) ▸ low.le
    · next exceeds =>
      refine ⟨?_, ?_⟩
      · rw [show 52 + (guess + 1) = 53 + guess by ring]
        exact not_lt.mp (mt whole.mpr exceeds)
      · exact (show (53 + (guess + 1)) = (num.log2 : Int) - den.log2 + 1 by omega) ▸ high
  have notAbove : found ≤ e := by
    have := zpow_two_lt (lowest.trans_lt below)
    omega
  rw [rest]
  rcases above with above | rfl
  · have := zpow_two_lt (above.trans_lt highest)
    omega
  · omega

/-! ## 3. The numbers that round to a double -/

/-- How far the numbers that round to a double reach below it, in units of its last place. Below a
power of two the doubles lie twice as close. -/
def reachBelow (mantissa : Nat) (exponent : Int) : Rat :=
  if mantissa = 2 ^ 52 ∧ -1074 < exponent then 1 / 4 else 1 / 2

/-- A number rounds to the double of a mantissa and an exponent. -/
structure Near (mantissa : Nat) (exponent : Int) (q : Rat) : Prop where
  lower : mantissa - reachBelow mantissa exponent ≤ q / 2 ^ exponent
  upper : q / 2 ^ exponent ≤ mantissa + 1 / 2
  even : (q / 2 ^ exponent = mantissa - reachBelow mantissa exponent ∨
    q / 2 ^ exponent = mantissa + 1 / 2) → mantissa % 2 = 0

theorem quarter_le_reachBelow (m : Nat) (e : Int) :
    1 / 4 ≤ reachBelow m e ∧ reachBelow m e ≤ 1 / 2 := by
  unfold reachBelow
  split <;> norm_num

theorem magnitude?_rounded {num den m : Nat} {e : Int} (numPos : 0 < num) (denPos : 0 < den)
    (exponent : exponentFor num den = e) (rounds : RoundsTo ((num : Rat) / den / 2 ^ e) m) :
    magnitude? num den =
      let bits := if m < 2 ^ 52 then (m : Int) else (e + 1075) * 2 ^ 52 + (m - 2 ^ 52)
      if bits < 2047 * 2 ^ 52 then some bits.toNat else none := by
  obtain ⟨pos, same⟩ := scale_ratio num denPos (-e)
  have rounded : roundQuotient (scale num den (-e)).1 (scale num den (-e)).2 = m := by
    refine roundQuotient_eq pos ?_
    rwa [same, zpow_neg, ← div_eq_mul_inv]
  unfold magnitude?
  rw [if_neg (by simpa using numPos.ne')]
  dsimp only
  rw [exponent, rounded]

section Magnitude

variable {num den m : Nat} {e : Int} (numPos : 0 < num) (denPos : 0 < den)
  (canonical : Canonical m e) (near : Near m e (num / den))

include numPos denPos canonical near

/-- A quotient within the range of the power of two of a double. -/
theorem magnitude?_within (low : (2 : Rat) ^ (52 + e) ≤ num / den ∨ e = -1074) :
    magnitude? num den = some (bitsOf m e) := by
  obtain ⟨small, least, most, full⟩ := canonical
  obtain ⟨lower, upper, even⟩ := near
  have half := (quarter_le_reachBelow m e).2
  have high : (num : Rat) / den < 2 ^ (53 + e) := by
    have small' : (m : Rat) + 1 ≤ 2 ^ 53 := by exact_mod_cast small
    rw [zpow_two_add, ← div_lt_iff₀ (by positivity)]
    norm_num at small' ⊢
    linarith
  have rounds : RoundsTo ((num : Rat) / den / 2 ^ e) m := by
    refine ⟨by linarith, upper, fun tie => even (tie.imp_left fun tie => ?_)⟩
    linarith
  rw [magnitude?_rounded numPos denPos (exponentFor_eq numPos denPos least high low) rounds, bitsOf]
  dsimp only
  by_cases short : m < 2 ^ 52
  · rw [if_pos short, if_pos short, if_pos (by omega), Int.toNat_natCast]
  · rw [if_neg short, if_neg short, if_pos (by omega)]
    exact congrArg some (by omega)

/-- A quotient below the range of the power of two of a double is rounded up from the power before
it. -/
theorem magnitude?_below (low : (num : Rat) / den < 2 ^ (52 + e)) (normal : e ≠ -1074) :
    magnitude? num den = some (bitsOf m e) := by
  obtain ⟨small, least, most, full⟩ := canonical
  obtain ⟨lower, upper, -⟩ := near
  have half := (quarter_le_reachBelow m e).2
  have power : (0 : Rat) < 2 ^ e := by positivity
  generalize ratio : (num : Rat) / den / 2 ^ e = r at *
  have scaled : (num : Rat) / den = r * 2 ^ e := by rw [← ratio, div_mul_cancel₀ _ power.ne']
  have low : r < 2 ^ 52 := by
    rw [scaled, zpow_two_add] at low
    exact_mod_cast lt_of_mul_lt_mul_right low power.le
  have edge : m = 2 ^ 52 := by
    refine le_antisymm ?_ (full.resolve_right normal)
    have : (m : Rat) < 2 ^ 52 + 1 := by linarith
    have : m < 2 ^ 52 + 1 := by exact_mod_cast this
    omega
  subst edge
  rw [reachBelow, if_pos ⟨rfl, by omega⟩] at lower
  push_cast at lower
  have exponent : exponentFor num den = e - 1 := by
    refine exponentFor_eq numPos denPos (by omega) ?_ (.inl ?_)
    · rw [scaled, show 53 + (e - 1) = 52 + e by ring, zpow_two_add]
      gcongr
      exact_mod_cast low
    · rw [scaled, show 52 + (e - 1) = 51 + e by ring, zpow_two_add]
      gcongr
      norm_num at lower ⊢
      linarith
  have rounds : RoundsTo ((num : Rat) / den / 2 ^ (e - 1)) (2 ^ 53) := by
    have double : (num : Rat) / den / 2 ^ (e - 1) = 2 * r := by
      rw [scaled, zpow_sub_one₀ (by norm_num)]
      field_simp
    rw [double]
    refine ⟨?_, ?_, fun _ => by decide⟩ <;> push_cast <;> linarith
  rw [magnitude?_rounded numPos denPos exponent rounds, bitsOf]
  dsimp only
  rw [if_neg (show ¬ 2 ^ 53 < 2 ^ 52 by decide), if_neg (show ¬ 2 ^ 52 < 2 ^ 52 by decide),
    if_pos (by omega)]
  exact congrArg some (by omega)

/-- A quotient that rounds to a double has its bits. -/
theorem magnitude?_of_near : magnitude? num den = some (bitsOf m e) := by
  by_cases low : (2 : Rat) ^ (52 + e) ≤ num / den ∨ e = -1074
  · exact magnitude?_within numPos denPos canonical near low
  · obtain ⟨low, normal⟩ := not_or.mp low
    exact magnitude?_below numPos denPos canonical near (not_le.mp low) normal

end Magnitude

/-- The interval of a double as integers over one denominator. -/
theorem interval_eq {m : Nat} (pos : 0 < m) (e : Int) : ∃ u w : Nat, 0 < u ∧ 0 < w ∧
    (u : Rat) / w = 2 ^ e ∧ interval m e =
      ⟨4 * m * u - (if m == 2 ^ 52 && -1074 < e then u else 2 * u), 4 * m * u,
        4 * m * u + 2 * u, 4 * w, m % 2 == 0⟩ := by
  unfold interval scale
  by_cases up : 0 ≤ e
  · obtain ⟨k, rfl⟩ := Int.eq_ofNat_of_zero_le up
    refine ⟨2 ^ k, 1, by positivity, by decide, by simp, ?_⟩
    simp only [if_pos up, Int.toNat_natCast, Nat.shiftLeft_eq]
    rw [Nat.mul_div_cancel_left _ (by omega)]
  · obtain ⟨k, rfl⟩ : ∃ n : Nat, e = -n := ⟨(-e).toNat, by omega⟩
    refine ⟨1, 2 ^ k, by decide, by positivity, by simp [zpow_neg], ?_⟩
    simp only [if_neg up, neg_neg, Int.toNat_natCast, Nat.shiftLeft_eq, Nat.mul_one]
    rw [Nat.div_self (by omega)]

/-- An interval as an interval of numbers: its ends belong to it if it is closed. -/
theorem Interval.contains_iff (i : Interval) (iPos : 0 < i.den) {num den : Nat} (denPos : 0 < den) :
    i.contains num den = true ↔
      (i.low : Rat) / i.den ≤ num / den ∧ (num : Rat) / den ≤ i.high / i.den ∧
        ((num : Rat) / den = i.low / i.den ∨ (num : Rat) / den = i.high / i.den →
          i.closed = true) := by
  have iPos' : (0 : Rat) < i.den := by exact_mod_cast iPos
  have denPos' : (0 : Rat) < den := by exact_mod_cast denPos
  have below (a b : Nat) : (a : Rat) / i.den ≤ b / den ↔ a * den ≤ b * i.den := by
    rw [div_le_div_iff₀ iPos' denPos']
    exact_mod_cast Iff.rfl
  have above (a b : Nat) : (b : Rat) / den ≤ a / i.den ↔ b * i.den ≤ a * den := by
    rw [div_le_div_iff₀ denPos' iPos']
    exact_mod_cast Iff.rfl
  unfold contains
  dsimp only
  cases i.closed with
  | true => simp [below, above]
  | false =>
    simp only [Bool.false_eq_true, if_false, Bool.and_eq_true, decide_eq_true_iff, imp_false,
      not_or]
    rw [← not_le, ← not_le, ← above, ← below]
    constructor
    · rintro ⟨lower, upper⟩
      exact ⟨(not_le.mp lower).le, (not_le.mp upper).le, (not_le.mp lower).ne',
        (not_le.mp upper).ne⟩
    · rintro ⟨lower, upper, other, other'⟩
      exact ⟨not_le.mpr (lt_of_le_of_ne lower (Ne.symm other)),
        not_le.mpr (lt_of_le_of_ne upper other')⟩

/-- The ends of the interval of a double. -/
theorem interval_ends {m : Nat} (pos : 0 < m) (e : Int) : 0 < (interval m e).den ∧
    ((interval m e).low : Rat) / (interval m e).den = (m - reachBelow m e) * 2 ^ e ∧
    ((interval m e).high : Rat) / (interval m e).den = (m + 1 / 2) * 2 ^ e ∧
    (interval m e).closed = (m % 2 == 0) := by
  obtain ⟨u, w, uPos, wPos, unit, made⟩ := interval_eq pos e
  have wPos' : (0 : Rat) < w := by exact_mod_cast wPos
  have fits : u ≤ 4 * m * u ∧ 2 * u ≤ 4 * m * u :=
    ⟨Nat.le_mul_of_pos_left u (by omega), Nat.mul_le_mul_right u (by omega)⟩
  rw [made, ← unit]
  refine ⟨by positivity, ?_, ?_, rfl⟩
  · by_cases edge : m = 2 ^ 52 ∧ -1074 < e
    · rw [reachBelow, if_pos edge, if_pos (by simpa using edge), Nat.cast_sub fits.1]
      push_cast
      field_simp
    · rw [reachBelow, if_neg edge, if_neg (by simpa using edge), Nat.cast_sub fits.2]
      push_cast
      field_simp
      ring
  · push_cast
    field_simp
    ring

/-- The interval of a double holds the quotients that round to it. -/
theorem contains_iff {m : Nat} (pos : 0 < m) (e : Int) {num den : Nat} (denPos : 0 < den) :
    (interval m e).contains num den = true ↔ Near m e (num / den) := by
  obtain ⟨iPos, low, high, closed⟩ := interval_ends pos e
  have power : (0 : Rat) < 2 ^ e := by positivity
  rw [Interval.contains_iff _ iPos denPos, low, high, closed, beq_iff_eq, ← le_div_iff₀ power,
    ← div_le_iff₀ power, ← div_eq_iff power.ne', ← div_eq_iff power.ne']
  exact ⟨fun ⟨lower, upper, even⟩ => ⟨lower, upper, even⟩,
    fun near => ⟨near.lower, near.upper, near.even⟩⟩

end Landform.Decimal
