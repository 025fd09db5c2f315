import Landform.Proofs.Decimal.Special
import Mathlib

/-!
# Exact operations on doubles

A double stands for a rational number, and an operation on doubles rounds the exact result. Where
the exact result is itself the number of a double, rounding has nothing to drop: the bits below the
53 that are kept are all zero, whatever exponent the operation aligned its operands to.

1. `value?`, `value?_eq`: the number that a double stands for, from its bits and from its parts.
2. `round_full`: rounding a mantissa that has zeros only beyond 53 bits.
3. `value?_sub`, `value?_div`, `value?_ofInt`: differences, quotients and integers that are exact.
-/

namespace Landform.Decimal

open Float.Model

/-! ## 1. The number that a double stands for -/

/-- The number that a double stands for; infinities, and what is no number, stand for none. -/
def value? (x : Float) : Option Rat :=
  match form x with
  | .finite negative mantissa exponent =>
    some ((if negative then -mantissa else mantissa : Int) * 2 ^ exponent)
  | _ => none

/-- The number that the parts of a double stand for. -/
def worth? : UnpackedFloat → Option Rat
  | .finite s m e _ => some (s.apply m * 2 ^ e)
  | .zero _ => some 0
  | .infinity _ => none
  | .notANumber => none

theorem unpackSign_eq (b : BitVec Format.binary64.numBits) :
    UnpackedFloat.Sign.ofBitVec (UnpackedFloat.unpackSign b) =
      if b.toNat / 2 ^ 63 == 1 then .negative else .positive := by
  have bound : b.toNat < 2 ^ 64 := b.isLt
  have bit : UnpackedFloat.unpackSign b = 0#1 ↔ ¬ b.toNat / 2 ^ 63 = 1 := by
    rw [← BitVec.toNat_inj]
    simp [UnpackedFloat.unpackSign, Nat.shiftRight_eq_div_pow]
    omega
  simp only [UnpackedFloat.Sign.ofBitVec, bit, beq_iff_eq, ite_not]

theorem toNat_one_append (v : BitVec 52) : (1#1 ++ v).toNat = v.toNat + 2 ^ 52 := by
  have := Nat.two_pow_add_eq_or_of_lt v.isLt 1
  rw [BitVec.toNat_append, BitVec.toNat_ofNat, Nat.shiftLeft_eq, Nat.mod_eq_of_lt (by decide),
    one_mul]
  rw [mul_one] at this
  omega

theorem apply_sign (bit : Nat) (m : Int) :
    (if bit = 1 then UnpackedFloat.Sign.negative else .positive).apply m =
      if bit = 1 then -m else m := by
  split <;> rfl

/-- The bits of a double and its parts give the same number. -/
theorem value?_eq (x : Float) : value? x = worth? x.toModel.unpack := by
  obtain ⟨⟨⟨b : BitVec Format.binary64.numBits⟩, valid⟩⟩ := x
  show value? _ = worth? (UnpackedFloat.unpack Format.binary64 b)
  have top : UnpackedFloat.unpackExponent b = -1#_ ↔ b.toNat / 2 ^ 52 % 2048 = 2047 := by
    rw [← toNat_unpackExponent, ← BitVec.toNat_inj]; rfl
  have bottom : UnpackedFloat.unpackExponent b = 0#_ ↔ b.toNat / 2 ^ 52 % 2048 = 0 := by
    rw [← toNat_unpackExponent, ← BitVec.toNat_inj]; rfl
  have blank : UnpackedFloat.unpackMantissa b = 0#_ ↔ b.toNat % 2 ^ 52 = 0 := by
    rw [← toNat_unpackMantissa, ← BitVec.toNat_inj]; rfl
  have bias : (Format.binary64.exponentBias : Int) = 1023 := rfl
  unfold value? form UnpackedFloat.unpack
  simp only [Float.toBits, UInt64.toNat, unpackSign_eq, toNat_unpackExponent, toNat_unpackMantissa,
    toNat_one_append, top, bottom, blank, bias, beq_iff_eq]
  by_cases highest : b.toNat / 2 ^ 52 % 2048 = 2047
  · by_cases infinite : b.toNat % 2 ^ 52 = 0 <;>
      simp only [highest, infinite, if_true, if_false, worth?]
  · by_cases lowest : b.toNat / 2 ^ 52 % 2048 = 0
    · by_cases zero : b.toNat % 2 ^ 52 = 0
      · simp only [if_neg highest, if_pos lowest, zero, worth?]
        simp
      · simp only [if_neg highest, if_pos lowest, dif_neg zero, worth?, apply_sign, beq_iff_eq]
        rw [lowest]
        rfl
    · simp only [if_neg highest, if_neg lowest, worth?, apply_sign, beq_iff_eq]
      rfl

/-- The parts of a double whose mantissa takes all its bits are read back from its bits. -/
theorem unpack_pack_full (s : UnpackedFloat.Sign) {m : Nat} (full : m.log2 = 52) (pos : 0 < m)
    {e : Int} (low : -1074 ≤ e) (high : e ≤ 971) :
    UnpackedFloat.unpack Format.binary64 (UnpackedFloat.pack _ (.finite s m e pos)) =
      .finite s m e pos := by
  obtain ⟨least, most⟩ := (Nat.log2_eq_iff pos.ne').mp full
  have bias : (Format.binary64.exponentBias : Int) = 1023 := rfl
  have biased : (e + Format.binary64.exponentBias + (52 : Nat)).toNat = (e + 1075).toNat := by omega
  have inner : ¬ 2 ^ 11 ≤ (e + 1075).toNat + 1 := by omega
  simp only [UnpackedFloat.pack, biased, if_neg inner, full, Format.mantissaBits, Nat.add_comm,
    if_true]
  have exponent : (BitVec.ofNat 11 (e + 1075).toNat).toNat = (e + 1075).toNat := by
    rw [BitVec.toNat_ofNat]; omega
  have mantissa : (BitVec.ofNat 52 m).toNat = m - 2 ^ 52 := by
    rw [BitVec.toNat_ofNat]; omega
  have top : ¬ BitVec.ofNat 11 (e + 1075).toNat = -1#_ := by
    rw [← BitVec.toNat_inj, exponent]
    show ¬ (e + 1075).toNat = 2047
    omega
  have bottom : ¬ BitVec.ofNat 11 (e + 1075).toNat = 0#_ := by
    rw [← BitVec.toNat_inj, exponent]
    show ¬ (e + 1075).toNat = 0
    omega
  simp only [UnpackedFloat.unpack, UnpackedFloat.unpackExponent_packComponents,
    UnpackedFloat.unpackMantissa_packComponents, UnpackedFloat.unpackSign_packComponents,
    UnpackedFloat.Sign.ofBitVec_toBitVec, if_neg top, if_neg bottom, toNat_one_append, mantissa,
    exponent, bias]
  congr 1 <;> omega

/-! ## 2. Rounding what needs no rounding -/

/-- Shifting a mantissa over zeros loses nothing. -/
theorem shiftRight_zeros (m k : Nat) :
    (UnpackedFloat.ExtendedMantissa.ofMantissaAndAccuracy (m * 2 ^ k) .exact) >>> k =
      ⟨m, false, false⟩ := by
  show Nat.repeat UnpackedFloat.ExtendedMantissa.shiftRightOne k ⟨m * 2 ^ k, false, false⟩ = _
  induction k generalizing m with
  | zero => simp [Nat.repeat]
  | succ k ih =>
    have shape : m * 2 ^ (k + 1) = 2 * m * 2 ^ k := by ring
    rw [Nat.repeat, shape, ih]
    simp [UnpackedFloat.ExtendedMantissa.shiftRightOne]

theorem log2_mul_two_pow {m : Nat} (pos : 0 < m) (k : Nat) : (m * 2 ^ k).log2 = m.log2 + k := by
  rw [Nat.log2_eq_iff (by positivity)]
  have low := Nat.log2_self_le pos.ne'
  have high := Nat.lt_log2_self (n := m)
  constructor
  · rw [pow_add]; exact Nat.mul_le_mul_right _ low
  · rw [add_right_comm, pow_add]; exact Nat.mul_lt_mul_of_pos_right high (by positivity)

theorem targetExponent_eq {m : Nat} {e t : Int} (low : -1074 ≤ t) (same : m.log2 + e = t + 52) :
    Format.binary64.targetExponent (totalExponent m e) = t := by
  simp only [Format.targetExponent, totalExponent, Format.mantissaBits, Format.minExponent]
  norm_num
  omega

/-- A mantissa of 53 bits with zeros behind it rounds to itself. -/
theorem roundWithAccuracy_zeros (s : UnpackedFloat.Sign) {m : Nat} (full : m.log2 = 52)
    (pos : 0 < m) {e : Int} (low : -1074 ≤ e) (k : Nat) :
    UnpackedFloat.roundWithAccuracy .binary64 s (m * 2 ^ k) (e - k) .exact =
      .finite s m e pos := by
  have bits := log2_mul_two_pow pos k
  have first : Format.binary64.targetExponent (totalExponent (m * 2 ^ k) (e - k)) = e :=
    targetExponent_eq low (by omega)
  have second : Format.binary64.targetExponent (totalExponent m e) = e :=
    targetExponent_eq low (by omega)
  have moved : (e - (e - k)).toNat = k := by omega
  have still := shiftRight_zeros m 0
  rw [pow_zero, mul_one] at still
  simp only [UnpackedFloat.roundWithAccuracy, UnpackedFloat.shiftToTargetExponent,
    UnpackedFloat.shiftToExponent, first, moved, shiftRight_zeros,
    UnpackedFloat.ExtendedMantissa.roundedMantissa, UnpackedFloat.ExtendedMantissa.accuracy,
    UnpackedFloat.Accuracy.roundToNearestEven, sub_add_cancel, second, sub_self, Int.toNat_zero,
    still, Nat.cast_zero, add_zero, pos.ne', dite_false]

theorem exists_shift_of_le {m m' : Nat} {e e' : Int} (le : e' ≤ e)
    (same : (m' : Rat) * 2 ^ e' = m * 2 ^ e) : ∃ k : Nat, e' = e - k ∧ m' = m * 2 ^ k := by
  obtain ⟨k, rfl⟩ : ∃ k : Nat, e = e' + k := ⟨(e - e').toNat, by omega⟩
  refine ⟨k, by omega, ?_⟩
  rw [zpow_add₀ (by norm_num), mul_comm ((2 : Rat) ^ e'), ← mul_assoc, zpow_natCast] at same
  exact_mod_cast mul_right_cancel₀ (by positivity) same

/-- Rounding keeps what a full mantissa stands for, however it is written, once enough bits are
there. -/
theorem roundWithAccuracy_full (s : UnpackedFloat.Sign) {m m' : Nat} (full : m.log2 = 52)
    (pos : 0 < m) {e e' : Int} (low : -1074 ≤ e) (enough : 52 ≤ m'.log2)
    (same : (m' : Rat) * 2 ^ e' = m * 2 ^ e) :
    UnpackedFloat.roundWithAccuracy .binary64 s m' e' .exact = .finite s m e pos := by
  rcases le_or_gt e' e with le | lt
  · obtain ⟨k, rfl, rfl⟩ := exists_shift_of_le le same
    exact roundWithAccuracy_zeros s full pos low k
  · obtain ⟨k, rfl, rfl⟩ := exists_shift_of_le lt.le same.symm
    rcases Nat.eq_zero_or_pos m' with rfl | pos'
    · simp at pos
    · rw [log2_mul_two_pow pos'] at full
      omega

/-- Rounding keeps what a full mantissa stands for, however it is written. -/
theorem round_full (s : UnpackedFloat.Sign) {m m' : Nat} (full : m.log2 = 52) (pos : 0 < m)
    {e e' : Int} (low : -1074 ≤ e) (same : (m' : Rat) * 2 ^ e' = m * 2 ^ e) :
    UnpackedFloat.round .binary64 s m' e' = .finite s m e pos := by
  rcases le_or_gt e' e with le | lt
  · obtain ⟨k, rfl, rfl⟩ := exists_shift_of_le le same
    have bits := log2_mul_two_pow pos k
    have target : Format.binary64.targetExponent (totalExponent (m * 2 ^ k) (e - k)) = e :=
      targetExponent_eq low (by omega)
    have still : (e - k - e).toNat = 0 := by omega
    simp only [UnpackedFloat.round, target, UnpackedFloat.decreaseExponent, still,
      Nat.shiftLeft_zero, Nat.cast_zero, sub_zero]
    exact roundWithAccuracy_zeros s full pos low k
  · obtain ⟨k, rfl, rfl⟩ := exists_shift_of_le lt.le same.symm
    have pos' : 0 < m' := Nat.pos_of_mul_pos_right pos
    have bits := log2_mul_two_pow pos' k
    have target : Format.binary64.targetExponent (totalExponent m' e') = e' - k :=
      targetExponent_eq low (by omega)
    have moved : (e' - (e' - k)).toNat = k := by omega
    simp only [UnpackedFloat.round, target, UnpackedFloat.decreaseExponent, moved,
      Nat.shiftLeft_eq]
    exact roundWithAccuracy_full s full pos low full.ge rfl

/-! ## 3. Operations whose result is a double -/

/-- Zero, and the numbers that doubles with a full mantissa stand for. -/
def Normal (q : Rat) : Prop :=
  q = 0 ∨ ∃ (m : Nat) (e : Int), m.log2 = 52 ∧ 0 < m ∧ -1074 ≤ e ∧ e ≤ 971 ∧ |q| = m * 2 ^ e

theorem abs_scaled (n e : Int) : |(n : Rat) * 2 ^ e| = n.natAbs * 2 ^ e := by
  have power : (0 : Rat) < 2 ^ e := by positivity
  rw [abs_mul, abs_of_pos power, Nat.cast_natAbs, Int.cast_abs]

theorem abs_signed (s : UnpackedFloat.Sign) (m : Nat) (e : Int) :
    |(s.apply m : Rat) * 2 ^ e| = m * 2 ^ e := by
  rw [abs_scaled]
  cases s <;> simp [UnpackedFloat.Sign.apply]

theorem signed_ne_zero (s : UnpackedFloat.Sign) {m : Nat} (pos : 0 < m) (e : Int) :
    (s.apply m : Rat) * 2 ^ e ≠ 0 := by
  rw [← abs_pos, abs_signed]
  positivity

/-- An integer of 53 bits times a power of two is normal, away from the ends of the range. -/
theorem normal_scaled {n e : Int} (small : n.natAbs < 2 ^ 53) (low : -1022 ≤ e) (high : e ≤ 971) :
    Normal (n * 2 ^ e) := by
  rcases eq_or_ne n 0 with rfl | nonzero
  · left; simp
  · have pos : 0 < n.natAbs := by omega
    have bits : n.natAbs.log2 < 53 := (Nat.log2_lt pos.ne').mpr small
    obtain ⟨k, split⟩ : ∃ k, 52 = n.natAbs.log2 + k := ⟨52 - n.natAbs.log2, by omega⟩
    refine .inr ⟨n.natAbs * 2 ^ k, e - k, ?_, by positivity, by omega, by omega, ?_⟩
    · rw [log2_mul_two_pow pos, split]
    · rw [abs_scaled, zpow_sub₀ (by norm_num), zpow_natCast]
      push_cast
      field_simp

/-- The number of the double that parts are packed into. -/
def packed? (u : UnpackedFloat) : Option Rat :=
  worth? (UnpackedFloat.unpack Format.binary64 (UnpackedFloat.pack _ u))

theorem packed?_zero (s : UnpackedFloat.Sign) : packed? (.zero s) = some 0 := by
  simp [packed?, UnpackedFloat.pack, worth?]

/-- Packing the parts of a double once more changes nothing. -/
theorem packed?_unpack (x : Float) : packed? x.toModel.unpack = value? x := by
  rw [value?_eq, packed?, Float.Model.unpack, unpack_pack_unpack]

/-- Rounded parts that stand for a normal number become the double of that number. -/
theorem packed?_finite {s : UnpackedFloat.Sign} {m m' : Nat} {e e' : Int} (full : m.log2 = 52)
    (pos : 0 < m) (low : -1074 ≤ e) (high : e ≤ 971) (same : (m' : Rat) * 2 ^ e' = m * 2 ^ e) :
    packed? (.finite s m e pos) = some ((s.apply m' : Rat) * 2 ^ e') := by
  rw [packed?, unpack_pack_full s full pos low high, worth?]
  cases s <;> simp [UnpackedFloat.Sign.apply, same]

/-- A signed mantissa that stands for a normal number becomes the double of that number. -/
theorem packed?_normalize {n e : Int} (normal : Normal (n * 2 ^ e))
    (zeroSign : UnpackedFloat.Sign) :
    packed? (UnpackedFloat.normalize .binary64 n e zeroSign) = some (n * 2 ^ e : Rat) := by
  have power : (0 : Rat) < 2 ^ e := by positivity
  rcases normal with zero | ⟨m, e', full, pos, low, high, same⟩
  · have none : n = 0 := by simpa [power.ne'] using zero
    subst none
    simp [UnpackedFloat.normalize, packed?_zero]
  rw [abs_scaled] at same
  rcases lt_trichotomy n 0 with negative | rfl | positive
  · have abs : (-n).toNat = n.natAbs := by omega
    have sign : UnpackedFloat.Sign.negative.apply n.natAbs = n := by
      simp only [UnpackedFloat.Sign.apply]; omega
    simp only [UnpackedFloat.normalize, compare_lt_iff_lt.mpr negative, abs,
      round_full .negative full pos low same]
    rw [packed?_finite full pos low high same, sign]
  · have : (m : Rat) * 2 ^ e' ≠ 0 := by positivity
    simp [← same] at this
  · have abs : n.toNat = n.natAbs := by omega
    have sign : UnpackedFloat.Sign.positive.apply n.natAbs = n := by
      simp only [UnpackedFloat.Sign.apply]; omega
    simp only [UnpackedFloat.normalize, compare_gt_iff_gt.mpr positive, abs,
      round_full .positive full pos low same]
    rw [packed?_finite full pos low high same, sign]

theorem worth?_neg (u : UnpackedFloat) : worth? u.neg = (worth? u).map (-·) := by
  cases u with
  | finite s m e pos => cases s <;> simp [UnpackedFloat.neg, worth?, UnpackedFloat.Sign.apply]
  | _ => simp [UnpackedFloat.neg, worth?]

theorem value?_neg (x : Float) : value? (-x) = (value? x).map (-·) := by
  rw [value?_eq, value?_eq, ← worth?_neg, ← unpack_neg]
  rfl

theorem apply_decreaseExponent (s : UnpackedFloat.Sign) {m : Nat} {e t : Int} (le : t ≤ e) :
    (s.apply (UnpackedFloat.decreaseExponent m e t).1 : Rat) * 2 ^ t = s.apply m * 2 ^ e := by
  obtain ⟨k, rfl⟩ : ∃ k : Nat, e = t + k := ⟨(e - t).toNat, by omega⟩
  have moved : (t + k - t).toNat = k := by omega
  simp only [UnpackedFloat.decreaseExponent, moved, Nat.shiftLeft_eq]
  rw [zpow_add₀ (by norm_num), zpow_natCast]
  cases s <;> simp only [UnpackedFloat.Sign.apply] <;> push_cast <;> ring

/-- What a double that stands for a number is made of. -/
theorem parts_of_worth? {u : UnpackedFloat} {p : Rat} (worth : worth? u = some p) :
    (∃ s, u = .zero s ∧ p = 0) ∨ ∃ s m e pos, u = .finite s m e pos ∧ p = s.apply m * 2 ^ e := by
  cases u with
  | zero s => exact .inl ⟨s, rfl, (Option.some.inj worth).symm⟩
  | finite s m e pos => exact .inr ⟨s, m, e, pos, rfl, (Option.some.inj worth).symm⟩
  | _ => cases worth

/-- A difference that is normal is exact. -/
theorem value?_sub {x y : Float} {p q : Rat} (left : value? x = some p) (right : value? y = some q)
    (normal : Normal (p - q)) : value? (x - y) = some (p - q) := by
  have read : value? (x - y) =
      packed? (UnpackedFloat.sub .binary64 x.toModel.unpack y.toModel.unpack) := value?_eq _
  obtain ⟨s₁, first, rfl⟩ | ⟨s₁, m₁, e₁, pos₁, first, rfl⟩ :=
      parts_of_worth? ((value?_eq x).symm.trans left) <;>
    obtain ⟨s₂, second, rfl⟩ | ⟨s₂, m₂, e₂, pos₂, second, rfl⟩ :=
      parts_of_worth? ((value?_eq y).symm.trans right)
  · rw [read, first, second]
    simp only [UnpackedFloat.sub]
    split <;> simp [packed?_zero]
  · have parts : UnpackedFloat.sub .binary64 x.toModel.unpack y.toModel.unpack =
        (-y).toModel.unpack := by
      show _ = (Float.Model.neg y.toModel).unpack
      rw [unpack_neg, first, second]
      rfl
    rw [read, parts, packed?_unpack, value?_neg, right, zero_sub]
    rfl
  · have parts : UnpackedFloat.sub .binary64 x.toModel.unpack y.toModel.unpack =
        x.toModel.unpack := by
      rw [first, second]
      rfl
    rw [read, parts, packed?_unpack, left, sub_zero]
  · rw [read, first, second]
    simp only [UnpackedFloat.sub]
    rw [← apply_decreaseExponent s₁ (min_le_left e₁ e₂),
      ← apply_decreaseExponent s₂ (min_le_right e₁ e₂), ← sub_mul, ← Int.cast_sub] at normal ⊢
    exact packed?_normalize normal .positive

/-- A quotient has at most one bit more than the lengths of its operands tell, so that the exponent
at which it is taken leaves room for a full mantissa. -/
theorem quotient_exponent_le {m₁ m₂ m : Nat} {e₁ e₂ e : Int} (pos₁ : 0 < m₁) (pos₂ : 0 < m₂)
    (full : m.log2 = 52) (pos : 0 < m) (low : -1074 ≤ e)
    (same : (m₁ : Rat) * 2 ^ e₁ = (m * m₂ : Nat) * 2 ^ (e + e₂)) :
    min (e₁ - e₂) (Format.binary64.targetExponent (totalExponent m₁ e₁ - totalExponent m₂ e₂)) ≤
      e := by
  rcases le_or_gt e₁ (e + e₂) with le | lt
  · exact (min_le_left _ _).trans (by omega)
  · obtain ⟨j, rest, product⟩ := exists_shift_of_le lt.le same.symm
    have bits := log2_mul_two_pow pos₁ j
    have size : (m * m₂).log2 < 53 + (m₂.log2 + 1) := by
      have most : m < 2 ^ 53 := by simpa [full] using Nat.lt_log2_self (n := m)
      rw [Nat.log2_lt (by positivity), pow_add]
      exact Nat.mul_lt_mul'' most Nat.lt_log2_self
    rw [product] at size
    refine (min_le_right _ _).trans ?_
    simp only [Format.targetExponent, totalExponent, Format.mantissaBits, Format.minExponent]
    norm_num
    omega

/-- A quotient with a full mantissa is found with zeros behind it and nothing left over. -/
theorem divCore_full {m₁ m₂ m : Nat} {e₁ e₂ e : Int} (pos₁ : 0 < m₁) (pos₂ : 0 < m₂)
    (full : m.log2 = 52) (pos : 0 < m) (low : -1074 ≤ e)
    (same : (m₁ : Rat) * 2 ^ e₁ = (m * m₂ : Nat) * 2 ^ (e + e₂)) :
    ∃ k : Nat, UnpackedFloat.divCore .binary64 m₁ e₁ m₂ e₂ = (m * 2 ^ k, e - k, .exact) := by
  have le := quotient_exponent_le pos₁ pos₂ full pos low same
  obtain ⟨t, target⟩ : ∃ t, min (e₁ - e₂)
    (Format.binary64.targetExponent (totalExponent m₁ e₁ - totalExponent m₂ e₂)) = t := ⟨_, rfl⟩
  have reach : t ≤ e₁ - e₂ := target ▸ min_le_left _ _
  rw [target] at le
  obtain ⟨k, rfl⟩ : ∃ k : Nat, e = t + k := ⟨(e - t).toNat, by omega⟩
  obtain ⟨d, rfl⟩ : ∃ d : Nat, e₁ = t + e₂ + d := ⟨(e₁ - e₂ - t).toNat, by omega⟩
  have shifted : m₁ * 2 ^ d = m * 2 ^ k * m₂ := by
    have power (n : Nat) : (2 : Rat) ^ (t + e₂ + n) = 2 ^ n * 2 ^ (t + e₂) := by
      rw [zpow_add₀ two_ne_zero, zpow_natCast, mul_comm]
    rw [show t + k + e₂ = t + e₂ + k by omega, power, power, ← mul_assoc, ← mul_assoc] at same
    rw [mul_right_comm]
    exact_mod_cast mul_right_cancel₀ (by positivity) same
  have moved : (t + e₂ + d - e₂ - t).toNat = d := by omega
  refine ⟨k, ?_⟩
  simp only [UnpackedFloat.divCore, target, moved, Nat.shiftLeft_eq, shifted,
    Nat.mul_div_cancel _ pos₂, Nat.mul_mod_left, UnpackedFloat.accuracyOfFraction, if_true,
    add_sub_cancel_right]

theorem signed_div (s₁ s₂ : UnpackedFloat.Sign) {m₁ m₂ m : Nat} {e₁ e₂ e : Int}
    (same : (m₁ : Rat) * 2 ^ e₁ / (m₂ * 2 ^ e₂) = m * 2 ^ e) :
    ((s₁ / s₂).apply m : Rat) * 2 ^ e = s₁.apply m₁ * 2 ^ e₁ / (s₂.apply m₂ * 2 ^ e₂) := by
  have quotient : (s₁ / s₂).apply m = s₁.apply 1 * s₂.apply 1 * m := by
    cases s₁ <;> cases s₂ <;> simp [HDiv.hDiv, Div.div, UnpackedFloat.Sign.apply]
  rw [quotient]
  push_cast
  rw [mul_assoc, ← same]
  cases s₁ <;> cases s₂ <;> simp [UnpackedFloat.Sign.apply, div_neg, neg_div]

/-- A quotient that is normal is exact. -/
theorem value?_div {x y : Float} {p q : Rat} (left : value? x = some p) (right : value? y = some q)
    (nonzero : q ≠ 0) (normal : Normal (p / q)) : value? (x / y) = some (p / q) := by
  have read : value? (x / y) =
      packed? (UnpackedFloat.div .binary64 x.toModel.unpack y.toModel.unpack) := value?_eq _
  obtain ⟨s₂, second, rfl⟩ | ⟨s₂, m₂, e₂, pos₂, second, rfl⟩ :=
    parts_of_worth? ((value?_eq y).symm.trans right)
  · exact absurd rfl nonzero
  obtain ⟨s₁, first, rfl⟩ | ⟨s₁, m₁, e₁, pos₁, first, rfl⟩ :=
    parts_of_worth? ((value?_eq x).symm.trans left)
  · rw [read, first, second, zero_div]
    simp [UnpackedFloat.div, packed?_zero]
  obtain zero | ⟨m, e, full, pos, low, high, same⟩ := normal
  · exact absurd zero (div_ne_zero (signed_ne_zero s₁ pos₁ e₁) nonzero)
  · rw [abs_div, abs_signed, abs_signed] at same
    have product : (m₁ : Rat) * 2 ^ e₁ = (m * m₂ : Nat) * 2 ^ (e + e₂) := by
      rw [div_eq_iff (by positivity)] at same
      rw [same, zpow_add₀ (by norm_num)]
      push_cast
      ring
    obtain ⟨k, core⟩ := divCore_full pos₁ pos₂ full pos low product
    rw [read, first, second]
    simp only [UnpackedFloat.div, core, roundWithAccuracy_zeros _ full pos low, packed?,
      unpack_pack_full _ full pos low high, worth?]
    rw [signed_div s₁ s₂ same]

/-- One, as the factor that turns an integer into a double. -/
theorem unpack_one : (Float.ofBits 0x3FF0000000000000).toModel.unpack =
    .finite .positive (2 ^ 52) (-52) (by decide) := by
  rfl

/-- A normal number times one is exact. -/
theorem value?_mul_one {x : Float} {p : Rat} (value : value? x = some p) (normal : Normal p) :
    value? (x * .ofBits 0x3FF0000000000000) = some p := by
  have read : value? (x * .ofBits 0x3FF0000000000000) = packed? (UnpackedFloat.mul .binary64
      x.toModel.unpack (Float.ofBits 0x3FF0000000000000).toModel.unpack) := value?_eq _
  rw [read, unpack_one]
  obtain ⟨s, first, rfl⟩ | ⟨s, m', e', pos', first, rfl⟩ :=
    parts_of_worth? ((value?_eq x).symm.trans value)
  · simp [first, UnpackedFloat.mul, packed?_zero]
  obtain zero | ⟨m, e, full, pos, low, high, same⟩ := normal
  · exact absurd zero (signed_ne_zero s pos' e')
  · have sign : s * .positive = s := by cases s <;> rfl
    have enough : 52 ≤ (m' * 2 ^ 52).log2 := by rw [log2_mul_two_pow pos']; omega
    rw [abs_signed] at same
    have product : ((m' * 2 ^ 52 : Nat) : Rat) * 2 ^ (e' + -52) = m * 2 ^ e := by
      rw [← same, zpow_add₀ (by norm_num), zpow_neg]
      push_cast
      field_simp
    rw [first]
    simp only [UnpackedFloat.mul, roundWithAccuracy_full _ full pos low enough product, sign]
    exact packed?_finite full pos low high same

theorem value?_toFloat {n : UInt64} (small : n.toNat < 2 ^ 53) :
    value? n.toFloat = some (n.toNat : Rat) := by
  have normal : Normal ((n.toNat : Int) * 2 ^ (0 : Int)) :=
    normal_scaled (by omega) (by decide) (by decide)
  have read : value? n.toFloat =
      packed? (UnpackedFloat.normalize .binary64 n.toNat 0 .positive) := value?_eq _
  rw [read, packed?_normalize normal]
  simp

theorem value?_ofNat {n : Nat} (small : n < 2 ^ 53) : value? (Float.ofNat n) = some (n : Rat) := by
  have whole : n.toUInt64.toNat = n := UInt64.toNat_ofNat_of_lt' (by show n < 2 ^ 64; omega)
  have product : Float.ofNat n = n.toUInt64.toFloat * .ofBits 0x3FF0000000000000 := by
    unfold Float.ofNat
    show Float.ofScientific n false 0 = _
    unfold Float.ofScientific
    rw [dif_pos ⟨small, by omega⟩]
    rfl
  have normal : Normal n := by
    simpa using normal_scaled (n := n) (e := 0) (by omega) (by decide) (by decide)
  rw [product]
  exact value?_mul_one (by rw [value?_toFloat (by omega), whole]) normal

/-- An integer of 53 bits is a double. -/
theorem value?_ofInt {n : Int} (small : n.natAbs < 2 ^ 53) :
    value? (Float.ofInt n) = some (n : Rat) := by
  cases n with
  | ofNat m => exact value?_ofNat (by simpa using small)
  | negSucc m =>
    show value? (-Float.ofNat (m + 1)) = _
    rw [value?_neg, value?_ofNat (by simpa using small), Int.cast_negSucc]
    rfl

end Landform.Decimal
