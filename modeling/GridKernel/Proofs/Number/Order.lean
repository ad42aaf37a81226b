import GridKernel.Number.Whole
import Mathlib.Data.Nat.Log
import Mathlib.Tactic.Ring

namespace GridKernel

open Float.Model (UnpackedFloat)
open Float.Model.UnpackedFloat (Sign packComponents unpackSign unpackExponent unpackMantissa)

def signOf (negative : Bool) : Sign := if negative then .negative else .positive

namespace Decoded

def unpacked : Decoded → UnpackedFloat
  | .nan => .notANumber
  | .infinite negative => .infinity (signOf negative)
  | .finite negative m e =>
    if empty : m = 0 then .zero (signOf negative)
    else .finite (signOf negative) m e (Nat.pos_of_ne_zero empty)

@[simp]
theorem unpacked_zero (negative : Bool) (e : Int) : (finite negative 0 e).unpacked = .zero (signOf negative) := rfl

theorem unpacked_finite (negative : Bool) (m : Nat) (e : Int) (nonzero : m ≠ 0) :
    (finite negative m e).unpacked = .finite (signOf negative) m e (Nat.pos_of_ne_zero nonzero) := by
  rw [unpacked, dif_neg nonzero]

-- The magnitude in units of the least positive number.
def units (m : Nat) (e : Int) : Nat := m * 2 ^ (e + 1074).toNat

-- A finite number as an integer, in those units.
def value (negative : Bool) (m : Nat) (e : Int) : Int := if negative then -(units m e : Int) else units m e

-- Mantissa and exponent as a pattern holds them: the exponent is the least one that fits.
structure Canonical (m : Nat) (e : Int) : Prop where
  bits : m < 2 ^ 53
  least : -1074 ≤ e
  most : e ≤ 971
  leading : e = -1074 ∨ 2 ^ 52 ≤ m

end Decoded

-- The fields of a pattern, with the widths of the format put in.
theorem double_decode (b : Nat) : Format.double.decode b =
    if b / 2 ^ 52 % 2048 = 2047 then
      if b % 2 ^ 52 = 0 then .infinite (b.testBit 63) else .nan
    else if b / 2 ^ 52 % 2048 = 0 then .finite (b.testBit 63) (b % 2 ^ 52) (-1074)
    else .finite (b.testBit 63) (2 ^ 52 + b % 2 ^ 52) ((b / 2 ^ 52 % 2048 : Nat) - 1075) := by
  change (if b >>> 52 % 2 ^ 11 = 2 ^ 11 - 1 then
      if b % 2 ^ 52 = 0 then .infinite (b.testBit 63) else .nan
    else if b >>> 52 % 2 ^ 11 = 0 then .finite (b.testBit 63) (b % 2 ^ 52) (2 - 2 ^ 10 - 52)
    else .finite (b.testBit 63) (2 ^ 52 + b % 2 ^ 52) (2 - 2 ^ 10 - 52 + (b >>> 52 % 2 ^ 11 - 1 : Nat)) : Decoded) = _
  simp only [Nat.shiftRight_eq_div_pow, show (2 : Nat) ^ 11 = 2048 from rfl]
  generalize b / 2 ^ 52 % 2048 = field
  by_cases full : field = 2047
  · simp [full]
  · by_cases empty : field = 0
    · simp [empty]
    · simp [full, empty]
      omega

theorem double_decode_canonical (b : Nat) (negative : Bool) (m : Nat) (e : Int)
    (decoded : Format.double.decode b = .finite negative m e) : Decoded.Canonical m e := by
  have fraction : b % 2 ^ 52 < 2 ^ 52 := Nat.mod_lt _ (by decide)
  rw [double_decode] at decoded
  split at decoded
  · split at decoded <;> cases decoded
  · split at decoded
    · cases decoded
      exact ⟨by omega, le_rfl, by omega, .inl rfl⟩
    · cases decoded
      exact ⟨by omega, by omega, by omega, .inr (by omega)⟩

open Float.Model.Format (binary64)

theorem unpackMantissa_toNat (b : UInt64) :
    (@unpackMantissa binary64 b.toBitVec).toNat = b.toNat % 2 ^ 52 := by
  simp [unpackMantissa]

theorem unpackExponent_toNat (b : UInt64) :
    (@unpackExponent binary64 b.toBitVec).toNat = b.toNat / 2 ^ 52 % 2048 := by
  simp [unpackExponent, Nat.shiftRight_eq_div_pow]

theorem unpackSign_eq (b : UInt64) :
    Sign.ofBitVec (@unpackSign binary64 b.toBitVec) = signOf (b.toNat.testBit 63) := by
  have bit : (@unpackSign binary64 b.toBitVec).toNat = b.toNat / 2 ^ 63 % 2 := by
    delta unpackSign
    simp [Nat.shiftRight_eq_div_pow]
  have zero : @unpackSign binary64 b.toBitVec = 0#1 ↔ b.toNat / 2 ^ 63 % 2 = 0 := by
    rw [← bit, ← BitVec.toNat_inj]
    rfl
  simp only [Sign.ofBitVec, zero, signOf, Nat.testBit_eq_decide_div_mod_eq]
  generalize b.toNat / 2 ^ 63 = top
  rcases Nat.mod_two_eq_zero_or_one top with even | odd
  · simp [even]
  · simp [odd]

theorem finite_congr {s t : Sign} {m n : Nat} {e f : Int} {left : 0 < m} {right : 0 < n} (signs : s = t)
    (same : m = n) (level : e = f) : UnpackedFloat.finite s m e left = .finite t n f right := by
  subst signs
  subst same
  subst level
  rfl

theorem unpack_eq_decode (b : UInt64) :
    UnpackedFloat.unpack binary64 b.toBitVec = (Format.double.decode b.toNat).unpacked := by
  have mantissa := unpackMantissa_toNat b
  have exponent := unpackExponent_toNat b
  have full : @unpackExponent binary64 b.toBitVec = -1#11 ↔ b.toNat / 2 ^ 52 % 2048 = 2047 := by
    rw [← exponent, ← BitVec.toNat_inj]
    rfl
  have empty : @unpackExponent binary64 b.toBitVec = 0#11 ↔ b.toNat / 2 ^ 52 % 2048 = 0 := by
    rw [← exponent, ← BitVec.toNat_inj]
    rfl
  have none : @unpackMantissa binary64 b.toBitVec = 0#52 ↔ b.toNat % 2 ^ 52 = 0 := by
    rw [← mantissa, ← BitVec.toNat_inj]
    rfl
  rw [double_decode]
  unfold UnpackedFloat.unpack
  dsimp only
  rw [unpackSign_eq]
  by_cases isFull : b.toNat / 2 ^ 52 % 2048 = 2047
  · rw [if_pos (full.mpr isFull), if_pos isFull]
    by_cases isNone : b.toNat % 2 ^ 52 = 0
    · rw [if_pos (none.mpr isNone), if_pos isNone]
      rfl
    · rw [if_neg (mt none.mp isNone), if_neg isNone]
      rfl
  · rw [if_neg (mt full.mp isFull), if_neg isFull]
    by_cases isEmpty : b.toNat / 2 ^ 52 % 2048 = 0
    · rw [if_pos (empty.mpr isEmpty), if_pos isEmpty]
      by_cases isNone : b.toNat % 2 ^ 52 = 0
      · rw [dif_pos (none.mpr isNone)]
        rw [isNone, Decoded.unpacked_zero]
      · rw [dif_neg (mt none.mp isNone), Decoded.unpacked_finite _ _ _ isNone]
        exact finite_congr rfl mantissa (by rw [exponent, isEmpty]; rfl)
    · rw [if_neg (mt empty.mp isEmpty), if_neg isEmpty]
      have implicit : (1#1 ++ @unpackMantissa binary64 b.toBitVec).toNat = 2 ^ 52 + b.toNat % 2 ^ 52 := by
        rw [BitVec.toNat_append, mantissa, ← Nat.shiftLeft_add_eq_or_of_lt (Nat.mod_lt _ (Nat.two_pow_pos 52))]
        rfl
      rw [Decoded.unpacked_finite _ _ _ (by omega), exponent]
      exact finite_congr rfl implicit rfl

theorem unpackSign_packComponents {spec : Float.Model.Format} (sign : Sign)
    (exponent : BitVec spec.exponentBits) (mantissa : BitVec spec.mantissaBitsWithoutImplicit) :
    unpackSign (packComponents spec sign exponent mantissa) = sign.toBitVec := by
  ext i inside
  have first : i = 0 := by omega
  delta unpackSign
  simp [packComponents, BitVec.getLsbD_append, BitVec.getElem_append, first]

-- The exponent field of a number with its leading bit, and zero for one without.
theorem pack_finite (sign : Sign) (m : Nat) (e : Int) (positive : 0 < m) (canonical : Decoded.Canonical m e) :
    UnpackedFloat.pack binary64 (.finite sign m e positive) =
      packComponents binary64 sign (if 2 ^ 52 ≤ m then BitVec.ofNat 11 (e + 1023 + 52).toNat else 0#11)
        (BitVec.ofNat 52 m) := by
  obtain ⟨bits, least, most, leading⟩ := canonical
  have log : 2 ^ 52 ≤ m ↔ m.log2 = 52 := by
    rw [Nat.log2_eq_iff positive.ne']
    omega
  unfold UnpackedFloat.pack
  change (if 2 ^ 11 ≤ (e + 1023 + 52).toNat + 1 then _
    else if m.log2 + 1 = 53 then packComponents binary64 sign (BitVec.ofNat 11 (e + 1023 + 52).toNat) _
    else _) = _
  rw [if_neg (by omega)]
  by_cases normal : 2 ^ 52 ≤ m
  · rw [if_pos (by rw [log.mp normal]), if_pos normal]
  · rw [if_neg (fun length => normal (log.mpr (by omega))), if_neg normal]

-- Packing loses nothing of a mantissa and an exponent that a pattern can hold.
theorem unpack_pack_finite (sign : Sign) (m : Nat) (e : Int) (positive : 0 < m) (canonical : Decoded.Canonical m e) :
    UnpackedFloat.unpack binary64 (UnpackedFloat.pack binary64 (.finite sign m e positive)) =
      .finite sign m e positive := by
  rw [pack_finite sign m e positive canonical]
  obtain ⟨bits, least, most, leading⟩ := canonical
  generalize components : packComponents binary64 sign _ _ = x
  have signs : Sign.ofBitVec (@unpackSign binary64 x) = sign := by
    rw [← components, unpackSign_packComponents]
    cases sign <;> rfl
  have field : @unpackExponent binary64 x = if 2 ^ 52 ≤ m then BitVec.ofNat 11 (e + 1023 + 52).toNat else 0#11 := by
    rw [← components, UnpackedFloat.unpackExponent_packComponents]
  have fraction : (@unpackMantissa binary64 x).toNat = m % 2 ^ 52 := by
    rw [← components, UnpackedFloat.unpackMantissa_packComponents]
    exact BitVec.toNat_ofNat m 52
  unfold UnpackedFloat.unpack
  dsimp only
  by_cases normal : 2 ^ 52 ≤ m
  · have exponent : (@unpackExponent binary64 x).toNat = (e + 1023 + 52).toNat := by
      rw [field, if_pos normal, BitVec.toNat_ofNat]
      change (e + 1023 + 52).toNat % 2 ^ 11 = _
      exact Nat.mod_eq_of_lt (by omega)
    have mantissa : (1#1 ++ @unpackMantissa binary64 x).toNat = m := by
      rw [BitVec.toNat_append, fraction, ← Nat.shiftLeft_add_eq_or_of_lt (Nat.mod_lt _ (Nat.two_pow_pos 52))]
      change 2 ^ 52 + m % 2 ^ 52 = m
      omega
    rw [if_neg, if_neg]
    · refine finite_congr signs mantissa ?_
      rw [exponent]
      change ((e + 1023 + 52).toNat : Int) - (1023 + 52) = e
      omega
    · rw [← BitVec.toNat_inj, exponent]
      change ¬(e + 1023 + 52).toNat = 0
      omega
    · rw [← BitVec.toNat_inj, exponent]
      change ¬(e + 1023 + 52).toNat = 2047
      omega
  · rw [if_neg normal] at field
    have mantissa : (@unpackMantissa binary64 x).toNat = m := fraction.trans (Nat.mod_eq_of_lt (by omega))
    rw [if_neg (by rw [field]; decide), if_pos field, dif_neg]
    · refine finite_congr signs mantissa ?_
      rw [field]
      rcases leading with rfl | large
      · rfl
      · exact absurd large normal
    · rw [← BitVec.toNat_inj, mantissa]
      exact positive.ne'

theorem unpack_ofBits (b : UInt64) :
    (Float.ofBits b).toModel.unpack = (Format.double.decode b.toNat).unpacked := by
  change UnpackedFloat.unpack binary64 (UnpackedFloat.pack binary64 (UnpackedFloat.unpack binary64 b.toBitVec)) = _
  rw [unpack_eq_decode b]
  cases decoded : Format.double.decode b.toNat with
  | nan => rfl
  | infinite negative => cases negative <;> rfl
  | finite negative m e =>
    have canonical := double_decode_canonical _ _ _ _ decoded
    by_cases empty : m = 0
    · subst empty
      rw [Decoded.unpacked_zero]
      cases negative <;> rfl
    · rw [Decoded.unpacked_finite _ _ _ empty]
      exact unpack_pack_finite _ m e _ canonical

theorem unpack_toBits (x : Float) : x.toModel.unpack = (Double.ofFloat x).decode.unpacked :=
  unpack_eq_decode x.toBits

namespace Decoded

theorem units_lt (m n : Nat) (e f : Int) (first : Canonical m e) (second : Canonical n f) (less : e < f) :
    units m e < units n f := by
  have top : 2 ^ 52 ≤ n := by
    rcases second.leading with least | large
    · exact absurd (least ▸ less) (not_lt.mpr first.least)
    · exact large
  have low := first.least
  obtain ⟨d, hd⟩ : ∃ d : Nat, (f + 1074).toNat = (e + 1074).toNat + 1 + d :=
    ⟨(f + 1074).toNat - (e + 1074).toNat - 1, by omega⟩
  unfold units
  rw [hd]
  calc m * 2 ^ (e + 1074).toNat < 2 ^ 53 * 2 ^ (e + 1074).toNat :=
        Nat.mul_lt_mul_of_pos_right first.bits (Nat.two_pow_pos _)
    _ = 2 ^ 52 * 2 ^ ((e + 1074).toNat + 1) := by ring
    _ ≤ n * 2 ^ ((e + 1074).toNat + 1 + d) :=
        Nat.mul_le_mul top (Nat.pow_le_pow_right (by omega) (by omega))

-- The exponent decides first, as it does for the patterns.
theorem compare_units (m n : Nat) (e f : Int) (first : Canonical m e) (second : Canonical n f) :
    (compare e f).then (compare m n) = compare (units m e) (units n f) := by
  rcases lt_trichotomy e f with less | rfl | more
  · rw [compare_lt_iff_lt.mpr less, compare_lt_iff_lt.mpr (units_lt m n e f first second less)]
    rfl
  · have scale : 0 < 2 ^ (e + 1074).toNat := Nat.two_pow_pos _
    rw [compare_eq_iff_eq.mpr rfl]
    change compare m n = compare (m * 2 ^ (e + 1074).toNat) (n * 2 ^ (e + 1074).toNat)
    rcases lt_trichotomy m n with less | rfl | more
    · rw [compare_lt_iff_lt.mpr less, compare_lt_iff_lt.mpr (Nat.mul_lt_mul_of_pos_right less scale)]
    · rw [compare_eq_iff_eq.mpr rfl, compare_eq_iff_eq.mpr rfl]
    · rw [compare_gt_iff_gt.mpr more, compare_gt_iff_gt.mpr (Nat.mul_lt_mul_of_pos_right more scale)]
  · rw [compare_gt_iff_gt.mpr more, compare_gt_iff_gt.mpr (units_lt n m f e second first more)]
    rfl

theorem compare_natCast (x y : Nat) : compare (x : Int) (y : Int) = compare x y := by
  rcases lt_trichotomy x y with less | rfl | more
  · rw [compare_lt_iff_lt.mpr less, compare_lt_iff_lt.mpr (Int.ofNat_lt.mpr less)]
  · rw [compare_eq_iff_eq.mpr rfl, compare_eq_iff_eq.mpr rfl]
  · rw [compare_gt_iff_gt.mpr more, compare_gt_iff_gt.mpr (Int.ofNat_lt.mpr more)]

theorem compare_neg (x y : Nat) : compare (-x : Int) (-y : Int) = (compare x y).swap := by
  rcases lt_trichotomy x y with less | rfl | more
  · rw [compare_lt_iff_lt.mpr less, compare_gt_iff_gt.mpr (by omega)]
    rfl
  · rw [compare_eq_iff_eq.mpr rfl, compare_eq_iff_eq.mpr rfl]
    rfl
  · rw [compare_gt_iff_gt.mpr more, compare_lt_iff_lt.mpr (by omega)]
    rfl

theorem units_pos (m : Nat) (e : Int) (nonzero : m ≠ 0) : 0 < units m e :=
  Nat.mul_pos (Nat.pos_of_ne_zero nonzero) (Nat.two_pow_pos _)

@[simp]
theorem value_false (m : Nat) (e : Int) : value false m e = units m e := rfl

@[simp]
theorem value_true (m : Nat) (e : Int) : value true m e = -units m e := rfl

@[simp]
theorem value_zero (negative : Bool) (e : Int) : value negative 0 e = 0 := by
  cases negative <;> simp [value, units]

-- Zeros of either sign are equal, and otherwise the sign decides before the magnitude.
theorem compare_finite (a b : Bool) (m n : Nat) (e f : Int) (first : Canonical m e) (second : Canonical n f) :
    (finite a m e).unpacked.compare (finite b n f).unpacked = some (compare (value a m e) (value b n f)) := by
  by_cases none : m = 0
  · subst none
    rw [unpacked_zero, value_zero]
    by_cases empty : n = 0
    · subst empty
      rw [unpacked_zero, value_zero]
      rfl
    · have positive := units_pos n f empty
      rw [unpacked_finite _ _ _ empty]
      cases b
      · rw [value_false, compare_lt_iff_lt.mpr (by omega)]
        rfl
      · rw [value_true, compare_gt_iff_gt.mpr (by omega)]
        rfl
  · have left := units_pos m e none
    rw [unpacked_finite _ _ _ none]
    by_cases empty : n = 0
    · subst empty
      rw [unpacked_zero, value_zero]
      cases a
      · rw [value_false, compare_gt_iff_gt.mpr (by omega)]
        rfl
      · rw [value_true, compare_lt_iff_lt.mpr (by omega)]
        rfl
    · have right := units_pos n f empty
      have magnitudes := compare_units m n e f first second
      rw [unpacked_finite _ _ _ empty]
      cases a <;> cases b
      · rw [value_false, value_false, compare_natCast, ← magnitudes]
        rfl
      · rw [value_false, value_true, compare_gt_iff_gt.mpr (by omega)]
        rfl
      · rw [value_true, value_false, compare_lt_iff_lt.mpr (by omega)]
        rfl
      · rw [value_true, value_true, compare_neg, ← magnitudes]
        rfl

end Decoded

section
variable {x y : Float} {a b : Bool} {m n : Nat} {e f : Int}

theorem lt_iff_compare : x < y ↔ x.toModel.unpack.compare y.toModel.unpack = some .lt := by
  change decide (UnpackedFloat.lt x.toModel.unpack y.toModel.unpack = true) = true ↔ _
  rw [decide_eq_true_iff, UnpackedFloat.lt, beq_iff_eq]

theorem le_iff_compare : x ≤ y ↔ ∃ o, x.toModel.unpack.compare y.toModel.unpack = some o ∧ o.isLE = true := by
  change decide (UnpackedFloat.le x.toModel.unpack y.toModel.unpack = true) = true ↔ _
  rw [decide_eq_true_iff, UnpackedFloat.le, Option.any_eq_true]

theorem lt_iff_value (first : x.toModel.unpack = (Decoded.finite a m e).unpacked) (left : Decoded.Canonical m e)
    (second : y.toModel.unpack = (Decoded.finite b n f).unpacked) (right : Decoded.Canonical n f) :
    x < y ↔ Decoded.value a m e < Decoded.value b n f := by
  rw [lt_iff_compare, first, second, Decoded.compare_finite a b m n e f left right, Option.some_inj,
    compare_lt_iff_lt]

theorem le_iff_value (first : x.toModel.unpack = (Decoded.finite a m e).unpacked) (left : Decoded.Canonical m e)
    (second : y.toModel.unpack = (Decoded.finite b n f).unpacked) (right : Decoded.Canonical n f) :
    x ≤ y ↔ Decoded.value a m e ≤ Decoded.value b n f := by
  rw [le_iff_compare, first, second, Decoded.compare_finite a b m n e f left right]
  simp [Ordering.isLE_iff_ne_gt, compare_gt_iff_gt]

end

end GridKernel
