import GridKernel.Proofs.Number.Rounding
import GridKernel.Eval.Machine

namespace GridKernel

open Float.Model (UnpackedFloat)
open Float.Model.Format (binary64)

section Truncation

variable (b : UInt64)

theorem field_toNat : ((b >>> 52) &&& 0x7ff).toNat = b.toNat / 2 ^ 52 % 2048 := by
  have mask : b.toNat / 2 ^ 52 &&& 2 ^ 11 - 1 = b.toNat / 2 ^ 52 % 2 ^ 11 := Nat.and_two_pow_sub_one_eq_mod _ 11
  simpa [Nat.shiftRight_eq_div_pow] using mask

theorem clear_toNat (s : UInt64) (bound : s.toNat < 64) :
    (b &&& ~~~(((1 : UInt64) <<< s) - 1)).toNat = b.toNat / 2 ^ s.toNat * 2 ^ s.toNat := by
  have small : 2 ^ s.toNat < 2 ^ 64 := Nat.pow_lt_pow_right (by omega) bound
  have power : ((1 : UInt64) <<< s).toNat = 2 ^ s.toNat := by
    rw [UInt64.toNat_shiftLeft, Nat.mod_eq_of_lt bound, UInt64.toNat_one, Nat.one_shiftLeft, Nat.mod_eq_of_lt small]
  have below : (((1 : UInt64) <<< s) - 1).toNat = 2 ^ s.toNat - 1 := by
    rw [UInt64.toNat_sub_of_le, power, UInt64.toNat_one]
    rw [UInt64.le_iff_toNat_le, power]
    exact Nat.one_le_two_pow
  have mask : 2 ^ 64 - 1 - (2 ^ s.toNat - 1) = 2 ^ 64 - (2 ^ s.toNat - 1 + 1) := by omega
  have bits : b.toNat < 2 ^ 64 := b.toNat_lt
  rw [UInt64.toNat_and, UInt64.toNat_not, below]
  change b.toNat &&& (2 ^ 64 - 1 - (2 ^ s.toNat - 1)) = _
  rw [mask]
  apply Nat.eq_of_testBit_eq
  intro i
  rw [Nat.testBit_and, Nat.testBit_two_pow_sub_succ (by omega), Nat.testBit_two_pow_sub_one,
    ← Nat.shiftRight_eq_div_pow, ← Nat.shiftLeft_eq, Nat.testBit_shiftLeft, Nat.testBit_shiftRight]
  by_cases high : s.toNat ≤ i
  · have same : s.toNat + (i - s.toNat) = i := by omega
    by_cases within : i < 64
    · simp [high, same, within]
    · have absent : b.toNat.testBit i = false :=
        Nat.testBit_lt_two_pow (lt_of_lt_of_le bits (Nat.pow_le_pow_right (by omega) (by omega)))
      simp [same, absent]
  · simp [high]
    omega

theorem truncBits_toNat : (Whole.truncBits b).toNat =
    if b.toNat / 2 ^ 52 % 2048 < 1023 then b.toNat / 2 ^ 63 * 2 ^ 63
    else if b.toNat / 2 ^ 52 % 2048 < 1075 then
      b.toNat / 2 ^ (1075 - b.toNat / 2 ^ 52 % 2048) * 2 ^ (1075 - b.toNat / 2 ^ 52 % 2048)
    else b.toNat := by
  have field := field_toNat b
  unfold Whole.truncBits
  dsimp only
  generalize (b >>> 52) &&& 0x7ff = f at field ⊢
  rw [← field]
  by_cases below : f.toNat < 1023
  · rw [if_pos (UInt64.lt_iff_toNat_lt.mpr below), if_pos below]
    exact clear_toNat b 63 (by decide)
  · rw [if_neg (mt UInt64.lt_iff_toNat_lt.mp below), if_neg below]
    by_cases partial' : f.toNat < 1075
    · have shift : (1075 - f).toNat = 1075 - f.toNat :=
        UInt64.toNat_sub_of_le _ _ (UInt64.le_iff_toNat_le.mpr partial'.le)
      rw [if_pos (UInt64.lt_iff_toNat_lt.mpr partial'), if_pos partial', ← shift]
      exact clear_toNat b _ (by omega)
    · rw [if_neg (mt UInt64.lt_iff_toNat_lt.mp partial'), if_neg partial']

-- Clearing bits inside the fraction keeps the other fields.
theorem cleared_fields (p s d : Nat) (width : s + d = 52) :
    p / 2 ^ s * 2 ^ s / 2 ^ 52 = p / 2 ^ 52 ∧ p / 2 ^ s * 2 ^ s % 2 ^ 52 = p % 2 ^ 52 / 2 ^ s * 2 ^ s ∧
      (p / 2 ^ s * 2 ^ s).testBit 63 = p.testBit 63 := by
  have split : 2 ^ 52 = 2 ^ s * 2 ^ d := by rw [← pow_add, width]
  refine ⟨?_, ?_, ?_⟩
  · rw [split, ← Nat.div_div_eq_div_mul, Nat.mul_div_cancel _ (Nat.two_pow_pos s), Nat.div_div_eq_div_mul]
  · rw [split, mul_comm (2 ^ s) (2 ^ d), Nat.mul_mod_mul_right, mul_comm (2 ^ d), Nat.mod_mul_right_div_self]
  · rw [← Nat.shiftRight_eq_div_pow, ← Nat.shiftLeft_eq, Nat.testBit_shiftLeft, Nat.testBit_shiftRight]
    have same : s + (63 - s) = 63 := by omega
    simp [same]
    omega

end Truncation

namespace Decoded

def unit : Nat := units 1 0

theorem unit_pos : 0 < unit := units_pos 1 0 one_ne_zero

theorem unit_split (s t : Nat) (total : s + t = 1074) : unit = 2 ^ s * 2 ^ t := by
  rw [unit, units, one_mul, ← pow_add]
  congr 1
  omega

theorem units_below_one (m : Nat) (e : Int) (bits : m < 2 ^ 53) (small : e < -52) : units m e / unit = 0 := by
  apply Nat.div_eq_of_lt
  calc m * 2 ^ (e + 1074).toNat < 2 ^ 53 * 2 ^ (e + 1074).toNat :=
        Nat.mul_lt_mul_of_pos_right bits (Nat.two_pow_pos _)
    _ = 2 ^ (53 + (e + 1074).toNat) := by rw [pow_add]
    _ ≤ 1 * 2 ^ (0 + 1074 : Int).toNat := by
        rw [one_mul]
        exact Nat.pow_le_pow_right (by omega) (by omega)

theorem units_with_fraction (m s : Nat) (e : Int) (shift : e = -s) (least : s ≤ 1074) :
    units m e / unit = m / 2 ^ s := by
  rw [units, unit_split s (e + 1074).toNat (by omega), Nat.mul_div_mul_right _ _ (Nat.two_pow_pos _)]

theorem units_whole (m : Nat) (e : Int) (whole : 0 ≤ e) : units m e = m * 2 ^ e.toNat * unit := by
  have split : (e + 1074).toNat = e.toNat + (0 + 1074 : Int).toNat := by omega
  rw [unit, units, units, split, pow_add, one_mul, mul_assoc]

end Decoded

-- Truncation keeps the sign and as many units as make whole ones.
theorem decode_truncBits (b : UInt64) (negative : Bool) (m : Nat) (e : Int)
    (decoded : Format.double.decode b.toNat = .finite negative m e) :
    ∃ n f, Format.double.decode (Whole.truncBits b).toNat = .finite negative n f ∧
      Decoded.units n f = Decoded.units m e / Decoded.unit * Decoded.unit := by
  have canonical := double_decode_canonical _ _ _ _ decoded
  have truncated := truncBits_toNat b
  generalize b.toNat = p at decoded truncated
  have whole := decoded
  rw [double_decode] at decoded
  by_cases below : p / 2 ^ 52 % 2048 < 1023
  · rw [if_pos below] at truncated
    have sign : negative = p.testBit 63 ∧ e < -52 := by
      rw [if_neg (by omega)] at decoded
      split at decoded
      · cases decoded
        exact ⟨rfl, by omega⟩
      · cases decoded
        exact ⟨rfl, by omega⟩
    have field : p / 2 ^ 63 * 2 ^ 63 / 2 ^ 52 % 2048 = 0 := by omega
    have fraction : p / 2 ^ 63 * 2 ^ 63 % 2 ^ 52 = 0 := by omega
    have top : (p / 2 ^ 63 * 2 ^ 63).testBit 63 = p.testBit 63 := by
      rw [← Nat.shiftRight_eq_div_pow, ← Nat.shiftLeft_eq, Nat.testBit_shiftLeft, Nat.testBit_shiftRight]
      rfl
    refine ⟨0, -1074, ?_, ?_⟩
    · rw [truncated, double_decode, field, fraction, top, sign.1]
      rfl
    · rw [Decoded.units_below_one m e canonical.bits sign.2, Decoded.units, Nat.zero_mul, Nat.zero_mul]
  · rw [if_neg below] at truncated
    by_cases inside : p / 2 ^ 52 % 2048 < 1075
    · rw [if_pos inside] at truncated
      rw [if_neg (by omega), if_neg (by omega)] at decoded
      cases decoded
      generalize shift : 1075 - p / 2 ^ 52 % 2048 = s at truncated
      obtain ⟨d, width⟩ : ∃ d, s + d = 52 := ⟨52 - s, by omega⟩
      obtain ⟨high, fraction, top⟩ := cleared_fields p s d width
      have split : 2 ^ 52 = 2 ^ d * 2 ^ s := by rw [← pow_add, add_comm, width]
      refine ⟨2 ^ 52 + p % 2 ^ 52 / 2 ^ s * 2 ^ s, (p / 2 ^ 52 % 2048 : Nat) - 1075, ?_, ?_⟩
      · rw [truncated, double_decode, high, fraction, top, if_neg (by omega), if_neg (by omega)]
      · have parts : 2 ^ 52 + p % 2 ^ 52 / 2 ^ s * 2 ^ s = (2 ^ 52 + p % 2 ^ 52) / 2 ^ s * 2 ^ s := by
          rw [split, mul_comm (2 ^ d), Nat.mul_add_div (Nat.two_pow_pos s)]
          ring
        rw [Decoded.units_with_fraction _ s _ (by omega) (by omega), parts, Decoded.units,
          Decoded.unit_split s (((p / 2 ^ 52 % 2048 : Nat) : Int) - 1075 + 1074).toNat (by omega), mul_assoc]
    · rw [if_neg inside] at truncated
      have exponent : 0 ≤ e := by
        split at decoded
        · split at decoded <;> cases decoded
        · rw [if_neg (by omega)] at decoded
          cases decoded
          omega
      refine ⟨m, e, by rw [truncated, whole], ?_⟩
      rw [Decoded.units_whole m e exponent, Nat.mul_div_cancel _ Decoded.unit_pos]

-- Patterns that stand for no finite number have all exponent bits set and are kept.
theorem decode_truncBits_special (b : UInt64) (special : ∀ negative m e, Format.double.decode b.toNat ≠ .finite negative m e) :
    Format.double.decode (Whole.truncBits b).toNat = Format.double.decode b.toNat := by
  have full : b.toNat / 2 ^ 52 % 2048 = 2047 := by
    by_contra other
    rw [double_decode, if_neg other] at special
    split at special
    · exact special _ _ _ rfl
    · exact special _ _ _ rfl
  rw [truncBits_toNat, if_neg (by omega), if_neg (by omega)]

theorem signOf_inj (a b : Bool) (same : signOf a = signOf b) : a = b := by
  cases a <;> cases b <;> simp_all [signOf]

theorem decode_of_unpack (x : Float) (negative : Bool) (m : Nat) (e : Int) (canonical : Decoded.Canonical m e)
    (unpacked : x.toModel.unpack = (Decoded.finite negative m e).unpacked) :
    (Double.ofFloat x).decode = .finite negative m e := by
  have least : ∀ f, Decoded.Canonical 0 f → f = -1074 := by
    intro f held
    rcases held.leading with first | large
    · exact first
    · omega
  rw [unpack_toBits] at unpacked
  generalize decoded : (Double.ofFloat x).decode = d at unpacked
  by_cases empty : m = 0
  · subst empty
    rw [Decoded.unpacked_zero] at unpacked
    rw [least e canonical]
    cases d with
    | nan => cases unpacked
    | infinite sign => cases unpacked
    | finite sign n f =>
      have held := double_decode_canonical _ _ _ _ decoded
      by_cases none : n = 0
      · subst none
        rw [Decoded.unpacked_zero, UnpackedFloat.zero.injEq] at unpacked
        rw [least f held, signOf_inj sign negative unpacked]
      · rw [Decoded.unpacked_finite _ _ _ none] at unpacked
        cases unpacked
  · rw [Decoded.unpacked_finite _ _ _ empty] at unpacked
    cases d with
    | nan => cases unpacked
    | infinite sign => cases unpacked
    | finite sign n f =>
      by_cases none : n = 0
      · subst none
        cases unpacked
      · rw [Decoded.unpacked_finite _ _ _ none, UnpackedFloat.finite.injEq] at unpacked
        obtain ⟨sameSign, rfl, rfl⟩ := unpacked
        rw [signOf_inj sign negative sameSign]

theorem neg_ediv_pow (m s : Nat) : -(m : Int) / (2 ^ s : Nat) = -((m + (2 ^ s - 1)) / 2 ^ s : Nat) := by
  have pos : 0 < 2 ^ s := Nat.two_pow_pos s
  have above := Nat.div_mul_le_self (m + (2 ^ s - 1)) (2 ^ s)
  have below := Nat.lt_div_mul_add (a := m + (2 ^ s - 1)) pos
  generalize (m + (2 ^ s - 1)) / 2 ^ s = q at above below ⊢
  generalize 2 ^ s = p at pos above below ⊢
  have wide : 0 < (p : Int) := by omega
  apply le_antisymm
  · rw [Int.ediv_le_iff_le_mul wide, Int.neg_mul, ← Nat.cast_mul]
    omega
  · rw [Int.le_ediv_iff_mul_le wide, Int.neg_mul, ← Nat.cast_mul]
    omega

theorem floorInt?_finite (x : Float) (negative : Bool) (m : Nat) (e : Int) (least : -1074 ≤ e)
    (decoded : (Double.ofFloat x).decode = .finite negative m e) :
    Whole.floorInt? x = some (Decoded.value negative m e / Decoded.unit) := by
  have pos : 0 < (Decoded.unit : Int) := Int.ofNat_lt.mpr Decoded.unit_pos
  unfold Whole.floorInt?
  rw [decoded]
  dsimp only
  by_cases whole : 0 ≤ e
  · rw [if_pos whole, Nat.shiftLeft_eq]
    cases negative
    · rw [Decoded.value_false, Decoded.units_whole m e whole, Nat.cast_mul (m * _), Int.mul_ediv_cancel _ pos.ne']
      rfl
    · rw [Decoded.value_true, Decoded.units_whole m e whole, Nat.cast_mul (m * _), ← Int.neg_mul,
        Int.mul_ediv_cancel _ pos.ne']
      rfl
  · rw [if_neg whole]
    have shift : e = -((-e).toNat : Int) := by omega
    generalize (-e).toNat = s at shift
    cases negative
    · rw [Decoded.value_false, ← Int.natCast_ediv, Decoded.units_with_fraction m s e shift (by omega),
        ← Nat.shiftRight_eq_div_pow]
      rfl
    · have split := Decoded.unit_split s (e + 1074).toNat (by omega)
      rw [Decoded.value_true, Decoded.units, split, Nat.cast_mul, Nat.cast_mul, ← Int.neg_mul,
        Int.mul_ediv_mul_of_pos_left _ _ (by exact_mod_cast Nat.two_pow_pos _), neg_ediv_pow, Nat.shiftRight_eq_div_pow,
        Nat.one_shiftLeft]
      rfl

theorem trunc_finite (x : Float) (negative : Bool) (m : Nat) (e : Int)
    (decoded : (Double.ofFloat x).decode = .finite negative m e) :
    ∃ n f, (Whole.trunc x).toModel.unpack = (Decoded.finite negative n f).unpacked ∧ Decoded.Canonical n f ∧
      Decoded.units n f = Decoded.units m e / Decoded.unit * Decoded.unit := by
  obtain ⟨n, f, truncated, whole⟩ := decode_truncBits x.toBits negative m e decoded
  refine ⟨n, f, ?_, double_decode_canonical _ _ _ _ truncated, whole⟩
  rw [Whole.trunc, unpack_ofBits, truncated]

theorem floor_special (x : Float) (special : ∀ negative m e, (Double.ofFloat x).decode ≠ .finite negative m e) :
    (Whole.floor x).toModel.unpack = (Double.ofFloat x).decode.unpacked := by
  have kept : (Whole.trunc x).toModel.unpack = (Double.ofFloat x).decode.unpacked := by
    rw [Whole.trunc, unpack_ofBits, decode_truncBits_special x.toBits special]
    rfl
  have level : ¬x < Whole.trunc x := by
    rw [lt_iff_compare, kept, unpack_toBits x]
    cases decoded : (Double.ofFloat x).decode with
    | nan => intro less; cases less
    | infinite negative => cases negative <;> (intro less; cases less)
    | finite negative m e => exact absurd decoded (special negative m e)
  unfold Whole.floor
  dsimp only
  rw [if_neg level, kept]

theorem floor_negative (x : Float) (negative : Bool) (m : Nat) (e : Int)
    (decoded : (Double.ofFloat x).decode = .finite negative m e) (below : Decoded.value negative m e < 0) :
    ¬(0.0 : Float) ≤ Whole.floor x := by
  have canonical := double_decode_canonical _ _ _ _ decoded
  have read : x.toModel.unpack = (Decoded.finite negative m e).unpacked := by rw [unpack_toBits, decoded]
  obtain ⟨n, f, truncated, held, whole⟩ := trunc_finite x negative m e decoded
  cases negative with
  | false =>
    rw [Decoded.value_false] at below
    omega
  | true =>
    unfold Whole.floor
    dsimp only
    split
    · exact not_zero_le_sub_one _ n f held truncated
    · rename_i level
      rw [lt_iff_value read canonical truncated held, Decoded.value_true, Decoded.value_true] at level
      rw [le_iff_value unpack_zero ⟨by decide, by decide, by decide, .inl rfl⟩ truncated held, Decoded.value_true,
        Decoded.value_zero]
      rw [Decoded.value_true] at below
      omega

theorem floor_nonnegative (x : Float) (negative : Bool) (m : Nat) (e : Int)
    (decoded : (Double.ofFloat x).decode = .finite negative m e) (least : 0 ≤ Decoded.value negative m e) :
    ∃ n f, (Whole.floor x).toModel.unpack = (Decoded.finite negative n f).unpacked ∧ Decoded.Canonical n f ∧
      Decoded.value negative n f = Decoded.value negative m e / Decoded.unit * Decoded.unit := by
  have canonical := double_decode_canonical _ _ _ _ decoded
  have read : x.toModel.unpack = (Decoded.finite negative m e).unpacked := by rw [unpack_toBits, decoded]
  obtain ⟨n, f, truncated, held, whole⟩ := trunc_finite x negative m e decoded
  have same : Decoded.value negative n f = Decoded.value negative m e / Decoded.unit * Decoded.unit := by
    cases negative with
    | false =>
      rw [Decoded.value_false, Decoded.value_false, whole]
      rfl
    | true =>
      have none : Decoded.units m e = 0 := by
        rw [Decoded.value_true] at least
        omega
      rw [none, Nat.zero_div, Nat.zero_mul] at whole
      rw [Decoded.value_true, Decoded.value_true, whole, none, Int.ofNat_zero, Int.neg_zero, Int.zero_ediv, Int.zero_mul]
  refine ⟨n, f, ?_, held, same⟩
  have level : ¬x < Whole.trunc x := by
    rw [lt_iff_value read canonical truncated held, same]
    exact not_lt.mpr (Int.ediv_mul_le _ (Int.ofNat_lt.mpr Decoded.unit_pos).ne')
  unfold Whole.floor
  dsimp only
  rw [if_neg level, truncated]

section Sizes

variable (n : Nat)

theorem roundShift_bounds (m s : Nat) : m / 2 ^ s ≤ roundShift m s ∧ roundShift m s ≤ m / 2 ^ s + 1 := by
  rw [← Nat.shiftRight_eq_div_pow]
  unfold roundShift
  dsimp only
  split
  · omega
  · split <;> omega

-- The mantissa of a positive number before its carry is taken up.
def scaledMantissa : Nat :=
  if n.log2 ≤ 52 then n * 2 ^ (52 - n.log2) else roundShift n (n.log2 - 52)

theorem scaledMantissa_bounds (nonzero : n ≠ 0) : 2 ^ 52 ≤ scaledMantissa n ∧ scaledMantissa n ≤ 2 ^ 53 := by
  have low : 2 ^ n.log2 ≤ n := Nat.log2_self_le nonzero
  have high : n < 2 ^ (n.log2 + 1) := Nat.lt_log2_self
  unfold scaledMantissa
  split
  · rename_i short
    have top : 2 ^ 52 = 2 ^ n.log2 * 2 ^ (52 - n.log2) := by rw [← pow_add, Nat.add_sub_cancel' short]
    have above : 2 ^ 53 = 2 ^ (n.log2 + 1) * 2 ^ (52 - n.log2) := by
      rw [← pow_add]
      congr 1
      omega
    rw [top, above]
    exact ⟨Nat.mul_le_mul_right _ low, Nat.mul_le_mul_right _ high.le⟩
  · rename_i long
    obtain ⟨s, length⟩ : ∃ s, n.log2 = 52 + s := ⟨n.log2 - 52, by omega⟩
    have shift : n.log2 - 52 = s := by omega
    have bounds := roundShift_bounds n s
    rw [shift]
    have above : 2 ^ 52 ≤ n / 2 ^ s := by
      rw [Nat.le_div_iff_mul_le (Nat.two_pow_pos s), ← pow_add, ← length]
      exact low
    have below : n / 2 ^ s < 2 ^ 53 := by
      rw [Nat.div_lt_iff_lt_mul (Nat.two_pow_pos s), ← pow_add]
      exact lt_of_lt_of_le high (Nat.pow_le_pow_right (by omega) (by omega))
    omega

theorem scaledMantissa_units (nonzero : n ≠ 0) :
    scaledMantissa n * 2 ^ (n.log2 + 1022) = Double.nearestNat n * Decoded.unit := by
  unfold scaledMantissa Double.nearestNat
  by_cases short : n.log2 ≤ 52
  · have small : n < 2 ^ 53 := (Nat.log2_lt nonzero).mp (by omega)
    rw [if_pos short, if_pos (by omega), Decoded.unit_split (52 - n.log2) (n.log2 + 1022) (by omega), mul_assoc]
  · have large : ¬n < 2 ^ 53 := by
      rw [← Nat.log2_lt nonzero]
      omega
    have split : n.log2 + 1022 = (n.log2 - 52) + (52 + 1022) := by omega
    rw [if_neg short, if_neg (by omega), Nat.shiftLeft_eq, split, pow_add, Decoded.unit_split 52 1022 rfl, ← pow_add 2 52,
      mul_assoc]

theorem nearest_eq (nonzero : n ≠ 0) :
    Format.double.nearest false n 0 = min ((n.log2 + 1022) * 2 ^ 52 + scaledMantissa n) (2047 * 2 ^ 52) := by
  have least : Format.double.leastExponent = -1074 := by decide
  have infinity : Format.double.infinity = 2047 * 2 ^ 52 := by decide
  have width : Format.double.fraction = 52 := rfl
  have last : max ((n.log2 : Int) + 0 - (52 : Nat)) (-1074) = (n.log2 : Int) - 52 := by omega
  have field : ((n.log2 : Int) - 52 - -1074).toNat = n.log2 + 1022 := by omega
  have left : (0 - ((n.log2 : Int) - 52)).toNat = 52 - n.log2 := by omega
  have right : ((n.log2 : Int) - 52 - 0).toNat = n.log2 - 52 := by omega
  unfold Format.nearest
  rw [if_neg nonzero]
  dsimp only
  unfold Format.lastPlace Format.signed
  rw [if_neg Bool.false_ne_true, least, infinity, width, last, field, left, right, Nat.shiftLeft_eq, Nat.shiftLeft_eq]
  unfold scaledMantissa
  by_cases short : n.log2 ≤ 52
  · rw [if_pos (by omega), if_pos short]
  · rw [if_neg (by omega), if_neg short]

-- A carry out of the mantissa moves into the exponent field.
theorem decode_carry (t s : Nat) (least : 2 ^ 52 ≤ s) (most : s ≤ 2 ^ 53) (small : t * 2 ^ 52 + s < 2047 * 2 ^ 52) :
    ∃ m e, Format.double.decode (t * 2 ^ 52 + s) = .finite false m e ∧ Decoded.units m e = s * 2 ^ t := by
  have sign : (t * 2 ^ 52 + s).testBit 63 = false := Nat.testBit_lt_two_pow (by omega)
  rw [double_decode, sign, if_neg (by omega), if_neg (by omega)]
  refine ⟨_, _, rfl, ?_⟩
  unfold Decoded.units
  by_cases carry : s = 2 ^ 53
  · subst carry
    have field : (t * 2 ^ 52 + 2 ^ 53) / 2 ^ 52 % 2048 = t + 2 := by omega
    have fraction : (t * 2 ^ 52 + 2 ^ 53) % 2 ^ 52 = 0 := by omega
    have exponent : (((t + 2 : Nat) : Int) - 1075 + 1074).toNat = 1 + t := by omega
    rw [field, fraction, exponent]
    ring
  · have field : (t * 2 ^ 52 + s) / 2 ^ 52 % 2048 = t + 1 := by omega
    have fraction : 2 ^ 52 + (t * 2 ^ 52 + s) % 2 ^ 52 = s := by omega
    have exponent : (((t + 1 : Nat) : Int) - 1075 + 1074).toNat = t := by omega
    rw [field, fraction, exponent]

theorem units_lt_infinity (t s m : Nat) (e : Int) (least : 2 ^ 52 ≤ s) (most : s ≤ 2 ^ 53)
    (large : 2047 * 2 ^ 52 ≤ t * 2 ^ 52 + s) (canonical : Decoded.Canonical m e) :
    Decoded.units m e < s * 2 ^ t := by
  obtain ⟨bits, low, high, _⟩ := canonical
  have scale : Decoded.units m e < 2 ^ 53 * 2 ^ (e + 1074).toNat :=
    Nat.mul_lt_mul_of_pos_right bits (Nat.two_pow_pos _)
  refine lt_of_lt_of_le scale ?_
  by_cases carry : s = 2 ^ 53
  · subst carry
    exact Nat.mul_le_mul_left _ (Nat.pow_le_pow_right (by omega) (by omega))
  · calc 2 ^ 53 * 2 ^ (e + 1074).toNat = 2 ^ 52 * 2 ^ (1 + (e + 1074).toNat) := by ring
      _ ≤ s * 2 ^ t := Nat.mul_le_mul least (Nat.pow_le_pow_right (by omega) (by omega))

-- A size as a number is the nearest one, which may be past all finite numbers.
theorem unpack_ofCoordinate :
    (∃ m e, (ofCoordinate n).toModel.unpack = (Decoded.finite false m e).unpacked ∧ Decoded.Canonical m e ∧
      Decoded.units m e = Double.nearestNat n * Decoded.unit) ∨
    ((ofCoordinate n).toModel.unpack = .infinity .positive ∧
      ∀ m e, Decoded.Canonical m e → Decoded.units m e < Double.nearestNat n * Decoded.unit) := by
  have bits : (ofCoordinate n).toModel.unpack =
      (Format.double.decode (Format.double.nearest false n 0).toUInt64.toNat).unpacked := by
    have positive : decide ((n : Int) < 0) = false := decide_eq_false (by omega)
    rw [ofCoordinate, Double.toFloat, unpack_ofBits, Double.ofInt, positive]
    rfl
  rw [bits]
  by_cases some : n = 0
  · subst some
    have decoded : Format.double.decode (Format.double.nearest false 0 0).toUInt64.toNat = .finite false 0 (-1074) := by
      decide +kernel
    rw [decoded]
    exact .inl ⟨0, -1074, rfl, double_decode_canonical _ _ _ _ decoded, by simp [Decoded.units, Double.nearestNat]⟩
  · obtain ⟨least, most⟩ := scaledMantissa_bounds n some
    have total := scaledMantissa_units n some
    rw [nearest_eq n some]
    generalize scaledMantissa n = s at least most total ⊢
    generalize n.log2 + 1022 = t at total ⊢
    rw [← total]
    by_cases small : t * 2 ^ 52 + s < 2047 * 2 ^ 52
    · obtain ⟨m, e, decoded, units⟩ := decode_carry t s least most small
      have word : (min (t * 2 ^ 52 + s) (2047 * 2 ^ 52)).toUInt64.toNat = t * 2 ^ 52 + s := by
        rw [min_eq_left small.le]
        exact UInt64.toNat_ofNat_of_lt' (by rw [UInt64.size]; omega)
      rw [word, decoded]
      exact .inl ⟨m, e, rfl, double_decode_canonical _ _ _ _ decoded, units⟩
    · rw [min_eq_right (by omega)]
      have decoded : Format.double.decode (2047 * 2 ^ 52).toUInt64.toNat = .infinite false := by decide +kernel
      rw [decoded]
      exact .inr ⟨rfl, fun m e canonical => units_lt_infinity t s m e least most (by omega) canonical⟩

end Sizes

theorem infinity_not_lt (u : UnpackedFloat) : UnpackedFloat.compare (.infinity .positive) u ≠ some .lt := by
  cases u with
  | infinity sign => cases sign <;> decide
  | notANumber => decide
  | zero => nofun
  | finite => nofun

theorem floor_lt_ofCoordinate (size : Nat) (k : Int) {x : Float} {negative : Bool} {m : Nat} {e : Int}
    (read : x.toModel.unpack = (Decoded.finite negative m e).unpacked) (held : Decoded.Canonical m e)
    (whole : Decoded.value negative m e = k * Decoded.unit) :
    x < ofCoordinate size ↔ k < Double.nearestNat size := by
  have unit : (0 : Int) < Decoded.unit := Int.ofNat_lt.mpr Decoded.unit_pos
  rcases unpack_ofCoordinate size with ⟨n, f, right, canonical, units⟩ | ⟨right, past⟩
  · rw [lt_iff_value read held right canonical, Decoded.value_false, whole, units, Nat.cast_mul]
    exact Int.mul_lt_mul_right unit
  · have above : Decoded.value negative m e < Double.nearestNat size * Decoded.unit := by
      have magnitude := past m e held
      rw [← Nat.cast_mul]
      generalize Double.nearestNat size * Decoded.unit = bound at magnitude ⊢
      cases negative
      · rw [Decoded.value_false]
        omega
      · rw [Decoded.value_true]
        omega
    have yes : x < ofCoordinate size := by
      rw [lt_iff_compare, read, right]
      by_cases empty : m = 0
      · subst empty
        rfl
      · rw [Decoded.unpacked_finite _ _ _ empty]
        rfl
    rw [whole] at above
    exact iff_of_true yes (Int.lt_of_mul_lt_mul_right above unit.le)

section Inside

variable {size : Nat} {index : Float} (zero : (0.0 : Float) ≤ Whole.floor index)
  (less : Whole.floor index < ofCoordinate size)

include zero less

theorem finite_of_floor_inside : ∃ negative m e, (Double.ofFloat index).decode = .finite negative m e := by
  rw [le_iff_compare] at zero
  rw [lt_iff_compare] at less
  obtain ⟨o, compared, order⟩ := zero
  cases decoded : (Double.ofFloat index).decode with
  | nan =>
    rw [floor_special index (by simp [decoded]), decoded] at compared
    cases compared
  | infinite negative =>
    rw [floor_special index (by simp [decoded]), decoded] at compared less
    cases negative with
    | false => exact absurd less (infinity_not_lt _)
    | true =>
      rw [unpack_zero] at compared
      cases compared
      cases order
  | finite negative m e => exact ⟨negative, m, e, rfl⟩

theorem floorInt?_floor_inside : ∃ k, Whole.floorInt? (Whole.floor index) = some k := by
  obtain ⟨negative, m, e, decoded⟩ := finite_of_floor_inside zero less
  by_cases below : Decoded.value negative m e < 0
  · exact absurd zero (floor_negative index negative m e decoded below)
  · obtain ⟨n, f, floor, held, _⟩ := floor_nonnegative index negative m e decoded (by omega)
    exact ⟨_, floorInt?_finite _ negative n f held.least (decode_of_unpack _ negative n f held floor)⟩

end Inside

-- The coordinate that an index addresses, found by comparing its floor with the size.
theorem coordinate?_eq (size : Nat) (index : Float) : View.coordinate? size index =
    if (0.0 : Float) ≤ Whole.floor index ∧ Whole.floor index < ofCoordinate size then
      (Whole.floorInt? (Whole.floor index)).map Int.toNat
    else none := by
  have unit : (0 : Int) < Decoded.unit := Int.ofNat_lt.mpr Decoded.unit_pos
  have special (other : ∀ negative m e, (Double.ofFloat index).decode ≠ .finite negative m e) :
      ¬((0.0 : Float) ≤ Whole.floor index ∧ Whole.floor index < ofCoordinate size) := by
    rintro ⟨zero, less⟩
    obtain ⟨negative, m, e, finite⟩ := finite_of_floor_inside zero less
    exact other negative m e finite
  unfold View.coordinate?
  cases decoded : (Double.ofFloat index).decode with
  | nan => rw [if_neg (special (by simp [decoded])), Whole.floorInt?, decoded]
  | infinite negative => rw [if_neg (special (by simp [decoded])), Whole.floorInt?, decoded]
  | finite negative m e =>
    have canonical := double_decode_canonical _ _ _ _ decoded
    rw [floorInt?_finite index negative m e canonical.least decoded]
    dsimp only
    by_cases below : Decoded.value negative m e < 0
    · have no := floor_negative index negative m e decoded below
      have under : Decoded.value negative m e / Decoded.unit < 0 := Int.ediv_neg_of_neg_of_pos below unit
      rw [if_neg (by omega), if_neg (fun both => no both.1)]
    · obtain ⟨n, f, floor, held, whole⟩ := floor_nonnegative index negative m e decoded (by omega)
      have least : 0 ≤ Decoded.value negative m e / Decoded.unit := Int.ediv_nonneg (by omega) unit.le
      have some := floorInt?_finite _ negative n f held.least (decode_of_unpack _ negative n f held floor)
      rw [whole, Int.mul_ediv_cancel _ unit.ne'] at some
      generalize Decoded.value negative m e / Decoded.unit = k at whole least some ⊢
      have zero : (0.0 : Float) ≤ Whole.floor index := by
        rw [le_iff_value unpack_zero ⟨by decide, by decide, by decide, .inl rfl⟩ floor held, Decoded.value_zero, whole]
        exact Int.mul_nonneg least unit.le
      have less : Whole.floor index < ofCoordinate size ↔ k < Double.nearestNat size :=
        floor_lt_ofCoordinate size k floor held whole
      simp only [some, zero, less, least, true_and, Option.map_some]

end GridKernel
