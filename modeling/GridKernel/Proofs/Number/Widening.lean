import GridKernel.Proofs.Number.Nearest
import GridKernel.Proofs.Number.Exact
import Mathlib.Data.Nat.Bitwise

namespace GridKernel

open Float.Model (UnpackedFloat)

theorem fields_toNat {a b c : UInt64} {s t : Nat} (sign : a.toNat = 2 ^ 63 * s) (field : b.toNat = 2 ^ 52 * t)
    (fields : t < 2 ^ 11) (fraction : c.toNat < 2 ^ 52) :
    (a ||| b ||| c).toNat = 2 ^ 63 * s + (2 ^ 52 * t + c.toNat) := by
  have high : 2 ^ 52 * (2 ^ 11 * s + t) = 2 ^ 63 * s ||| 2 ^ 52 * t := by
    rw [← Nat.two_pow_add_eq_or_of_lt (by omega : 2 ^ 52 * t < 2 ^ 63)]
    omega
  rw [UInt64.toNat_or, UInt64.toNat_or, sign, field, ← high, ← Nat.two_pow_add_eq_or_of_lt fraction]
  omega

theorem decode_fields (negative : Bool) (t r : Nat) (fields : t < 2 ^ 11) (fraction : r < 2 ^ 52) :
    Format.double.decode (2 ^ 63 * negative.toNat + (2 ^ 52 * t + r)) =
      if t = 2047 then if r = 0 then .infinite negative else .nan
      else if t = 0 then .finite negative r (-1074)
      else .finite negative (2 ^ 52 + r) (t - 1075) := by
  have bit := Bool.toNat_le negative
  have top : (2 ^ 63 * negative.toNat + (2 ^ 52 * t + r)) / 2 ^ 52 % 2048 = t := by omega
  have low : (2 ^ 63 * negative.toNat + (2 ^ 52 * t + r)) % 2 ^ 52 = r := by omega
  have sign : (2 ^ 63 * negative.toNat + (2 ^ 52 * t + r)).testBit 63 = negative := by
    rw [Nat.testBit_two_pow_mul_add _ (by omega)]
    cases negative <;> rfl
  rw [double_decode, top, low, sign]

theorem Double.decode_pattern (negative : Bool) {m : Nat} {e : Int} (canonical : Format.double.Canonical m e) :
    Double.decode ⟨(Format.double.pattern negative m e).toUInt64⟩ = .finite negative m e := by
  rw [Double.decode, UInt64.toNat_ofNat_of_lt' (canonical.pattern_lt negative), Format.decode_pattern negative canonical]

theorem Double.canonical_of_decode {d : Double} {negative : Bool} {m : Nat} {e : Int}
    (decoded : d.decode = .finite negative m e) :
    Format.double.Canonical m e ∧ d = ⟨(Format.double.pattern negative m e).toUInt64⟩ := by
  obtain ⟨canonical, bits⟩ := Format.canonical_of_decode (f := Format.double) d.bits.toNat_lt decoded
  exact ⟨canonical, congrArg Double.mk (bits ▸ UInt64.ofNat_toNat.symm)⟩

theorem Format.Canonical.bounds {m : Nat} {e : Int} (canonical : Format.single.Canonical m e) :
    m < 2 ^ 24 ∧ -149 ≤ e ∧ e ≤ 104 := by
  have least : Format.single.leastExponent = -149 := by decide
  have infinity : Format.single.infinity = 255 * 2 ^ 23 := by decide
  have width : Format.single.fraction = 23 := rfl
  obtain ⟨bits, low, leading, finite⟩ := canonical
  rw [least] at low leading finite
  rw [width] at leading
  rw [infinity, width] at finite
  exact ⟨bits, low, by omega⟩

namespace Single

structure HasFields (w : Single) (negative : Bool) (field fraction : Nat) : Prop where
  field_lt : field < 256
  fraction_lt : fraction < 2 ^ 23
  bits : w.bits.toNat = 2 ^ 31 * negative.toNat + (2 ^ 23 * field + fraction)

theorem exists_fields (w : Single) : ∃ negative field fraction, w.HasFields negative field fraction := by
  have word := w.bits.toNat_lt
  refine ⟨w.bits.toNat.testBit 31, w.bits.toNat / 2 ^ 23 % 256, w.bits.toNat % 2 ^ 23, by omega, by omega, ?_⟩
  rw [Nat.testBit_eq_decide_div_mod_eq]
  by_cases top : w.bits.toNat / 2 ^ 31 % 2 = 1
  · rw [decide_eq_true top, Bool.toNat_true]
    omega
  · rw [decide_eq_false top, Bool.toNat_false]
    omega

namespace HasFields

variable {w : Single} {negative : Bool} {field fraction : Nat} (has : w.HasFields negative field fraction)

include has

theorem testBit_eq : w.bits.toNat.testBit 31 = negative := by
  obtain ⟨fields, fractions, bits⟩ := has
  rw [bits, Nat.testBit_two_pow_mul_add _ (by omega)]
  cases negative <;> rfl

theorem decode_eq : w.decode =
    if field = 255 then if fraction = 0 then .infinite negative else .nan
    else if field = 0 then .finite negative fraction (-149)
    else .finite negative (2 ^ 23 + fraction) (field - 150) := by
  obtain ⟨fields, fractions, bits⟩ := has
  have least : Format.single.leastExponent = -149 := by decide
  have width : Format.single.fraction = 23 := rfl
  have fieldWidth : Format.single.exponent = 8 := rfl
  have top : (2 ^ 23 * field + fraction) / 2 ^ 23 = field := by omega
  have low : (2 ^ 23 * field + fraction) % 2 ^ 23 = fraction := by omega
  have signed : w.bits.toNat = Format.single.signed negative (2 ^ 23 * field + fraction) := by
    rw [bits, Format.signed_eq, width, fieldWidth]
  rw [decode, signed, Format.decode_signed _ _ _ (show 2 ^ 23 * field + fraction < 2 ^ 31 by omega), width, fieldWidth,
    least, top, low]
  by_cases full : field = 255
  · rw [if_pos (by omega), if_pos full]
  · rw [if_neg (by omega), if_neg full]
    by_cases empty : field = 0
    · rw [if_pos empty, if_pos empty]
    · rw [if_neg empty, if_neg empty, Decoded.finite.injEq]
      exact ⟨rfl, rfl, by omega⟩

theorem sign_toNat : ((w.bits &&& 0x80000000).toUInt64 <<< 32).toNat = 2 ^ 63 * negative.toNat := by
  have bit : w.bits.toNat &&& 2 ^ 31 = negative.toNat * 2 ^ 31 := by rw [Nat.and_two_pow, has.testBit_eq]
  have word : (w.bits &&& 0x80000000).toUInt64.toNat = negative.toNat * 2 ^ 31 := by
    rw [UInt32.toNat_toUInt64, UInt32.toNat_and]
    exact bit
  rw [UInt64.toNat_shiftLeft, word]
  cases negative <;> rfl

theorem field_toNat : ((w.bits >>> 23) &&& 0xff).toNat = field := by
  obtain ⟨fields, fractions, bits⟩ := has
  have mask : w.bits.toNat / 2 ^ 23 &&& 2 ^ 8 - 1 = w.bits.toNat / 2 ^ 23 % 2 ^ 8 := Nat.and_two_pow_sub_one_eq_mod _ 8
  have read : w.bits.toNat / 2 ^ 23 % 2 ^ 8 = field := by omega
  rw [← read, ← mask, UInt32.toNat_and, UInt32.toNat_shiftRight, Nat.shiftRight_eq_div_pow]
  rfl

theorem fraction_toNat : (w.bits &&& 0x007fffff).toUInt64.toNat = fraction := by
  obtain ⟨fields, fractions, bits⟩ := has
  have mask : w.bits.toNat &&& 2 ^ 23 - 1 = w.bits.toNat % 2 ^ 23 := Nat.and_two_pow_sub_one_eq_mod _ 23
  have read : w.bits.toNat % 2 ^ 23 = fraction := by omega
  rw [← read, ← mask, UInt32.toNat_toUInt64, UInt32.toNat_and]
  rfl

theorem shifted_toNat : ((w.bits &&& 0x007fffff).toUInt64 <<< 29).toNat = fraction * 2 ^ 29 := by
  have fractions := has.fraction_lt
  rw [UInt64.toNat_shiftLeft, has.fraction_toNat, Nat.shiftLeft_eq]
  exact Nat.mod_eq_of_lt (show fraction * 2 ^ 29 < 2 ^ 64 by omega)

theorem field_eq_iff (k : UInt32) : (w.bits >>> 23) &&& 0xff = k ↔ field = k.toNat := by
  rw [← UInt32.toNat_inj, has.field_toNat]

theorem fraction_eq_zero_iff : (w.bits &&& 0x007fffff).toUInt64 = 0 ↔ fraction = 0 := by
  rw [← UInt64.toNat_inj, has.fraction_toNat]
  rfl

theorem toDouble_infinite (full : field = 255) (none : fraction = 0) : w.toDouble.decode = .infinite negative := by
  unfold toDouble
  dsimp only
  rw [if_pos ((has.field_eq_iff 0xff).mpr full), if_pos (has.fraction_eq_zero_iff.mpr none)]
  have bits := fields_toNat (b := 0x7ff0000000000000) (c := 0) (t := 2047) has.sign_toNat rfl (by decide) (by decide)
  rw [UInt64.or_zero] at bits
  unfold Double.decode
  dsimp only
  rw [bits]
  exact decode_fields negative 2047 0 (by decide) (by decide)

theorem toDouble_nan (full : field = 255) (some : fraction ≠ 0) : w.toDouble.decode = .nan := by
  have fractions := has.fraction_lt
  unfold toDouble
  dsimp only
  rw [if_pos ((has.field_eq_iff 0xff).mpr full), if_neg (mt has.fraction_eq_zero_iff.mp some)]
  have quiet : (0x7ff8000000000000 : UInt64) = 0x7ff0000000000000 ||| 0x8000000000000 := by decide
  have payload : ((0x8000000000000 : UInt64) ||| ((w.bits &&& 0x007fffff).toUInt64 <<< 29)).toNat =
      2 ^ 51 ||| fraction * 2 ^ 29 := by
    rw [UInt64.toNat_or, has.shifted_toNat]
    rfl
  have small : 2 ^ 51 ||| fraction * 2 ^ 29 < 2 ^ 52 := Nat.or_lt_two_pow (by decide) (by omega)
  have large : 2 ^ 51 ≤ 2 ^ 51 ||| fraction * 2 ^ 29 := Nat.left_le_or
  have bits := fields_toNat (b := 0x7ff0000000000000) (t := 2047) has.sign_toNat rfl (by decide) (payload ▸ small)
  unfold Double.decode
  dsimp only
  rw [quiet, ← UInt64.or_assoc, UInt64.or_assoc, bits, payload, decode_fields negative 2047 _ (by decide) small,
    if_pos rfl, if_neg (by omega)]

theorem toDouble_finite (finite : field ≠ 255) : ∃ m e, w.decode = .finite negative m e ∧
    w.toDouble = ⟨(Format.double.nearest negative m e).toUInt64⟩ := by
  have fields := has.field_lt
  have fractions := has.fraction_lt
  rw [has.decode_eq, if_neg finite]
  unfold toDouble
  dsimp only
  rw [if_neg (mt (has.field_eq_iff 0xff).mp finite)]
  by_cases empty : field = 0
  · rw [if_pos empty, if_pos ((has.field_eq_iff 0).mpr empty), has.testBit_eq, has.fraction_toNat]
    exact ⟨fraction, -149, rfl, rfl⟩
  · rw [if_neg empty, if_neg (mt (has.field_eq_iff 0).mp empty)]
    refine ⟨2 ^ 23 + fraction, field - 150, rfl, ?_⟩
    have least : Format.double.leastExponent = -1074 := by decide
    have infinity : Format.double.infinity = 2047 * 2 ^ 52 := by decide
    have width : Format.double.fraction = 52 := rfl
    have fieldWidth : Format.double.exponent = 11 := rfl
    have canonical : Format.double.Canonical ((2 ^ 23 + fraction) * 2 ^ 29) ((field : Int) - 150 - (29 : Nat)) := by
      refine ⟨?_, ?_, .inr ?_, ?_⟩ <;> simp only [least, infinity, width] <;> omega
    have shifted : ((((w.bits >>> 23) &&& 0xff).toUInt64 + 896) <<< 52).toNat = 2 ^ 52 * (field + 896) := by
      have sum : (((w.bits >>> 23) &&& 0xff).toUInt64 + 896).toNat = field + 896 := by
        rw [UInt64.toNat_add, UInt32.toNat_toUInt64, has.field_toNat]
        exact Nat.mod_eq_of_lt (show field + 896 < 2 ^ 64 by omega)
      rw [UInt64.toNat_shiftLeft, sum, Nat.shiftLeft_eq, Nat.mul_comm]
      exact Nat.mod_eq_of_lt (show 2 ^ 52 * (field + 896) < 2 ^ 64 by omega)
    have bits := fields_toNat has.sign_toNat shifted (by omega) (by rw [has.shifted_toNat]; omega)
    have sign := Bool.toNat_le negative
    refine congrArg Double.mk ?_
    rw [Format.nearest_eq_pattern negative canonical (SameMagnitude.scaled _ 29 _).symm, ← UInt64.toNat_inj, bits,
      has.shifted_toNat, Format.pattern, Format.signed_eq, least, width, fieldWidth]
    have place : ((field : Int) - 150 - (29 : Nat) - -1074).toNat = field + 895 := by omega
    rw [place, UInt64.toNat_ofNat_of_lt' (by rw [UInt64.size]; omega)]
    omega

end HasFields

theorem canonical_of_decode {w : Single} {negative : Bool} {m : Nat} {e : Int} (decoded : w.decode = .finite negative m e) :
    Format.single.Canonical m e ∧ w = ⟨(Format.single.pattern negative m e).toUInt32⟩ := by
  obtain ⟨canonical, bits⟩ := Format.canonical_of_decode (f := Format.single) w.bits.toNat_lt decoded
  exact ⟨canonical, congrArg Single.mk (bits ▸ UInt32.ofNat_toNat.symm)⟩

theorem decode_toDouble (w : Single) :
    (w.decode = .nan ∧ w.toDouble.decode = .nan) ∨
      (∃ negative, w.decode = .infinite negative ∧ w.toDouble.decode = .infinite negative) ∨
      ∃ negative m e n k, w.decode = .finite negative m e ∧ w.toDouble.decode = .finite negative n k ∧
        SameMagnitude n k m e := by
  obtain ⟨negative, field, fraction, has⟩ := w.exists_fields
  by_cases full : field = 255
  · rw [has.decode_eq, if_pos full]
    by_cases none : fraction = 0
    · rw [if_pos none]
      exact .inr (.inl ⟨negative, rfl, has.toDouble_infinite full none⟩)
    · rw [if_neg none]
      exact .inl ⟨rfl, has.toDouble_nan full none⟩
  · obtain ⟨m, e, decoded, widened⟩ := has.toDouble_finite full
    obtain ⟨bits, least, most⟩ := (canonical_of_decode decoded).1.bounds
    have place : Format.double.leastExponent = -1074 := by decide
    obtain ⟨n, k, canonical, pattern, same⟩ := Format.nearest_exact (f := Format.double) negative m e
      (bits.trans (by decide)) (by omega) (show _ < 2048 by omega)
    refine .inr (.inr ⟨negative, m, e, n, k, decoded, ?_, same⟩)
    rw [widened, pattern, Double.decode_pattern negative canonical]

theorem toSingle_toDouble {w : Single} (number : w.decode ≠ .nan) : w.toDouble.toSingle = w := by
  unfold Double.toSingle
  rcases w.decode_toDouble with ⟨nan, _⟩ | ⟨negative, decoded, widened⟩ | ⟨negative, m, e, n, k, decoded, widened, same⟩
  · exact absurd nan number
  · rw [widened]
    rcases Format.decode_cases (f := Format.single) w.bits.toNat_lt with nan | ⟨sign, infinite, bits⟩ | ⟨_, _, _, finite, _⟩
    · cases decoded.symm.trans nan
    · cases decoded.symm.trans infinite
      refine congrArg Single.mk ?_
      rw [← bits]
      exact UInt32.ofNat_toNat
    · cases decoded.symm.trans finite
  · obtain ⟨canonical, word⟩ := canonical_of_decode decoded
    rw [widened, word]
    dsimp only
    rw [Format.nearest_eq_pattern negative canonical same]

end Single

-- A NaN loses part of its payload and is quiet, but it is a NaN.
theorem Double.toSingle_nan {d : Double} (nan : d.decode = .nan) : d.toSingle.decode = .nan := by
  have whole (s r : Nat) : 2 ^ 22 * (2 ^ 9 * s + 511) + r = 2 ^ 31 * s + (2 ^ 23 * 255 + (2 ^ 22 + r)) := by omega
  unfold Double.toSingle
  rw [nan]
  dsimp only
  generalize (d.bits >>> 32).toUInt32 = high
  generalize payload : (d.bits >>> 29).toUInt32 &&& 0x003fffff = low
  have small : low.toNat ≤ 2 ^ 22 - 1 := by
    rw [← payload, UInt32.toNat_and]
    exact Nat.and_le_right
  have sign : (high &&& 0x80000000).toNat = 2 ^ 31 * (high.toNat.testBit 31).toNat := by
    rw [UInt32.toNat_and, Nat.mul_comm]
    exact Nat.and_two_pow high.toNat 31
  have top : 2 ^ 22 * (2 ^ 9 * (high.toNat.testBit 31).toNat + 511) =
      2 ^ 31 * (high.toNat.testBit 31).toNat ||| 511 * 2 ^ 22 := by
    rw [← Nat.two_pow_add_eq_or_of_lt (by decide : 511 * 2 ^ 22 < 2 ^ 31)]
    omega
  have has : Single.HasFields ⟨(high &&& 0x80000000) ||| (0x7fc00000 : UInt32) ||| low⟩
      (high.toNat.testBit 31) 255 (2 ^ 22 + low.toNat) := by
    refine ⟨by decide, by omega, ?_⟩
    rw [UInt32.toNat_or, UInt32.toNat_or, sign, show (0x7fc00000 : UInt32).toNat = 511 * 2 ^ 22 from rfl, ← top,
      ← Nat.two_pow_add_eq_or_of_lt (by omega : low.toNat < 2 ^ 22)]
    exact whole _ _
  rw [has.decode_eq, if_pos rfl, if_neg (by omega)]

-- Only a finite number has more than one form before it is packed.
theorem Decoded.eq_of_unpacked {d other : Decoded} (special : ∀ negative m e, other ≠ .finite negative m e)
    (same : d.unpacked = other.unpacked) : d = other := by
  have whole (negative : Bool) (m : Nat) (e : Int) : (∃ sign, (finite negative m e).unpacked = .zero sign) ∨
      ∃ sign n k some, (finite negative m e).unpacked = .finite sign n k some := by
    by_cases none : m = 0
    · subst none
      exact .inl ⟨_, rfl⟩
    · exact .inr ⟨_, _, _, _, unpacked_finite negative m e none⟩
  cases other with
  | finite negative m e => exact absurd rfl (special negative m e)
  | nan =>
    cases d with
    | nan => rfl
    | infinite => cases same
    | finite negative m e => rcases whole negative m e with ⟨_, form⟩ | ⟨_, _, _, _, form⟩ <;> cases form.symm.trans same
  | infinite sign =>
    cases d with
    | nan => cases same
    | infinite negative =>
      unfold unpacked at same
      rw [UnpackedFloat.infinity.injEq] at same
      rw [signOf_inj _ _ same]
    | finite negative m e => rcases whole negative m e with ⟨_, form⟩ | ⟨_, _, _, _, form⟩ <;> cases form.symm.trans same

-- A pattern other than a NaN comes back from a number as it was.
theorem Double.ofFloat_toFloat {d : Double} (number : d.decode ≠ .nan) : Double.ofFloat d.toFloat = d := by
  have unpacked : d.toFloat.toModel.unpack = d.decode.unpacked := unpack_ofBits d.bits
  cases decoded : d.decode with
  | nan => exact absurd decoded number
  | infinite negative =>
    rw [decoded, unpack_toBits] at unpacked
    have back := Decoded.eq_of_unpacked (by simp) unpacked
    exact Double.eq_of_decode (back.trans decoded.symm) (by simp [back])
  | finite negative m e =>
    rw [decoded] at unpacked
    have canonical := double_decode_canonical _ _ _ _ decoded
    have back := decode_of_unpack d.toFloat negative m e canonical unpacked
    exact Double.eq_of_decode (back.trans decoded.symm) (by simp [back])

theorem Double.ofFloat_nan {d : Double} (nan : d.decode = .nan) : (Double.ofFloat d.toFloat).decode = .nan := by
  have unpacked : d.toFloat.toModel.unpack = d.decode.unpacked := unpack_ofBits d.bits
  rw [nan, unpack_toBits] at unpacked
  exact Decoded.eq_of_unpacked (by simp) unpacked

theorem eq_of_toBits {x y : Float} (same : x.toBits = y.toBits) : x = y := by
  obtain ⟨f, left⟩ := x
  obtain ⟨g, right⟩ := y
  cases same
  rfl

-- There is one NaN among numbers, whatever the payload of its pattern was.
theorem bits_of_nan {f : Float.Model} (nan : f.unpack = .notANumber) : f.toBits.toBitVec = UnpackedFloat.packedNaN .binary64 := by
  by_cases full : @UnpackedFloat.unpackExponent .binary64 f.toBits.toBitVec = -1#_
  · refine f.valid.eq_packedNaN full fun none => ?_
    cases ((if_pos none).symm.trans (if_pos full).symm).trans nan
  · have rest := (if_neg full).symm.trans nan
    by_cases small : @UnpackedFloat.unpackExponent .binary64 f.toBits.toBitVec = 0#_
    · have last := (if_pos small).symm.trans rest
      by_cases none : @UnpackedFloat.unpackMantissa .binary64 f.toBits.toBitVec = 0#_
      · cases (dif_pos none).symm.trans last
      · cases (dif_neg none).symm.trans last
    · cases (if_neg small).symm.trans rest

theorem Double.toFloat_ofFloat (x : Float) : (Double.ofFloat x).toFloat = x := by
  apply eq_of_toBits
  by_cases nan : (Double.ofFloat x).decode = .nan
  · have before : x.toModel.unpack = .notANumber := (unpack_toBits x).trans (congrArg Decoded.unpacked nan)
    have after : (Double.ofFloat x).toFloat.toModel.unpack = .notANumber :=
      (unpack_ofBits _).trans (congrArg Decoded.unpacked nan)
    exact UInt64.toBitVec_inj.mp ((bits_of_nan after).trans (bits_of_nan before).symm)
  · exact congrArg Double.bits (Double.ofFloat_toFloat nan)

namespace Single

theorem toDouble_number {w : Single} (number : w.decode ≠ .nan) : w.toDouble.decode ≠ .nan := by
  rcases w.decode_toDouble with ⟨nan, _⟩ | ⟨negative, _, widened⟩ | ⟨negative, m, e, n, k, _, widened, _⟩
  · exact absurd nan number
  · simp [widened]
  · simp [widened]

theorem toDouble_nan {w : Single} (nan : w.decode = .nan) : w.toDouble.decode = .nan := by
  rcases w.decode_toDouble with ⟨_, widened⟩ | ⟨negative, decoded, _⟩ | ⟨negative, m, e, n, k, decoded, _⟩
  · exact widened
  · cases nan.symm.trans decoded
  · cases nan.symm.trans decoded

theorem ofFloat_toFloat {w : Single} (number : w.decode ≠ .nan) : ofFloat w.toFloat = w := by
  rw [ofFloat, toFloat, Double.ofFloat_toFloat (toDouble_number number), toSingle_toDouble number]

theorem ofFloat_nan {w : Single} (nan : w.decode = .nan) : (ofFloat w.toFloat).decode = .nan :=
  Double.toSingle_nan (Double.ofFloat_nan (toDouble_nan nan))

end Single

end GridKernel
