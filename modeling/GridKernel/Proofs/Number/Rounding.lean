import GridKernel.Proofs.Number.Order

namespace GridKernel

open Float.Model (UnpackedFloat)
open Float.Model.Format (binary64)
open Float.Model.UnpackedFloat (Sign ExtendedMantissa round roundWithAccuracy shiftToTargetExponent)

theorem shiftRight_mantissa (em : ExtendedMantissa) (n : Nat) : (em >>> n).mantissa = em.mantissa / 2 ^ n := by
  induction n with
  | zero => rw [pow_zero, Nat.div_one]; rfl
  | succ n ih =>
    change (em >>> n).mantissa / 2 = _
    rw [ih, Nat.div_div_eq_div_mul, pow_succ]

theorem roundedMantissa_bounds (em : ExtendedMantissa) :
    em.mantissa ≤ em.roundedMantissa ∧ em.roundedMantissa ≤ em.mantissa + 1 := by
  obtain ⟨m, roundBit, stickyBit⟩ := em
  cases roundBit <;> cases stickyBit <;>
    simp only [ExtendedMantissa.roundedMantissa, ExtendedMantissa.accuracy,
      Float.Model.UnpackedFloat.Accuracy.roundToNearestEven] <;> omega

theorem shiftToTargetExponent_exact (m : Nat) (e : Int) :
    shiftToTargetExponent binary64 m e .exact =
      ((⟨m, false, false⟩ : ExtendedMantissa) >>> (max ((m.log2 : Int) + 1 + e - 53) (-1074) - e).toNat,
        e + (max ((m.log2 : Int) + 1 + e - 53) (-1074) - e).toNat) := rfl

-- The outcome of rounding a number that is not zero; its exponent may still be too large.
def Rounds (sign : Sign) (f : UnpackedFloat) : Prop :=
  ∃ m e some, f = .finite sign m e some ∧ m < 2 ^ 53 ∧ -1074 ≤ e ∧ (e = -1074 ∨ 2 ^ 52 ≤ m)

-- The second shift of a rounding takes back a carry out of the mantissa.
theorem carry_rounds (sign : Sign) (q : Nat) (t : Int) (positive : 0 < q) (most : q ≤ 2 ^ 53) (least : -1074 ≤ t)
    (leading : t = -1074 ∨ 2 ^ 52 ≤ q) :
    Rounds sign (let (final, f) := shiftToTargetExponent binary64 q t .exact
      if h : final.mantissa = 0 then .zero sign else .finite sign final.mantissa f (Nat.pos_of_ne_zero h)) := by
  rw [shiftToTargetExponent_exact]
  dsimp only
  generalize shift : (max ((q.log2 : Int) + 1 + t - 53) (-1074) - t).toNat = k
  generalize shifted : (⟨q, false, false⟩ : ExtendedMantissa) >>> k = final
  have mantissa : final.mantissa = q / 2 ^ k := by
    rw [← shifted, shiftRight_mantissa]
  by_cases carry : q = 2 ^ 53
  · have length : q.log2 = 53 := by
      rw [carry]
      decide
    have one : k = 1 := by omega
    have half : final.mantissa = 2 ^ 52 := by
      rw [mantissa, carry, one]
      decide
    rw [dif_neg (by omega)]
    exact ⟨_, _, _, rfl, by omega, by omega, .inr half.ge⟩
  · have length : q.log2 < 53 := (Nat.log2_lt positive.ne').mpr (by omega)
    have zero : k = 0 := by omega
    have same : final.mantissa = q := by rw [mantissa, zero, pow_zero, Nat.div_one]
    rw [dif_neg (by omega)]
    refine ⟨_, _, _, rfl, by omega, by omega, ?_⟩
    rcases leading with rfl | large
    · exact .inl (by omega)
    · exact .inr (same ▸ large)

theorem roundWithAccuracy_rounds (sign : Sign) (m : Nat) (e : Int) (positive : 0 < m) (least : -1074 ≤ e)
    (target : e = -1074 ∨ 52 ≤ m.log2) : Rounds sign (roundWithAccuracy binary64 sign m e .exact) := by
  unfold roundWithAccuracy
  rw [shiftToTargetExponent_exact]
  dsimp only
  have low : 2 ^ m.log2 ≤ m := Nat.log2_self_le positive.ne'
  have high : m < 2 ^ (m.log2 + 1) := Nat.lt_log2_self
  by_cases long : 52 < m.log2
  · obtain ⟨s, length⟩ : ∃ s, m.log2 = 52 + s := ⟨m.log2 - 52, by omega⟩
    have shift : (max ((m.log2 : Int) + 1 + e - 53) (-1074) - e).toNat = s := by omega
    rw [shift]
    have bounds := roundedMantissa_bounds ((⟨m, false, false⟩ : ExtendedMantissa) >>> s)
    rw [shiftRight_mantissa] at bounds
    have above : 2 ^ 52 ≤ m / 2 ^ s := by
      rw [Nat.le_div_iff_mul_le (Nat.two_pow_pos s), ← pow_add, ← length]
      exact low
    have below : m / 2 ^ s < 2 ^ 53 := by
      rw [Nat.div_lt_iff_lt_mul (Nat.two_pow_pos s), ← pow_add]
      exact lt_of_lt_of_le high (Nat.pow_le_pow_right (by omega) (by omega))
    dsimp only at bounds
    exact carry_rounds sign _ _ (by omega) (by omega) (by omega) (.inr (by omega))
  · have shift : (max ((m.log2 : Int) + 1 + e - 53) (-1074) - e).toNat = 0 := by omega
    rw [shift]
    have short : m < 2 ^ 53 := lt_of_lt_of_le high (Nat.pow_le_pow_right (by omega) (by omega))
    have leading : e = -1074 ∨ 2 ^ 52 ≤ m := by
      rcases target with first | second
      · exact .inl first
      · exact .inr (le_trans (Nat.pow_le_pow_right (by omega) second) low)
    exact carry_rounds sign m (e + (0 : Nat)) positive short.le (by omega) (by simpa using leading)

theorem log2_shiftLeft (m s : Nat) (positive : 0 < m) : (m <<< s).log2 = m.log2 + s := by
  have scale : 0 < 2 ^ s := Nat.two_pow_pos s
  rw [Nat.shiftLeft_eq, Nat.log2_eq_iff (Nat.mul_pos positive scale).ne']
  constructor
  · rw [pow_add]
    exact Nat.mul_le_mul_right _ (Nat.log2_self_le positive.ne')
  · rw [Nat.add_right_comm, pow_add]
    exact Nat.mul_lt_mul_of_pos_right Nat.lt_log2_self scale

theorem round_rounds (sign : Sign) (m : Nat) (e : Int) (positive : 0 < m) (least : -1074 ≤ e) :
    Rounds sign (round binary64 sign m e) := by
  change Rounds sign (roundWithAccuracy binary64 sign (m <<< (e - max ((m.log2 : Int) + 1 + e - 53) (-1074)).toNat)
    (e - (e - max ((m.log2 : Int) + 1 + e - 53) (-1074)).toNat) .exact)
  generalize shift : (e - max ((m.log2 : Int) + 1 + e - 53) (-1074)).toNat = s
  have length : (m <<< s).log2 = m.log2 + s := log2_shiftLeft m s positive
  apply roundWithAccuracy_rounds
  · rw [Nat.shiftLeft_eq]
    exact Nat.mul_pos positive (Nat.two_pow_pos s)
  · omega
  · omega

theorem unpack_zero : (0.0 : Float).toModel.unpack = (Decoded.finite false 0 (-1074)).unpacked := by
  rw [unpack_toBits]
  have decoded : (Double.ofFloat 0.0).decode = .finite false 0 (-1074) := by decide +kernel
  rw [decoded]

theorem unpack_one : Whole.one.toModel.unpack = (Decoded.finite false (2 ^ 52) (-52)).unpacked := by
  rw [unpack_toBits]
  have decoded : (Double.ofFloat Whole.one).decode = .finite false (2 ^ 52) (-52) := by decide +kernel
  rw [decoded]

-- A rounded number that is packed and read again keeps its sign, or has grown to infinity.
theorem unpack_pack_rounds (sign : Sign) (f : UnpackedFloat) (rounded : Rounds sign f) :
    UnpackedFloat.unpack binary64 (UnpackedFloat.pack binary64 f) = .infinity sign ∨
      ∃ m e some, UnpackedFloat.unpack binary64 (UnpackedFloat.pack binary64 f) = .finite sign m e some := by
  obtain ⟨m, e, some, rfl, bits, least, leading⟩ := rounded
  by_cases most : e ≤ 971
  · exact .inr ⟨m, e, some, unpack_pack_finite sign m e some ⟨bits, least, most, leading⟩⟩
  · left
    have packed : UnpackedFloat.pack binary64 (.finite sign m e some) = UnpackedFloat.pack binary64 (.infinity sign) := by
      change (if 2 ^ 11 ≤ (e + 1023 + 52).toNat + 1 then UnpackedFloat.pack binary64 (.infinity sign) else _) = _
      rw [if_pos (by omega)]
    rw [packed]
    cases sign <;> rfl

theorem unpack_sub (x y : Float) : (x - y).toModel.unpack =
    UnpackedFloat.unpack binary64 (UnpackedFloat.pack binary64
      (UnpackedFloat.sub binary64 x.toModel.unpack y.toModel.unpack)) := rfl

theorem not_zero_le_negative (x : Float) (below : x.toModel.unpack = .infinity .negative ∨
    ∃ m e some, x.toModel.unpack = .finite .negative m e some) : ¬(0.0 : Float) ≤ x := by
  rw [le_iff_compare, unpack_zero]
  rcases below with infinite | ⟨m, e, some, finite⟩
  · rw [infinite]
    rintro ⟨o, compared, least⟩
    cases compared
    cases least
  · rw [finite]
    rintro ⟨o, compared, least⟩
    cases compared
    cases least

theorem normalize_negative (total : Nat) (e : Int) (zero : Sign) (positive : 0 < total) (least : -1074 ≤ e) :
    Rounds .negative (UnpackedFloat.normalize binary64 (-total) e zero) := by
  have below : compare (-total : Int) 0 = .lt := compare_lt_iff_lt.mpr (by omega)
  have magnitude : (- -(total : Int)).toNat = total := by omega
  unfold UnpackedFloat.normalize
  rw [below, magnitude]
  exact round_rounds .negative total e positive least

theorem not_zero_le_sub_one (x : Float) (m : Nat) (e : Int) (canonical : Decoded.Canonical m e)
    (unpacked : x.toModel.unpack = (Decoded.finite true m e).unpacked) : ¬(0.0 : Float) ≤ x - Whole.one := by
  apply not_zero_le_negative
  rw [unpack_sub, unpacked, unpack_one, Decoded.unpacked_finite false _ _ (by decide)]
  apply unpack_pack_rounds
  by_cases empty : m = 0
  · subst empty
    exact ⟨2 ^ 52, -52, by decide, rfl, by decide, by decide, .inr le_rfl⟩
  · rw [Decoded.unpacked_finite true _ _ empty]
    have sum : 0 < m <<< (e - min e (-52)).toNat + 2 ^ 52 <<< (-52 - min e (-52)).toNat := by
      rw [Nat.shiftLeft_eq]
      exact Nat.add_pos_left (Nat.mul_pos (Nat.pos_of_ne_zero empty) (Nat.two_pow_pos _)) _
    have least := canonical.least
    have rounded := normalize_negative _ (min e (-52)) .positive sum (by omega)
    rw [Nat.cast_add, neg_add] at rounded
    exact rounded

end GridKernel
