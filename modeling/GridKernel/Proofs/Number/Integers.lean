import GridKernel.Proofs.Number.Widening

namespace GridKernel

-- A whole number with at most as many significant bits as a mantissa has.
def Format.Holds (f : Format) (n : Nat) : Prop := ∃ m s, m < 2 ^ (f.fraction + 1) ∧ n = m * 2 ^ s

namespace Format.Holds

theorem of_le {f : Format} {n : Nat} (small : n ≤ 2 ^ (f.fraction + 1)) : f.Holds n := by
  rcases Nat.lt_or_eq_of_le small with below | top
  · exact ⟨n, 0, below, by simp⟩
  · exact ⟨1, f.fraction + 1, Nat.one_lt_two_pow (by omega), by rw [top, Nat.one_mul]⟩

theorem two_pow (f : Format) (k : Nat) : f.Holds (2 ^ k) :=
  ⟨1, k, Nat.one_lt_two_pow (by omega), by rw [Nat.one_mul]⟩

-- An odd number has all its bits in the mantissa.
theorem lt_of_odd {f : Format} {n : Nat} (holds : f.Holds n) (odd : n % 2 = 1) : n < 2 ^ (f.fraction + 1) := by
  obtain ⟨m, s, bits, rfl⟩ := holds
  cases s with
  | zero => simpa using bits
  | succ s =>
    rw [pow_succ, ← Nat.mul_assoc] at odd
    omega

end Format.Holds

theorem SameMagnitude.holds {f : Format} {m n : Nat} {e : Int} (bits : m < 2 ^ (f.fraction + 1))
    (same : SameMagnitude m e n 0) : f.Holds n := by
  unfold SameMagnitude at same
  by_cases whole : 0 ≤ e
  · rw [show (0 - e).toNat = 0 by omega, pow_zero, Nat.mul_one] at same
    exact ⟨m, _, bits, same.symm⟩
  · rw [show (e - 0).toNat = 0 by omega, pow_zero, Nat.mul_one] at same
    exact ⟨n, 0, lt_of_le_of_lt (same ▸ Nat.le_mul_of_pos_right n (Nat.two_pow_pos _)) bits, by simp⟩

theorem SameMagnitude.units_eq {m n : Nat} {e k : Int} (same : SameMagnitude m e n k) (left : -1074 ≤ e)
    (right : -1074 ≤ k) : Decoded.units m e = Decoded.units n k := by
  have scaled := (iff_at (-1074) left right).mp same
  rwa [sub_neg_eq_add, sub_neg_eq_add] at scaled

theorem SameMagnitude.roundHalfUp_eq {m n : Nat} {e : Int} (same : SameMagnitude m e n 0) : roundHalfUp m e = n := by
  unfold SameMagnitude at same
  by_cases whole : 0 ≤ e
  · rw [show (0 - e).toNat = 0 by omega, pow_zero, Nat.mul_one, Int.sub_zero] at same
    rw [roundHalfUp, if_pos whole, Nat.shiftLeft_eq, same]
  · obtain ⟨s, rfl⟩ : ∃ s : Nat, e = -s := ⟨(-e).toNat, by omega⟩
    rw [show (-(s : Int) - 0).toNat = 0 by omega, show (0 - -(s : Int)).toNat = s by omega, pow_zero, Nat.mul_one] at same
    rw [same, Single.roundHalfUp_exact]

-- Integers below `2 ^ 64` are far from the ends of both formats.
theorem Format.Holds.exists_canonical {f : Format} {n : Nat} (holds : f.Holds n) (small : n < 2 ^ 64)
    (least : f.leastExponent ≤ 0) (room : (64 - f.leastExponent).toNat + 2 ≤ 2 ^ f.exponent) :
    ∃ m e, f.Canonical m e ∧ SameMagnitude m e n 0 := by
  obtain ⟨m, s, bits, rfl⟩ := holds
  have whole : SameMagnitude m s (m * 2 ^ s) 0 := by simp [SameMagnitude]
  by_cases none : m = 0
  · subst none
    obtain ⟨n, k, canonical, same⟩ := Format.exists_canonical (f := f) 0 0 (Nat.two_pow_pos _) least (by omega)
    exact ⟨n, k, canonical, by simpa using same⟩
  · have short : s < 64 := (Nat.pow_lt_pow_iff_right (by decide : 1 < 2)).mp
      (lt_of_le_of_lt (Nat.le_mul_of_pos_left _ (Nat.pos_of_ne_zero none)) small)
    obtain ⟨n, k, canonical, same⟩ := Format.exists_canonical m s bits (by omega) (by omega)
    exact ⟨n, k, canonical, same.trans whole⟩

theorem Double.decode_ofInt {i : Int} (holds : Format.double.Holds i.natAbs) (small : i.natAbs < 2 ^ 64) :
    ∃ m e, (Double.ofInt i).decode = .finite (i < 0) m e ∧ SameMagnitude m e i.natAbs 0 := by
  obtain ⟨m, e, canonical, same⟩ := holds.exists_canonical small (by decide) (by decide)
  refine ⟨m, e, ?_, same⟩
  rw [Double.ofInt, Format.nearest_eq_pattern _ canonical same.symm, Double.decode_pattern _ canonical]

namespace Single

section Held

variable {i : Int} (holds : Format.single.Holds i.natAbs) (small : i.natAbs < 2 ^ 64)

include holds small

theorem decode_ofInt : ∃ m e, (ofInt i).decode = .finite (i < 0) m e ∧ SameMagnitude m e i.natAbs 0 := by
  obtain ⟨m, e, canonical, same⟩ := holds.exists_canonical small (by decide) (by decide)
  refine ⟨m, e, ?_, same⟩
  rw [ofInt, Format.nearest_eq_pattern _ canonical same.symm, decode, UInt32.toNat_ofNat_of_lt' (canonical.pattern_lt _),
    Format.decode_pattern _ canonical]

theorem toDouble_ofInt : (ofInt i).toDouble = Double.ofInt i := by
  obtain ⟨m, e, decoded, same⟩ := decode_ofInt holds small
  rcases (ofInt i).decode_toDouble with ⟨nan, _⟩ | ⟨_, infinite, _⟩ | ⟨negative, n, k, p, l, finite, widened, kept⟩
  · cases decoded.symm.trans nan
  · cases decoded.symm.trans infinite
  · cases decoded.symm.trans finite
    obtain ⟨canonical, pattern⟩ := Double.canonical_of_decode widened
    rw [pattern, Double.ofInt, Format.nearest_eq_pattern _ canonical (kept.trans same).symm]

theorem ofInt_number : (ofInt i).decode ≠ .nan := by
  obtain ⟨m, e, decoded, _⟩ := decode_ofInt holds small
  simp [decoded]

theorem ofFloat_ofInt : ofFloat (Double.ofInt i).toFloat = ofInt i := by
  rw [← toDouble_ofInt holds small]
  exact ofFloat_toFloat (ofInt_number holds small)

theorem roundClamped_held {low high : Int} (least : low ≤ i) (most : i ≤ high) : (ofInt i).roundClamped low high = i := by
  obtain ⟨m, e, decoded, same⟩ := decode_ofInt holds small
  exact roundClamped_of_decode decoded same.roundHalfUp_eq least most

end Held

-- Every integer up to `2 ^ 24` is a word, and the largest is one more than a mantissa can hold.
theorem roundClamped_ofInt (i low high : Int) (exact : i.natAbs ≤ 2 ^ 24) (least : low ≤ i) (most : i ≤ high) :
    (ofInt i).roundClamped low high = i :=
  roundClamped_held (Format.Holds.of_le exact) (by omega) least most

-- Below the point at most one bit of the mantissa is gained.
theorem holds_roundHalfUp {m : Nat} (e : Int) (bits : m < 2 ^ 24) : Format.single.Holds (roundHalfUp m e) := by
  unfold roundHalfUp
  split
  · exact ⟨m, e.toNat, bits, Nat.shiftLeft_eq m _⟩
  · obtain ⟨s, shift⟩ : ∃ s, (-e).toNat = s + 1 := ⟨(-e).toNat - 1, by omega⟩
    have unit := Nat.two_pow_pos s
    refine Format.Holds.of_le ?_
    rw [shift, Nat.add_sub_cancel, Nat.one_shiftLeft, Nat.shiftRight_eq_div_pow]
    refine Nat.div_le_of_le_mul ?_
    change m + 2 ^ s ≤ 2 ^ (s + 1) * 2 ^ 24
    rw [pow_succ]
    omega

-- What a word is rounded to is a word again, unless it is the upper end of the range.
theorem roundClamped_cases (w : Single) (low high : Int) (lowest : Format.single.Holds low.natAbs) (below : low ≤ 0)
    (above : 0 ≤ high) :
    (Format.single.Holds (w.roundClamped low high).natAbs ∨ w.roundClamped low high = high) ∧
      low ≤ w.roundClamped low high ∧ w.roundClamped low high ≤ high := by
  unfold roundClamped
  cases decoded : w.decode with
  | nan => exact ⟨.inl (Format.Holds.of_le (Nat.zero_le _)), below, above⟩
  | infinite negative =>
    cases negative with
    | false => exact ⟨.inr rfl, below.trans above, le_rfl⟩
    | true => exact ⟨.inl lowest, le_rfl, below.trans above⟩
  | finite negative m e =>
    dsimp only
    have held := holds_roundHalfUp e (canonical_of_decode decoded).1.bounds.1
    generalize roundHalfUp m e = magnitude at held
    generalize signed : (if negative = true then -(magnitude : Int) else magnitude) = x
    have same : x.natAbs = magnitude := by
      rw [← signed]
      split <;> omega
    refine ⟨?_, by omega, by omega⟩
    obtain atLow | atHigh | within : max low (min high x) = low ∨ max low (min high x) = high ∨ max low (min high x) = x := by
      omega
    · rw [atLow]
      exact .inl lowest
    · exact .inr atHigh
    · rw [within, same]
      exact .inl held

end Single

theorem Double.beq_self {d : Double} {negative : Bool} {m : Nat} {e : Int} (decoded : d.decode = .finite negative m e) :
    (d.toFloat == d.toFloat) = true := by
  have canonical := double_decode_canonical _ _ _ _ decoded
  have unpacked : d.toFloat.toModel.unpack = d.decode.unpacked := unpack_ofBits d.bits
  rw [beq_iff_compare, unpacked, decoded, Decoded.compare_finite _ _ _ _ _ _ canonical canonical, Option.some_inj,
    compare_eq_iff_eq]

namespace Single

-- No word at all is equal to a number whose significant bits do not fit.
theorem holds_of_beq {w : Single} {n : Nat} (small : n < 2 ^ 53) (same : (w.toFloat == (Double.ofInt n).toFloat) = true) :
    Format.single.Holds n := by
  obtain ⟨m, e, decoded, whole⟩ := Double.decode_ofInt (i := n) (Format.Holds.of_le (le_of_lt small)) (by omega)
  rw [Int.natAbs_natCast] at whole
  rcases Double.eq_of_beq w.toDouble (Double.ofInt n) same with equal | ⟨_, zero⟩
  · rcases w.decode_toDouble with ⟨_, nan⟩ | ⟨_, _, infinite⟩ | ⟨negative, p, l, k, t, narrow, widened, kept⟩
    · cases decoded.symm.trans (equal ▸ nan)
    · cases decoded.symm.trans (equal ▸ infinite)
    · cases decoded.symm.trans (equal ▸ widened)
      exact SameMagnitude.holds (canonical_of_decode narrow).1.bounds.1 (kept.symm.trans whole)
  · rw [decoded] at zero
    rw [whole.eq_zero_iff.mp zero]
    exact Format.Holds.of_le (Nat.zero_le _)

theorem beq_ofInt_iff {n : Nat} (small : n < 2 ^ 53) :
    ((ofInt n).toFloat == (Double.ofInt n).toFloat) = true ↔ Format.single.Holds n := by
  refine ⟨holds_of_beq small, fun holds => ?_⟩
  obtain ⟨m, e, decoded, _⟩ := Double.decode_ofInt (i := n) (Format.Holds.of_le (le_of_lt small)) (by omega)
  rw [toFloat, toDouble_ofInt (i := n) holds (by omega)]
  exact Double.beq_self decoded

end Single

section Coordinates

variable {n : Nat} (small : n < 2 ^ 53)

include small

theorem floorInt?_ofCoordinate : Whole.floorInt? (ofCoordinate n) = some (n : Int) := by
  obtain ⟨m, e, decoded, whole⟩ := Double.decode_ofInt (i := n) (Format.Holds.of_le (le_of_lt small)) (by omega)
  have least := (double_decode_canonical _ _ _ _ decoded).least
  have read : (Double.ofFloat (ofCoordinate n)).decode = .finite (decide ((n : Int) < 0)) m e := by
    rw [ofCoordinate, Double.ofFloat_toFloat (by simp [decoded]), decoded]
  have units : Decoded.units m e = n * Decoded.unit := by
    rw [whole.units_eq least (by decide), Int.natAbs_natCast, Decoded.units_whole n 0 le_rfl, Int.toNat_zero, pow_zero,
      Nat.mul_one]
  have positive : (Decoded.unit : Int) ≠ 0 := Int.ofNat_ne_zero.mpr Decoded.unit_pos.ne'
  rw [floorInt?_finite _ _ m e least read, decide_eq_false (by omega), Decoded.value_false, units, Nat.cast_mul,
    Int.mul_ediv_cancel _ positive]

-- A thread finds the element at its own coordinate.
theorem coordinate?_ofCoordinate {k : Nat} (inside : k < n) : View.coordinate? n (ofCoordinate k) = some k := by
  have exact : Double.nearestNat n = n := if_pos small
  unfold View.coordinate?
  rw [floorInt?_ofCoordinate (by omega)]
  dsimp only
  rw [exact, if_pos (by omega), Int.toNat_natCast]

end Coordinates

end GridKernel
