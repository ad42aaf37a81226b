import GridKernel.Proofs.Number.Floor

namespace GridKernel

open Float.Model (UnpackedFloat)

namespace Decoded

-- The 64-bit pattern of a decoded number. A NaN has many, so it is left out.
def pattern : Decoded → Nat
  | .nan => 0
  | .infinite negative => negative.toNat * 2 ^ 63 + 2047 * 2 ^ 52
  | .finite negative m e =>
    negative.toNat * 2 ^ 63 + if m < 2 ^ 52 then m else (e + 1075).toNat * 2 ^ 52 + (m - 2 ^ 52)

theorem pattern_decode (b : Nat) (word : b < 2 ^ 64) (number : Format.double.decode b ≠ .nan) :
    (Format.double.decode b).pattern = b := by
  have sign : (b.testBit 63).toNat = b / 2 ^ 63 := by
    rw [Nat.testBit_eq_decide_div_mod_eq]
    by_cases odd : b / 2 ^ 63 % 2 = 1
    · rw [decide_eq_true odd]
      change 1 = _
      omega
    · rw [decide_eq_false odd]
      change 0 = _
      omega
  rw [double_decode] at number ⊢
  by_cases full : b / 2 ^ 52 % 2048 = 2047
  · by_cases none : b % 2 ^ 52 = 0
    · rw [if_pos full, if_pos none, pattern, sign]
      omega
    · rw [if_pos full, if_neg none] at number
      exact absurd rfl number
  · rw [if_neg full]
    by_cases empty : b / 2 ^ 52 % 2048 = 0
    · rw [if_pos empty, pattern, sign, if_pos (by omega)]
      omega
    · rw [if_neg empty, pattern, sign, if_neg (by omega)]
      omega

end Decoded

-- But for NaNs, what a pattern stands for says which pattern it is.
theorem Double.eq_of_decode {a b : Double} (same : a.decode = b.decode) (number : a.decode ≠ .nan) : a = b := by
  have other : b.decode ≠ .nan := same ▸ number
  have left : a.decode.pattern = a.bits.toNat := Decoded.pattern_decode _ a.bits.toNat_lt number
  have right : b.decode.pattern = b.bits.toNat := Decoded.pattern_decode _ b.bits.toNat_lt other
  have words : a.bits.toNat = b.bits.toNat := by rw [← left, ← right, same]
  cases a
  cases b
  congr
  exact UInt64.toNat_inj.mp words

theorem beq_iff_compare (x y : Float) :
    (x == y) = true ↔ x.toModel.unpack.compare y.toModel.unpack = some .eq := by
  change (x.toModel.unpack.compare y.toModel.unpack == some .eq) = true ↔ _
  rw [beq_iff_eq]

namespace Decoded

theorem eq_of_units (m n : Nat) (e f : Int) (first : Canonical m e) (second : Canonical n f)
    (same : units m e = units n f) : m = n ∧ e = f := by
  have order := compare_units m n e f first second
  rw [same, compare_eq_iff_eq.mpr rfl, Ordering.then_eq_eq] at order
  exact ⟨compare_eq_iff_eq.mp order.2, compare_eq_iff_eq.mp order.1⟩

theorem eq_of_value (a b : Bool) (m n : Nat) (e f : Int) (first : Canonical m e) (second : Canonical n f)
    (same : value a m e = value b n f) : (m = 0 ∧ n = 0) ∨ finite a m e = finite b n f := by
  by_cases none : m = 0
  · subst none
    rw [value_zero] at same
    refine .inl ⟨rfl, ?_⟩
    by_contra nonzero
    have positive := units_pos n f nonzero
    cases b
    · rw [value_false] at same
      omega
    · rw [value_true] at same
      omega
  · have positive := units_pos m e none
    have both : a = b ∧ units m e = units n f := by
      cases a <;> cases b <;> simp only [value_false, value_true] at same
      · exact ⟨rfl, by omega⟩
      · omega
      · omega
      · exact ⟨rfl, by omega⟩
    obtain ⟨rfl, magnitudes⟩ := both
    obtain ⟨rfl, rfl⟩ := eq_of_units m n e f first second magnitudes
    exact .inr rfl

end Decoded

def Decoded.IsZero : Decoded → Prop
  | .finite _ m _ => m = 0
  | _ => False

theorem Decoded.compare_eq_cases (d other : Decoded) (same : d.unpacked.compare other.unpacked = some .eq) :
    (∃ negative, d = .infinite negative ∧ other = .infinite negative) ∨
      ∃ a m e b n f, d = .finite a m e ∧ other = .finite b n f := by
  cases d with
  | nan => cases same
  | infinite negative =>
    cases other with
    | nan => cases negative <;> cases same
    | infinite sign =>
      cases negative <;> cases sign
      · exact .inl ⟨_, rfl, rfl⟩
      · cases same
      · cases same
      · exact .inl ⟨_, rfl, rfl⟩
    | finite b n f =>
      by_cases empty : n = 0
      · subst empty
        cases negative <;> cases same
      · rw [unpacked_finite _ _ _ empty] at same
        cases negative <;> cases same
  | finite a m e =>
    cases other with
    | finite b n f => exact .inr ⟨a, m, e, b, n, f, rfl, rfl⟩
    | nan =>
      by_cases empty : m = 0
      · subst empty
        cases same
      · rw [unpacked_finite _ _ _ empty] at same
        cases same
    | infinite sign =>
      by_cases empty : m = 0
      · subst empty
        cases sign <;> cases same
      · rw [unpacked_finite _ _ _ empty] at same
        cases sign <;> cases same

theorem Double.eq_of_beq (a b : Double) (same : (a.toFloat == b.toFloat) = true) :
    a = b ∨ a.decode.IsZero ∧ b.decode.IsZero := by
  rw [beq_iff_compare, Double.toFloat, Double.toFloat, unpack_ofBits, unpack_ofBits] at same
  change a.decode.unpacked.compare b.decode.unpacked = some .eq at same
  rcases Decoded.compare_eq_cases a.decode b.decode same with
    ⟨negative, first, second⟩ | ⟨s, m, e, t, n, f, first, second⟩
  · exact .inl (Double.eq_of_decode (first.trans second.symm) (by simp [first]))
  · have left := double_decode_canonical _ _ _ _ first
    have right := double_decode_canonical _ _ _ _ second
    rw [first, second, Decoded.compare_finite s t m n e f left right, Option.some_inj, compare_eq_iff_eq] at same
    rcases Decoded.eq_of_value s t m n e f left right same with zeros | equal
    · rw [first, second]
      exact .inr zeros
    · exact .inl (Double.eq_of_decode (first.trans (equal.trans second.symm)) (by simp [first]))

theorem Double.eq_zero {d : Double} (zero : d.decode.IsZero) : d = ⟨0⟩ ∨ d = ⟨0x8000000000000000⟩ := by
  cases decoded : d.decode with
  | nan | infinite =>
    rw [decoded] at zero
    exact zero.elim
  | finite negative m e =>
    rw [decoded] at zero
    cases zero
    have canonical := double_decode_canonical _ _ _ _ decoded
    obtain rfl : e = -1074 := by
      rcases canonical.leading with least | large
      · exact least
      · omega
    cases negative with
    | false => exact .inl (Double.eq_of_decode decoded (by simp [decoded]))
    | true => exact .inr (Double.eq_of_decode decoded (by simp [decoded]))

-- A zero keeps its sign on the way, so equality with the rounding is enough for every number.
theorem Double.toDouble_toSingle (d : Double) (exact : (d.toSingle.toFloat == d.toFloat) = true) :
    d.toSingle.toDouble = d := by
  rcases Double.eq_of_beq d.toSingle.toDouble d exact with same | ⟨_, zero⟩
  · exact same
  · rcases Double.eq_zero zero with rfl | rfl
    · decide +kernel
    · decide +kernel

namespace Single

-- The bits below the point are all zero, so rounding takes nothing away.
theorem roundHalfUp_exact (n s : Nat) : roundHalfUp (n * 2 ^ s) (-s) = n := by
  unfold roundHalfUp
  by_cases whole : s = 0
  · subst whole
    simp
  · have half : 2 ^ (s - 1) < 2 ^ s := Nat.pow_lt_pow_right (by omega) (by omega)
    rw [if_neg (by omega), neg_neg, Int.toNat_natCast, Nat.one_shiftLeft, Nat.shiftRight_eq_div_pow, Nat.add_comm,
      Nat.add_mul_div_right _ _ (Nat.two_pow_pos s), Nat.div_eq_of_lt half, Nat.zero_add]

theorem roundClamped_of_decode {w : Single} {i low high : Int} {m : Nat} {e : Int}
    (decoded : w.decode = .finite (i < 0) m e) (rounded : roundHalfUp m e = i.natAbs) (least : low ≤ i) (most : i ≤ high) :
    w.roundClamped low high = i := by
  unfold roundClamped
  rw [decoded]
  dsimp only
  rw [rounded]
  by_cases below : i < 0
  · rw [if_pos (decide_eq_true below)]
    omega
  · rw [if_neg (by simpa using below)]
    omega

end Single

end GridKernel
