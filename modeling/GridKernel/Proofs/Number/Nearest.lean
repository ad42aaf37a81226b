import GridKernel.Proofs.Number.Rounding

namespace GridKernel

-- Two magnitudes `m * 2 ^ e` and `n * 2 ^ k` are one number.
def SameMagnitude (m : Nat) (e : Int) (n : Nat) (k : Int) : Prop := m * 2 ^ (e - k).toNat = n * 2 ^ (k - e).toNat

namespace SameMagnitude

variable {m n p : Nat} {e k l : Int}

theorem symm (same : SameMagnitude m e n k) : SameMagnitude n k m e := Eq.symm same

theorem scaled (m s : Nat) (e : Int) : SameMagnitude (m * 2 ^ s) (e - s) m e := by
  have up : (e - s - e).toNat = 0 := by omega
  have down : (e - (e - s)).toNat = s := by omega
  rw [SameMagnitude, up, down, pow_zero, Nat.mul_one]

theorem iff_at (low : Int) (left : low ≤ e) (right : low ≤ k) :
    SameMagnitude m e n k ↔ m * 2 ^ (e - low).toNat = n * 2 ^ (k - low).toNat := by
  have first : (e - low).toNat = (e - k).toNat + (min e k - low).toNat := by omega
  have second : (k - low).toNat = (k - e).toNat + (min e k - low).toNat := by omega
  rw [first, second, pow_add, pow_add, ← Nat.mul_assoc, ← Nat.mul_assoc, Nat.mul_left_inj (Nat.two_pow_pos _).ne']
  exact Iff.rfl

theorem trans (one : SameMagnitude m e n k) (two : SameMagnitude n k p l) : SameMagnitude m e p l := by
  have low : min e (min k l) ≤ e ∧ min e (min k l) ≤ k ∧ min e (min k l) ≤ l := by omega
  generalize min e (min k l) = bottom at low
  rw [iff_at bottom low.1 low.2.1] at one
  rw [iff_at bottom low.2.1 low.2.2] at two
  exact (iff_at bottom low.1 low.2.2).mpr (one.trans two)

theorem eq_zero_iff (same : SameMagnitude m e n k) : m = 0 ↔ n = 0 := by
  have zero (p s : Nat) : p * 2 ^ s = 0 ↔ p = 0 := by simp
  rw [← zero m (e - k).toNat, ← zero n (k - e).toNat, show m * 2 ^ (e - k).toNat = n * 2 ^ (k - e).toNat from same]

-- One number has one weight of its leading bit.
theorem log2_eq (same : SameMagnitude m e n k) (positive : 0 < m) : (m.log2 : Int) + e = n.log2 + k := by
  have other : 0 < n := Nat.pos_of_ne_zero (mt same.eq_zero_iff.mpr positive.ne')
  have lengths := congrArg Nat.log2 (show m * 2 ^ (e - k).toNat = n * 2 ^ (k - e).toNat from same)
  rw [← Nat.shiftLeft_eq, ← Nat.shiftLeft_eq, log2_shiftLeft _ _ positive, log2_shiftLeft _ _ other] at lengths
  omega

end SameMagnitude

-- Nothing is below the last place, so nothing is rounded.
theorem roundShift_exact (m s : Nat) : roundShift (m * 2 ^ s) s = m := by
  unfold roundShift
  dsimp only
  rw [Nat.shiftRight_eq_div_pow, Nat.mul_div_cancel m (Nat.two_pow_pos s), Nat.shiftLeft_eq, Nat.sub_self,
    Nat.one_shiftLeft, if_pos (Nat.two_pow_pos s)]

namespace Format

variable (f : Format)

-- Mantissa and exponent as a pattern holds them, the pattern below infinity.
structure Canonical (m : Nat) (e : Int) : Prop where
  bits : m < 2 ^ (f.fraction + 1)
  least : f.leastExponent ≤ e
  leading : e = f.leastExponent ∨ 2 ^ f.fraction ≤ m
  finite : (e - f.leastExponent).toNat * 2 ^ f.fraction + m < f.infinity

def pattern (negative : Bool) (m : Nat) (e : Int) : Nat :=
  f.signed negative ((e - f.leastExponent).toNat * 2 ^ f.fraction + m)

theorem infinity_eq : f.infinity = (2 ^ f.exponent - 1) * 2 ^ f.fraction := by
  rw [infinity, Nat.shiftLeft_eq, Nat.one_shiftLeft]

theorem infinity_lt : f.infinity < 2 ^ (f.fraction + f.exponent) := by
  have positive := Nat.two_pow_pos f.exponent
  rw [infinity_eq, Nat.add_comm, pow_add]
  exact Nat.mul_lt_mul_of_pos_right (by omega) (Nat.two_pow_pos _)

theorem signed_eq (negative : Bool) (k : Nat) :
    f.signed negative k = 2 ^ (f.fraction + f.exponent) * negative.toNat + k := by
  unfold signed
  rw [Nat.one_shiftLeft]
  cases negative
  · rw [if_neg Bool.false_ne_true, Bool.toNat_false, Nat.mul_zero, Nat.zero_add]
  · rw [if_pos rfl, Bool.toNat_true, Nat.mul_one, Nat.add_comm]

-- The sign stands above the fields and does not disturb them.
theorem decode_signed (negative : Bool) (k : Nat) (small : k < 2 ^ (f.fraction + f.exponent)) :
    f.decode (f.signed negative k) =
      if k / 2 ^ f.fraction = 2 ^ f.exponent - 1 then
        if k % 2 ^ f.fraction = 0 then .infinite negative else .nan
      else if k / 2 ^ f.fraction = 0 then .finite negative (k % 2 ^ f.fraction) f.leastExponent
      else .finite negative (2 ^ f.fraction + k % 2 ^ f.fraction)
        (f.leastExponent + (k / 2 ^ f.fraction - 1 : Nat)) := by
  have sign : (f.signed negative k).testBit (f.fraction + f.exponent) = negative := by
    rw [signed_eq, Nat.testBit_two_pow_mul_add _ small, if_neg (lt_irrefl _), Nat.sub_self]
    cases negative <;> rfl
  have fraction : f.signed negative k % 2 ^ f.fraction = k % 2 ^ f.fraction := by
    rw [signed_eq, pow_add, Nat.mul_assoc, Nat.mul_add_mod]
  have field : f.signed negative k / 2 ^ f.fraction % 2 ^ f.exponent = k / 2 ^ f.fraction := by
    rw [signed_eq, pow_add, Nat.mul_assoc, Nat.mul_add_div (Nat.two_pow_pos _), Nat.mul_add_mod]
    exact Nat.mod_eq_of_lt (Nat.div_lt_of_lt_mul (by rwa [← pow_add]))
  unfold decode
  simp only [Nat.one_shiftLeft, Nat.shiftRight_eq_div_pow, sign, fraction, field]

variable {f}

theorem decode_pattern (negative : Bool) {m : Nat} {e : Int} (canonical : f.Canonical m e) :
    f.decode (f.pattern negative m e) = .finite negative m e := by
  obtain ⟨bits, least, leading, finite⟩ := canonical
  rw [pattern, decode_signed _ _ _ (finite.trans f.infinity_lt)]
  obtain ⟨t, rfl⟩ : ∃ t : Nat, e = f.leastExponent + t := ⟨(e - f.leastExponent).toNat, by omega⟩
  have place : (f.leastExponent + t - f.leastExponent).toNat = t := by omega
  rw [infinity_eq] at finite
  rw [place] at finite ⊢
  have some := Nat.two_pow_pos f.fraction
  by_cases small : m < 2 ^ f.fraction
  · obtain rfl : t = 0 := by omega
    rw [Nat.zero_mul, Nat.zero_add] at finite ⊢
    have fields : 0 < 2 ^ f.exponent - 1 := Nat.pos_of_mul_pos_right (Nat.zero_lt_of_lt finite)
    rw [Nat.div_eq_of_lt small, Nat.mod_eq_of_lt small, if_neg (by omega), if_pos rfl]
    simp
  · have field : (t * 2 ^ f.fraction + m) / 2 ^ f.fraction = t + 1 := by
      rw [Nat.mul_comm, Nat.mul_add_div some, Nat.div_eq_of_lt_le (k := 1) (by omega) (by rw [Nat.mul_comm, ← pow_succ]; exact bits)]
    have fraction : (t * 2 ^ f.fraction + m) % 2 ^ f.fraction = m - 2 ^ f.fraction := by
      rw [Nat.mul_comm, Nat.mul_add_mod, Nat.mod_eq_sub_mod (by omega), Nat.mod_eq_of_lt (by rw [pow_succ] at bits; omega)]
    have below : t + 1 < 2 ^ f.exponent - 1 := by
      rw [← field]
      exact Nat.div_lt_of_lt_mul (by rwa [Nat.mul_comm _ (2 ^ f.exponent - 1)])
    rw [field, fraction, if_neg (by omega), if_neg (by omega), Decoded.finite.injEq]
    exact ⟨rfl, by omega, by omega⟩

theorem Canonical.pattern_lt (negative : Bool) {m : Nat} {e : Int} (canonical : f.Canonical m e) :
    f.pattern negative m e < 2 ^ (f.fraction + f.exponent + 1) := by
  have bit := Bool.toNat_le negative
  have top := Nat.mul_le_mul_left (2 ^ (f.fraction + f.exponent)) bit
  have magnitude := canonical.finite.trans f.infinity_lt
  rw [pattern, signed_eq, pow_succ]
  omega

-- Every pattern is a NaN, an infinity, or holds the number it decodes to.
theorem decode_cases {b : Nat} (word : b < 2 ^ (f.fraction + f.exponent + 1)) :
    f.decode b = .nan ∨ (∃ negative, f.decode b = .infinite negative ∧ b = f.signed negative f.infinity) ∨
      ∃ negative m e, f.decode b = .finite negative m e ∧ f.Canonical m e ∧ b = f.pattern negative m e := by
  obtain ⟨negative, k, small, rfl⟩ : ∃ negative k, k < 2 ^ (f.fraction + f.exponent) ∧ b = f.signed negative k := by
    have top : b / 2 ^ (f.fraction + f.exponent) < 2 := Nat.div_lt_of_lt_mul (by rwa [← pow_succ])
    refine ⟨b / 2 ^ (f.fraction + f.exponent) == 1, b % 2 ^ (f.fraction + f.exponent), Nat.mod_lt _ (Nat.two_pow_pos _), ?_⟩
    have bit : (b / 2 ^ (f.fraction + f.exponent) == 1).toNat = b / 2 ^ (f.fraction + f.exponent) := by
      generalize b / 2 ^ (f.fraction + f.exponent) = t at top
      obtain rfl | rfl : t = 0 ∨ t = 1 := by omega
      · rfl
      · rfl
    rw [signed_eq, bit, Nat.div_add_mod]
  have parts : k = k / 2 ^ f.fraction * 2 ^ f.fraction + k % 2 ^ f.fraction := (Nat.div_add_mod' k _).symm
  have field : k / 2 ^ f.fraction < 2 ^ f.exponent := Nat.div_lt_of_lt_mul (by rwa [← pow_add])
  have fraction : k % 2 ^ f.fraction < 2 ^ f.fraction := Nat.mod_lt _ (Nat.two_pow_pos _)
  rw [decode_signed _ _ _ small]
  generalize k / 2 ^ f.fraction = t at parts field
  generalize k % 2 ^ f.fraction = r at parts fraction
  subst parts
  have below (less : t < 2 ^ f.exponent - 1) : t * 2 ^ f.fraction + r < f.infinity := by
    calc t * 2 ^ f.fraction + r < (t + 1) * 2 ^ f.fraction := by rw [Nat.succ_mul]; omega
      _ ≤ f.infinity := by rw [infinity_eq]; exact Nat.mul_le_mul_right _ (by omega)
  by_cases full : t = 2 ^ f.exponent - 1
  · rw [if_pos full]
    by_cases none : r = 0
    · rw [if_pos none, full, none, Nat.add_zero, ← infinity_eq]
      exact .inr (.inl ⟨negative, rfl, rfl⟩)
    · rw [if_neg none]
      exact .inl rfl
  · rw [if_neg full]
    have finite := below (by omega)
    by_cases empty : t = 0
    · subst empty
      rw [Nat.zero_mul, Nat.zero_add] at finite ⊢
      rw [if_pos rfl]
      refine .inr (.inr ⟨negative, r, f.leastExponent, rfl, ⟨by rw [pow_succ]; omega, le_rfl, .inl rfl, ?_⟩, ?_⟩)
      · simpa using finite
      · simp [pattern]
    · rw [if_neg empty]
      have place : (f.leastExponent + (t - 1 : Nat) - f.leastExponent).toNat = t - 1 := by omega
      have whole : (t - 1) * 2 ^ f.fraction + (2 ^ f.fraction + r) = t * 2 ^ f.fraction + r := by
        rw [← Nat.add_assoc, ← Nat.succ_mul, Nat.succ_eq_add_one, Nat.sub_add_cancel (by omega)]
      refine .inr (.inr ⟨negative, _, _, rfl, ⟨by rw [pow_succ]; omega, by omega, .inr (by omega), ?_⟩, ?_⟩)
      · rwa [place, whole]
      · rw [pattern, place, whole]

theorem canonical_of_decode {b : Nat} {negative : Bool} {m : Nat} {e : Int}
    (word : b < 2 ^ (f.fraction + f.exponent + 1)) (decoded : f.decode b = .finite negative m e) :
    f.Canonical m e ∧ b = f.pattern negative m e := by
  rcases decode_cases word with nan | ⟨sign, infinite, _⟩ | ⟨sign, n, k, finite, canonical, bits⟩
  · cases decoded.symm.trans nan
  · cases decoded.symm.trans infinite
  · cases decoded.symm.trans finite
    exact ⟨canonical, bits⟩

theorem nearest_zero (negative : Bool) (e : Int) : f.nearest negative 0 e = f.pattern negative 0 f.leastExponent := by
  simp [nearest, pattern]

theorem Canonical.lastPlace_eq {m : Nat} {e : Int} (canonical : f.Canonical m e) (positive : 0 < m) :
    f.lastPlace (m.log2 + e) = e := by
  obtain ⟨bits, least, leading, _⟩ := canonical
  have length : m.log2 < f.fraction + 1 := (Nat.log2_lt positive.ne').mpr bits
  unfold lastPlace
  rcases leading with rfl | large
  · omega
  · have long : f.fraction ≤ m.log2 := (Nat.le_log2 positive.ne').mpr large
    omega

-- A number that a pattern holds is rounded to that pattern, in whatever form it is given.
theorem nearest_eq_pattern (negative : Bool) {m n : Nat} {e k : Int} (canonical : f.Canonical n k)
    (same : SameMagnitude m e n k) : f.nearest negative m e = f.pattern negative n k := by
  by_cases none : m = 0
  · obtain rfl := none
    obtain rfl := same.eq_zero_iff.mp rfl
    have least : k = f.leastExponent := canonical.leading.resolve_right (Nat.two_pow_pos _).not_ge
    rw [nearest_zero, least]
  · have positive : 0 < m := Nat.pos_of_ne_zero none
    have other : 0 < n := Nat.pos_of_ne_zero (mt same.eq_zero_iff.mpr none)
    have last : f.lastPlace (m.log2 + e) = k := by rw [same.log2_eq positive, canonical.lastPlace_eq other]
    have scaled : (if k ≤ e then m <<< (e - k).toNat else roundShift m (k - e).toNat) = n := by
      unfold SameMagnitude at same
      by_cases up : k ≤ e
      · rw [show (k - e).toNat = 0 by omega, pow_zero, Nat.mul_one] at same
        rw [if_pos up, Nat.shiftLeft_eq, same]
      · rw [show (e - k).toNat = 0 by omega, pow_zero, Nat.mul_one] at same
        rw [if_neg up, same, roundShift_exact]
    unfold nearest
    rw [if_neg none]
    dsimp only
    rw [last, scaled, Nat.shiftLeft_eq, min_eq_left canonical.finite.le, pattern]

-- A mantissa that fits is shifted up until its leading bit is in place or the exponent is the least.
theorem exists_canonical (m : Nat) (e : Int) (bits : m < 2 ^ (f.fraction + 1)) (least : f.leastExponent ≤ e)
    (most : (e - f.leastExponent).toNat + 2 < 2 ^ f.exponent) : ∃ n k, f.Canonical n k ∧ SameMagnitude n k m e := by
  have below (n : Nat) (t : Nat) (fits : n < 2 ^ (f.fraction + 1)) (room : t + 2 < 2 ^ f.exponent) :
      t * 2 ^ f.fraction + n < f.infinity := by
    calc t * 2 ^ f.fraction + n < (t + 2) * 2 ^ f.fraction := by rw [pow_succ] at fits; rw [Nat.add_mul]; omega
      _ ≤ f.infinity := by rw [infinity_eq]; exact Nat.mul_le_mul_right _ (by omega)
  by_cases none : m = 0
  · subst none
    refine ⟨0, f.leastExponent, ⟨Nat.two_pow_pos _, le_rfl, .inl rfl, ?_⟩, by simp [SameMagnitude]⟩
    exact below 0 _ (Nat.two_pow_pos _) (by omega)
  · have length : m.log2 < f.fraction + 1 := (Nat.log2_lt none).mpr bits
    obtain ⟨s, shift⟩ : ∃ s, s = min (f.fraction - m.log2) (e - f.leastExponent).toNat := ⟨_, rfl⟩
    have shifted := log2_shiftLeft m s (Nat.pos_of_ne_zero none)
    have some : m * 2 ^ s ≠ 0 := Nat.mul_ne_zero none (Nat.two_pow_pos s).ne'
    rw [Nat.shiftLeft_eq] at shifted
    have fits : m * 2 ^ s < 2 ^ (f.fraction + 1) := (Nat.log2_lt some).mp (by omega)
    refine ⟨m * 2 ^ s, e - s, ⟨fits, by omega, ?_, below _ _ fits (by omega)⟩, SameMagnitude.scaled m s e⟩
    by_cases low : e - s = f.leastExponent
    · exact .inl low
    · exact .inr ((Nat.le_log2 some).mp (by omega))

theorem nearest_exact (negative : Bool) (m : Nat) (e : Int) (bits : m < 2 ^ (f.fraction + 1)) (least : f.leastExponent ≤ e)
    (most : (e - f.leastExponent).toNat + 2 < 2 ^ f.exponent) :
    ∃ n k, f.Canonical n k ∧ f.nearest negative m e = f.pattern negative n k ∧ SameMagnitude n k m e := by
  obtain ⟨n, k, canonical, same⟩ := exists_canonical m e bits least most
  exact ⟨n, k, canonical, nearest_eq_pattern negative canonical same.symm, same⟩

end Format

end GridKernel
