import GridKernel.Number.Decimal
import Mathlib.Algebra.Order.Field.Power
import Mathlib.Algebra.Order.Ring.Abs
import Mathlib.Data.Nat.Bitwise
import Mathlib.Data.Rat.Floor
import Mathlib.Tactic.FieldSimp
import Mathlib.Tactic.Linarith
import Mathlib.Tactic.Positivity
import Mathlib.Tactic.Ring

namespace GridKernel

def Decimal.value (d : Decimal) : ℚ := d.digits * 10 ^ d.exponent

namespace Single

-- Patterns without a sign in numeric order: what each stands for, and the weight of its last place.
-- The pattern of the infinity stands for the power of two that would follow.
def place (n : Nat) : ℤ := (max (n / 2 ^ 23) 1 : Nat) - 150

def mantissa (n : Nat) : Nat := if n / 2 ^ 23 = 0 then n % 2 ^ 23 else 2 ^ 23 + n % 2 ^ 23

def measure (n : Nat) : ℚ := mantissa n * 2 ^ place n

-- No other word is as near, but for a tie that the even one wins.
structure IsNearest (w : Single) (x : ℚ) : Prop where
  finite : w.bits.toNat < 0x7f800000
  nearest : ∀ n ≤ 0x7f800000, n ≠ w.bits.toNat → |x - measure w.bits.toNat| < |x - measure n| ∨
    |x - measure w.bits.toNat| = |x - measure n| ∧ w.bits.toNat % 2 = 0

theorem measure_succ (n : Nat) : measure (n + 1) = measure n + 2 ^ place n := by
  unfold measure
  by_cases last : n % 2 ^ 23 = 2 ^ 23 - 1
  · have field : (n + 1) / 2 ^ 23 = n / 2 ^ 23 + 1 := by omega
    have mantissaNext : mantissa (n + 1) = 2 ^ 23 := by
      unfold mantissa
      rw [if_neg (by omega)]
      omega
    by_cases least : n / 2 ^ 23 = 0
    · have same : place (n + 1) = place n := by
        unfold place
        rw [field, least]
        rfl
      have mantissaLast : mantissa n = 2 ^ 23 - 1 := by
        unfold mantissa
        rw [if_pos least, last]
      rw [mantissaNext, same, mantissaLast]
      norm_num
      ring
    · have up : place (n + 1) = place n + 1 := by
        unfold place
        rw [field]
        omega
      have mantissaLast : mantissa n = 2 ^ 24 - 1 := by
        unfold mantissa
        rw [if_neg least]
        omega
      rw [mantissaNext, up, mantissaLast, zpow_add_one₀ (by norm_num)]
      norm_num
      ring
  · have same : place (n + 1) = place n := by
      unfold place
      rw [show (n + 1) / 2 ^ 23 = n / 2 ^ 23 by omega]
    have next : mantissa (n + 1) = mantissa n + 1 := by
      unfold mantissa
      rw [show (n + 1) / 2 ^ 23 = n / 2 ^ 23 by omega]
      split <;> omega
    rw [same, next]
    push_cast
    ring

theorem measure_strictMono : StrictMono measure := by
  apply strictMono_nat_of_lt_succ
  intro n
  rw [measure_succ]
  exact lt_add_of_pos_right _ (zpow_pos (by norm_num) _)

theorem nearer_of_half_lt {x a b : ℚ} (half : 0 < (a - b) * (2 * x - (a + b))) : |x - a| < |x - b| := by
  apply sq_lt_sq.mp
  linarith only [half, show (x - b) ^ 2 - (x - a) ^ 2 = (a - b) * (2 * x - (a + b)) by ring]

theorem tie_of_half {x a b : ℚ} (half : 2 * x = a + b) : |x - a| = |x - b| := by
  apply (sq_eq_sq_iff_abs_eq_abs _ _).mp
  have same : (x - b) ^ 2 - (x - a) ^ 2 = (a - b) * (2 * x - (a + b)) := by ring
  rw [half, sub_self, mul_zero] at same
  exact (sub_eq_zero.mp same).symm

-- A number between the halfway points to the neighbours, and on one of them only for an even word.
theorem IsNearest.of_halfway {w : Single} {x : ℚ} (finite : w.bits.toNat < 0x7f800000)
    (above : ∀ n, n + 1 = w.bits.toNat → measure n + measure w.bits.toNat < 2 * x ∨
      2 * x = measure n + measure w.bits.toNat ∧ w.bits.toNat % 2 = 0)
    (below : 2 * x < measure w.bits.toNat + measure (w.bits.toNat + 1) ∨
      2 * x = measure w.bits.toNat + measure (w.bits.toNat + 1) ∧ w.bits.toNat % 2 = 0) : w.IsNearest x := by
  refine ⟨finite, ?_⟩
  intro n _ other
  rcases Nat.lt_or_gt_of_ne other with less | more
  · have order := measure_strictMono less
    obtain ⟨last, here⟩ : ∃ last, last + 1 = w.bits.toNat := ⟨w.bits.toNat - 1, by omega⟩
    have near : measure n ≤ measure last := measure_strictMono.monotone (by omega)
    rcases above last here with beyond | ⟨half, even⟩
    · exact .inl (nearer_of_half_lt (mul_pos (by linarith) (by linarith)))
    · rcases near.lt_or_eq with further | same
      · exact .inl (nearer_of_half_lt (mul_pos (by linarith) (by linarith)))
      · exact .inr ⟨tie_of_half (by linarith), even⟩
  · have order := measure_strictMono more
    have near : measure (w.bits.toNat + 1) ≤ measure n := measure_strictMono.monotone (by omega)
    rcases below with short | ⟨half, even⟩
    · exact .inl (nearer_of_half_lt (mul_pos_of_neg_of_neg (by linarith) (by linarith)))
    · rcases near.lt_or_eq with further | same
      · exact .inl (nearer_of_half_lt (mul_pos_of_neg_of_neg (by linarith) (by linarith)))
      · exact .inr ⟨tie_of_half (by linarith), even⟩

-- Between two even words that are equally near stands an odd one that is nearer.
theorem IsNearest.le {v w : Single} {x : ℚ} (one : v.IsNearest x) (two : w.IsNearest x) :
    w.bits.toNat ≤ v.bits.toNat := by
  by_contra less
  rw [not_le] at less
  have first := one.nearest w.bits.toNat (le_of_lt two.finite) (by omega)
  have second := two.nearest v.bits.toNat (le_of_lt one.finite) (by omega)
  obtain ⟨tie, even⟩ : |x - measure v.bits.toNat| = |x - measure w.bits.toNat| ∧ v.bits.toNat % 2 = 0 := by
    rcases first with near | both
    · rcases second with far | ⟨far, _⟩
      · exact absurd near (lt_asymm far)
      · exact absurd far.symm near.ne
    · exact both
  have evenToo : w.bits.toNat % 2 = 0 := by
    rcases second with far | ⟨_, other⟩
    · exact absurd tie.symm far.ne
    · exact other
  have order := measure_strictMono less
  have lower := measure_strictMono (Nat.lt_succ_self v.bits.toNat)
  have upper := measure_strictMono (show v.bits.toNat + 1 < w.bits.toNat by omega)
  have half : 2 * x = measure v.bits.toNat + measure w.bits.toNat := by
    have squares := (sq_eq_sq_iff_abs_eq_abs _ _).mpr tie
    have product : (measure w.bits.toNat - measure v.bits.toNat) *
        (2 * x - (measure v.bits.toNat + measure w.bits.toNat)) = 0 := by linarith
    rcases mul_eq_zero.mp product with same | middle
    · linarith
    · linarith
  have between : |x - measure (v.bits.toNat + 1)| < |x - measure v.bits.toNat| :=
    nearer_of_half_lt (mul_pos (by linarith) (by linarith))
  have bound := two.finite
  rcases one.nearest (v.bits.toNat + 1) (by omega) (by omega) with near | ⟨same, _⟩
  · exact absurd near (lt_asymm between)
  · exact absurd same between.ne'

theorem IsNearest.unique {v w : Single} {x : ℚ} (one : v.IsNearest x) (two : w.IsNearest x) : v = w := by
  have same : v.bits.toNat = w.bits.toNat := le_antisymm (two.le one) (one.le two)
  cases v
  cases w
  exact congrArg Single.mk (UInt32.toNat_inj.mp same)

theorem isNearest_zero : IsNearest ⟨0⟩ 0 := by
  apply IsNearest.of_halfway
  · decide
  · intro n none
    cases none
  · refine .inl ?_
    have zero : measure 0 = 0 := by simp [measure, mantissa]
    have order := measure_strictMono (Nat.lt_succ_self 0)
    simpa [zero] using order

def unsigned (w : Single) : Single := ⟨w.bits &&& 0x7fffffff⟩

theorem unsigned_toNat (w : Single) : w.unsigned.bits.toNat = w.bits.toNat % 2 ^ 31 := by
  change (w.bits &&& 0x7fffffff).toNat = _
  rw [UInt32.toNat_and]
  exact Nat.and_two_pow_sub_one_eq_mod _ 31

theorem positive_iff (w : Single) : w.bits &&& 0x80000000 = 0 ↔ w.bits.toNat.testBit 31 = false := by
  have bit : (w.bits &&& 0x80000000).toNat = (w.bits.toNat.testBit 31).toNat * 2 ^ 31 := by
    rw [UInt32.toNat_and]
    exact Nat.and_two_pow _ 31
  rw [← UInt32.toNat_inj, bit]
  cases w.bits.toNat.testBit 31 <;> decide

theorem unsigned_of_positive {w : Single} (positive : w.bits.toNat.testBit 31 = false) : w.unsigned = w := by
  have word := w.bits.toNat_lt
  have small : w.bits.toNat < 2 ^ 31 := by
    rw [Nat.testBit_eq_decide_div_mod_eq, decide_eq_false_iff_not] at positive
    omega
  have same : w.unsigned.bits.toNat = w.bits.toNat := by rw [unsigned_toNat, Nat.mod_eq_of_lt small]
  exact congrArg Single.mk (UInt32.toNat_inj.mp same)

theorem unsigned_finite {w : Single} (finite : w.isFinite = true) : w.unsigned.bits.toNat < 0x7f800000 := by
  unfold isFinite at finite
  exact UInt32.lt_iff_toNat_lt.mp (of_decide_eq_true finite)

theorem decode_finite {w : Single} (finite : w.isFinite = true) :
    w.decode = .finite (w.bits.toNat.testBit 31) (mantissa w.unsigned.bits.toNat) (place w.unsigned.bits.toNat) := by
  have bound := unsigned_finite finite
  have field : w.bits.toNat / 2 ^ 23 % 2 ^ 8 = w.unsigned.bits.toNat / 2 ^ 23 := by
    rw [unsigned_toNat]
    omega
  have fraction : w.bits.toNat % 2 ^ 23 = w.unsigned.bits.toNat % 2 ^ 23 := by
    rw [unsigned_toNat]
    omega
  change (if w.bits.toNat >>> 23 % 2 ^ 8 = 2 ^ 8 - 1 then
      if w.bits.toNat % 2 ^ 23 = 0 then .infinite (w.bits.toNat.testBit 31) else .nan
    else if w.bits.toNat >>> 23 % 2 ^ 8 = 0 then .finite (w.bits.toNat.testBit 31) (w.bits.toNat % 2 ^ 23) (-149)
    else .finite (w.bits.toNat.testBit 31) (2 ^ 23 + w.bits.toNat % 2 ^ 23)
      (-149 + (w.bits.toNat >>> 23 % 2 ^ 8 - 1 : Nat))) = Decoded.finite _ _ _
  rw [Nat.shiftRight_eq_div_pow, field, fraction, if_neg (by omega)]
  unfold mantissa place
  split
  · rename_i least
    rw [least]
    rfl
  · congr 1
    omega

end Single

namespace Decimal

theorem scale_eq (n : Nat) (k : Int) : ((scale n k).1 : ℚ) = n * 10 ^ k * (scale n k).2 := by
  unfold scale
  split
  · rename_i positive
    obtain ⟨p, rfl⟩ := Int.eq_ofNat_of_zero_le positive
    simp
  · rename_i negative
    obtain ⟨p, rfl⟩ : ∃ p : Nat, k = -p := ⟨(-k).toNat, by omega⟩
    simp

theorem scale_pos (n : Nat) (k : Int) : 0 < (scale n k).2 := by
  unfold scale
  split
  · exact Nat.one_pos
  · exact Nat.pow_pos (by decide)

theorem trim_value (fuel : Nat) (d : Decimal) : (trim fuel d).value = d.value := by
  induction fuel generalizing d with
  | zero => rfl
  | succ fuel ih =>
    rw [trim]
    split
    · rename_i trailing
      rw [ih]
      have whole : d.digits = 10 * (d.digits / 10) := by omega
      have split : (d.digits : ℚ) = 10 * (d.digits / 10 : Nat) := by exact_mod_cast whole
      rw [value, value, split, zpow_add_one₀ (by norm_num)]
      ring
    · rfl

theorem magnitude_le {num den : Nat} (positive : 0 < num) (whole : 0 < den) :
    (10 : ℚ) ^ magnitude num den ≤ num / den := by
  unfold magnitude digitCount
  split
  · rename_i large
    have least : 0 < num / den := Nat.div_pos large whole
    have digits := Nat.length_toDigits_pos (b := 10) (n := num / den)
    obtain ⟨more, count⟩ : ∃ more, (Nat.toDigits 10 (num / den)).length = more + 1 := ⟨_, (Nat.sub_add_cancel digits).symm⟩
    have reached : 10 ^ more ≤ num / den := by
      rcases Nat.eq_zero_or_pos more with rfl | some
      · exact least
      · by_contra short
        have fits := (Nat.length_toDigits_le_iff (by decide) some).mpr (not_le.mp short)
        omega
    have floor : 10 ^ more * den ≤ num := le_trans (Nat.mul_le_mul_right _ reached) (Nat.div_mul_le_self num den)
    rw [count, show ((more + 1 : Nat) : Int) - 1 = more by omega, zpow_natCast, le_div_iff₀ (by exact_mod_cast whole)]
    exact_mod_cast floor
  · have digits := Nat.length_toDigits_pos (b := 10) (n := (den + num - 1) / num - 1)
    have room := (Nat.length_toDigits_le_iff (by decide) digits).mp le_rfl
    generalize (Nat.toDigits 10 ((den + num - 1) / num - 1)).length = count at room
    have ceiling : den ≤ (den + num - 1) / num * num := by
      have floor := Nat.lt_div_mul_add positive (a := den + num - 1)
      omega
    have enough : den ≤ num * 10 ^ count := by
      calc den ≤ (den + num - 1) / num * num := ceiling
        _ ≤ 10 ^ count * num := Nat.mul_le_mul_right _ (by omega)
        _ = num * 10 ^ count := Nat.mul_comm _ _
    rw [zpow_neg, zpow_natCast, inv_le_comm₀ (by positivity) (by positivity), inv_div, div_le_iff₀ (by positivity), mul_comm]
    exact_mod_cast enough

theorem quarter_eq (e : Int) : ((1 <<< (e - 2).toNat : Nat) : ℚ) / (1 <<< (2 - e).toNat : Nat) = 2 ^ e / 4 := by
  have split : (2 : ℚ) ^ e / 4 = 2 ^ (e - 2) := by
    rw [zpow_sub₀ (by norm_num)]
    norm_num
  rw [split, Nat.one_shiftLeft, Nat.one_shiftLeft]
  rcases le_total 2 e with up | down
  · obtain ⟨p, same⟩ : ∃ p : Nat, e - 2 = p := ⟨(e - 2).toNat, by omega⟩
    rw [show (2 - e).toNat = 0 by omega, same]
    simp
  · obtain ⟨p, same⟩ : ∃ p : Nat, e - 2 = -p := ⟨(2 - e).toNat, by omega⟩
    rw [show (2 - e).toNat = p by omega, same]
    simp

section Around
variable (m : Nat) (e : Int)

theorem interval_den_pos : 0 < (interval Format.single m e).den := by
  change 0 < 1 <<< (2 - e).toNat
  rw [Nat.one_shiftLeft]
  exact Nat.two_pow_pos _

theorem interval_mid : ((interval Format.single m e).mid : ℚ) / (interval Format.single m e).den = m * 2 ^ e := by
  change ((4 * m * 1 <<< (e - 2).toNat : Nat) : ℚ) / (1 <<< (2 - e).toNat : Nat) = _
  rw [Nat.cast_mul, mul_div_assoc, quarter_eq]
  push_cast
  ring

theorem interval_high :
    ((interval Format.single m e).high : ℚ) / (interval Format.single m e).den = (m + 1 / 2) * 2 ^ e := by
  change (((4 * m + 2) * 1 <<< (e - 2).toNat : Nat) : ℚ) / (1 <<< (2 - e).toNat : Nat) = _
  rw [Nat.cast_mul, mul_div_assoc, quarter_eq]
  push_cast
  ring

def gapBelow : ℚ := if m = 2 ^ 23 ∧ -149 < e then 1 / 4 else 1 / 2

theorem interval_low (positive : 0 < m) :
    ((interval Format.single m e).low : ℚ) / (interval Format.single m e).den = (m - gapBelow m e) * 2 ^ e := by
  change (((4 * m - if m = 2 ^ 23 ∧ -149 < e then 1 else 2) * 1 <<< (e - 2).toNat : Nat) : ℚ) /
    (1 <<< (2 - e).toNat : Nat) = _
  rw [Nat.cast_mul, mul_div_assoc, quarter_eq]
  unfold gapBelow
  split
  · rw [Nat.cast_sub (by omega)]
    push_cast
    ring
  · rw [Nat.cast_sub (by omega)]
    push_cast
    ring

end Around

theorem value_eq_scale (d : Decimal) :
    d.value = (scale d.digits d.exponent).1 / (scale d.digits d.exponent).2 := by
  have positive : ((scale d.digits d.exponent).2 : ℚ) ≠ 0 := by exact_mod_cast (scale_pos _ _).ne'
  rw [eq_div_iff positive, scale_eq]
  rfl

theorem Interval.contains_iff {i : Interval} (positive : 0 < i.den) (d : Decimal) :
    i.contains d = true ↔
      (i.low / i.den < d.value ∨ i.closed = true ∧ i.low / i.den = d.value) ∧
        (d.value < i.high / i.den ∨ i.closed = true ∧ d.value = i.high / i.den) := by
  have whole := scale_pos d.digits d.exponent
  rw [value_eq_scale]
  unfold Interval.contains
  dsimp only
  generalize scale d.digits d.exponent = s at whole
  have den : (0 : ℚ) < i.den := by exact_mod_cast positive
  have other : (0 : ℚ) < s.2 := by exact_mod_cast whole
  rw [div_lt_div_iff₀ den other, div_lt_div_iff₀ other den, div_eq_div_iff den.ne' other.ne', div_eq_div_iff other.ne' den.ne']
  norm_cast
  cases i.closed with
  | false => simp
  | true =>
    simp [le_iff_lt_or_eq]

theorem contains_near {m : Nat} {e : Int} (positive : 0 < m) {d : Decimal} (above : (m - 1 / 4) * 2 ^ e < d.value)
    (below : d.value < (m + 1 / 2) * 2 ^ e) : (interval Format.single m e).contains d = true := by
  rw [Interval.contains_iff (interval_den_pos m e), interval_low m e positive, interval_high]
  refine ⟨.inl (lt_of_le_of_lt ?_ above), .inl below⟩
  have unit : (0 : ℚ) < 2 ^ e := zpow_pos (by norm_num) e
  apply mul_le_mul_of_nonneg_right _ unit.le
  unfold gapBelow
  split
  · exact le_rfl
  · linarith

theorem floor_value (num : Nat) {den : Nat} (whole : 0 < den) (k : Int) :
    Decimal.value ⟨num * (scale 1 k).2 / (den * (scale 1 k).1), k⟩ ≤ num / den ∧
      (num : ℚ) / den < Decimal.value ⟨num * (scale 1 k).2 / (den * (scale 1 k).1), k⟩ + 10 ^ k := by
  have unit : (0 : ℚ) < 10 ^ k := zpow_pos (by norm_num) k
  have other : (0 : ℚ) < (scale 1 k).2 := by exact_mod_cast scale_pos 1 k
  have dens : (0 : ℚ) < den := by exact_mod_cast whole
  have scaled : ((scale 1 k).1 : ℚ) = 10 ^ k * (scale 1 k).2 := by simpa using scale_eq 1 k
  have step : 0 < den * (scale 1 k).1 := by
    have cast : (0 : ℚ) < (den * (scale 1 k).1 : Nat) := by
      rw [Nat.cast_mul, scaled]
      positivity
    exact_mod_cast cast
  have floor := Nat.div_mul_le_self (num * (scale 1 k).2) (den * (scale 1 k).1)
  have next := Nat.lt_div_mul_add step (a := num * (scale 1 k).2)
  generalize num * (scale 1 k).2 / (den * (scale 1 k).1) = quotient at floor next
  have floorCast : (quotient * (den * (scale 1 k).1) : ℚ) ≤ num * (scale 1 k).2 := by exact_mod_cast floor
  have nextCast : (num * (scale 1 k).2 : ℚ) < quotient * (den * (scale 1 k).1) + den * (scale 1 k).1 := by exact_mod_cast next
  rw [scaled] at floorCast nextCast
  change (quotient * 10 ^ k : ℚ) ≤ _ ∧ _ < (quotient * 10 ^ k + 10 ^ k : ℚ)
  rw [le_div_iff₀ dens, div_lt_iff₀ dens]
  constructor
  · apply le_of_mul_le_mul_right _ other
    linarith
  · apply lt_of_mul_lt_mul_right _ other.le
    linarith

theorem Interval.withDigits_isSome {i : Interval} {count : Nat} {k : Int} (last : magnitude i.mid i.den - count + 1 = k)
    (held : i.contains ⟨i.mid * (scale 1 k).2 / (i.den * (scale 1 k).1), k⟩ = true) :
    (i.withDigits count).isSome = true := by
  unfold Interval.withDigits
  dsimp only
  rw [last, List.find?_isSome]
  refine ⟨_, ?_, held⟩
  split <;> simp

-- Nine digits come near enough: their unit is less than a quarter of the last place.
theorem withDigits_nine {m : Nat} (e : Int) (positive : 0 < m) (small : m < 2 ^ 24) :
    ((interval Format.single m e).withDigits 9).isSome = true := by
  have place : (0 : ℚ) < 2 ^ e := zpow_pos (by norm_num) e
  have value : (0 : ℚ) < m * 2 ^ e := mul_pos (by exact_mod_cast positive) place
  have mid := interval_mid m e
  have den := interval_den_pos m e
  have start : 0 < (interval Format.single m e).mid := by
    refine Nat.pos_of_ne_zero fun zero => ?_
    rw [zero, Nat.cast_zero, zero_div] at mid
    exact absurd mid value.ne
  obtain ⟨k, last⟩ : ∃ k, magnitude (interval Format.single m e).mid (interval Format.single m e).den - (9 : Nat) + 1 = k :=
    ⟨_, rfl⟩
  have unit : (10 : ℚ) ^ k < 1 / 4 * 2 ^ e := by
    have power := magnitude_le start den
    have bound : (m : ℚ) < 2 ^ 24 := by exact_mod_cast small
    have most : (m : ℚ) * 2 ^ e < 2 ^ 24 * 2 ^ e := mul_lt_mul_of_pos_right bound place
    rw [mid, show magnitude (interval Format.single m e).mid (interval Format.single m e).den = k + 8 by omega,
      zpow_add₀ (by norm_num)] at power
    norm_num at power most
    linarith
  obtain ⟨floor, next⟩ := floor_value (interval Format.single m e).mid den k
  rw [mid] at floor next
  apply Interval.withDigits_isSome last
  apply contains_near positive
  · linarith
  · linarith

theorem shortest_contained {m : Nat} (e : Int) (positive : 0 < m) (small : m < 2 ^ 24) :
    ∃ d, (interval Format.single m e).contains d = true ∧ (shortest m e).value = d.value := by
  obtain ⟨d, found⟩ : ∃ d, (List.range 9).findSome? (fun n => (interval Format.single m e).withDigits (n + 1)) = some d := by
    rw [← Option.isSome_iff_exists, List.findSome?_isSome_iff]
    exact ⟨8, by decide, withDigits_nine e positive small⟩
  obtain ⟨n, _, here⟩ := List.exists_of_findSome?_eq_some found
  refine ⟨d, List.find?_some here, ?_⟩
  unfold shortest
  dsimp only
  rw [found, trim_value]
  rfl

end Decimal

namespace Single

theorem mantissa_lt (n : Nat) : mantissa n < 2 ^ 24 := by
  unfold mantissa
  split <;> omega

theorem mantissa_even (n : Nat) : mantissa n % 2 = n % 2 := by
  unfold mantissa
  split <;> omega

-- The gap below a word is the last place of the word before it.
theorem place_before (n : Nat) :
    (2 : ℚ) ^ place n = 2 * Decimal.gapBelow (mantissa (n + 1)) (place (n + 1)) * 2 ^ place (n + 1) := by
  unfold Decimal.gapBelow
  split
  · rename_i carried
    have down : place n = place (n + 1) - 1 := by
      unfold mantissa place at *
      split at carried <;> omega
    rw [down, zpow_sub_one₀ (by norm_num)]
    ring
  · rename_i inside
    have same : place n = place (n + 1) := by
      unfold mantissa place at *
      split at inside <;> omega
    rw [same]
    ring

theorem shortest_isNearest {w : Single} (finite : w.bits.toNat < 0x7f800000) (nonzero : 0 < mantissa w.bits.toNat) :
    w.IsNearest (Decimal.shortest (mantissa w.bits.toNat) (place w.bits.toNat)).value := by
  obtain ⟨d, held, same⟩ := Decimal.shortest_contained (place w.bits.toNat) nonzero (mantissa_lt _)
  rw [Decimal.Interval.contains_iff (Decimal.interval_den_pos _ _), Decimal.interval_low _ _ nonzero,
    Decimal.interval_high] at held
  have closed : (Decimal.interval Format.single (mantissa w.bits.toNat) (place w.bits.toNat)).closed = true ↔
      w.bits.toNat % 2 = 0 := by
    rw [← mantissa_even]
    exact decide_eq_true_iff
  rw [closed] at held
  obtain ⟨above, below⟩ := held
  rw [same]
  apply IsNearest.of_halfway finite
  · intro n next
    have low : measure n + measure w.bits.toNat = 2 * ((mantissa w.bits.toNat -
        Decimal.gapBelow (mantissa w.bits.toNat) (place w.bits.toNat)) * 2 ^ place w.bits.toNat) := by
      have gap := place_before n
      have step := measure_succ n
      rw [next] at gap step
      have whole : measure w.bits.toNat = mantissa w.bits.toNat * 2 ^ place w.bits.toNat := rfl
      linarith
    rw [low]
    rcases above with less | ⟨even, half⟩
    · exact .inl (by linarith)
    · exact .inr ⟨by linarith, even⟩
  · have high : measure w.bits.toNat + measure (w.bits.toNat + 1) =
        2 * ((mantissa w.bits.toNat + 1 / 2) * 2 ^ place w.bits.toNat) := by
      rw [measure_succ]
      unfold measure
      ring
    rw [high]
    rcases below with less | ⟨even, half⟩
    · exact .inl (by linarith)
    · exact .inr ⟨by linarith, even⟩

end Single
end GridKernel
