import GridKernel.Proofs.Buffer.Words
import Mathlib.Tactic.Ring

namespace GridKernel

namespace Whole

-- The integer nearest to the square root; a root is never half-way between two integers.
def nearestRoot (n : Nat) : Nat := if n.sqrt * n.sqrt + n.sqrt < n then n.sqrt + 1 else n.sqrt

theorem sqrt_le_nearestRoot (n : Nat) : n.sqrt ≤ nearestRoot n := by
  unfold nearestRoot
  split <;> omega

theorem square_lt_of_lt_nearestRoot (n k : Nat) (less : k < nearestRoot n) : k * k < n := by
  unfold nearestRoot at less
  split at less
  · rename_i past
    have square : k * k ≤ n.sqrt * n.sqrt := Nat.mul_self_le_mul_self (by omega)
    omega
  · exact lt_of_lt_of_le (Nat.mul_self_lt_mul_self less) (Nat.sqrt_le n)

theorem ceilRoot_eq (n : Nat) (small : n < 2 ^ 53) : ∃ u, u = 2 ^ (52 - n.sqrt.log2) ∧
    ceilRoot n = (nearestRoot (n * (u * u)) + (u - 1)) / u := by
  have value : Double.nearestNat n = n := by
    unfold Double.nearestNat
    rw [if_pos (by omega)]
  refine ⟨_, rfl, ?_⟩
  unfold ceilRoot nearestRoot
  simp only [value, Nat.shiftLeft_eq, Nat.shiftRight_eq_div_pow, one_mul, Nat.two_mul, pow_add]

-- Up to `2 ^ 50` a step is so fine that a side below the root is more than a step away from it.
theorem fine_steps (n : Nat) (small : n < 2 ^ 50) : 2 * n.sqrt < 2 ^ (52 - n.sqrt.log2) := by
  have root : n.sqrt < 2 ^ 25 := Nat.sqrt_lt.mpr (by omega)
  have log : n.sqrt.log2 ≤ 24 := by
    by_cases zero : n.sqrt = 0
    · rw [zero]
      decide
    · have bound := (Nat.log2_lt zero).mpr root
      omega
  calc 2 * n.sqrt < 2 ^ 28 := by omega
    _ ≤ 2 ^ (52 - n.sqrt.log2) := Nat.pow_le_pow_right (by omega) (by omega)

theorem le_square_of_reached {n u w : Nat} (fine : 2 * n.sqrt < u) (reached : (n * (u * u)).sqrt ≤ w * u) :
    n ≤ w * w := by
  by_contra short
  have shorter : w ≤ n.sqrt := Nat.le_sqrt.mpr (by omega)
  have above : n * (u * u) < (w * u + 1) * (w * u + 1) :=
    lt_of_lt_of_le (Nat.lt_succ_sqrt _) (Nat.mul_self_le_mul_self (Nat.succ_le_succ reached))
  have room : (w * w + 1) * (u * u) ≤ n * (u * u) := Nat.mul_le_mul_right _ (by omega)
  have steps : u * u ≤ 2 * w * u := by
    have first : (w * u + 1) * (w * u + 1) = w * w * (u * u) + 2 * w * u + 1 := by ring
    have second : (w * w + 1) * (u * u) = w * w * (u * u) + u * u := by ring
    omega
  have wide : u ≤ 2 * w := Nat.le_of_mul_le_mul_right steps (by omega)
  omega

theorem ceilRoot_bounds (n : Nat) (positive : 0 < n) (small : n < 2 ^ 50) :
    n ≤ ceilRoot n * ceilRoot n ∧ (ceilRoot n - 1) * (ceilRoot n - 1) < n := by
  have fine := fine_steps n small
  have some := ceilRoot_pos n positive
  obtain ⟨u, rfl, root⟩ := ceilRoot_eq n (by omega)
  generalize 2 ^ (52 - n.sqrt.log2) = u at fine root
  generalize ceilRoot n = w at some root ⊢
  have nearest := sqrt_le_nearestRoot (n * (u * u))
  have inside := square_lt_of_lt_nearestRoot (n * (u * u)) ((w - 1) * u)
  generalize nearestRoot (n * (u * u)) = r at root nearest inside
  have upper : r ≤ w * u := by
    have bound := Nat.lt_mul_div_succ (r + (u - 1)) (show 0 < u by omega)
    rw [← root, Nat.mul_add, Nat.mul_comm u w] at bound
    omega
  have lower : (w - 1) * u < r := by
    have bound := Nat.div_mul_le_self (r + (u - 1)) u
    rw [← root] at bound
    have split : w * u = (w - 1) * u + u := by rw [← Nat.succ_mul, Nat.succ_eq_add_one, Nat.sub_add_cancel some]
    omega
  refine ⟨le_square_of_reached fine (nearest.trans upper), ?_⟩
  have scaled : (w - 1) * (w - 1) * (u * u) < n * (u * u) := by
    calc (w - 1) * (w - 1) * (u * u) = (w - 1) * u * ((w - 1) * u) := by ring
      _ < n * (u * u) := inside lower
  exact Nat.lt_of_mul_lt_mul_right scaled

end Whole

namespace Texture

theorem ofElements_ok (count : Nat) (positive : 0 < count) (small : count ≤ maxTextureSide * maxTextureSide) :
    ∃ texture, ofElements count = .ok texture := by
  have limit : maxTextureSide = 2 ^ 14 := rfl
  rw [limit] at small
  obtain ⟨enough, least⟩ := Whole.ceilRoot_bounds count positive (by omega)
  have some := Whole.ceilRoot_pos count positive
  unfold ofElements
  rw [if_neg (by omega), limit]
  dsimp only
  generalize Whole.ceilRoot count = width at enough least some ⊢
  have narrow : width ≤ 2 ^ 14 := by
    by_contra wide
    have square : 2 ^ 14 * 2 ^ 14 ≤ (width - 1) * (width - 1) := Nat.mul_le_mul (by omega) (by omega)
    omega
  have low : (count + width - 1) / width ≤ 2 ^ 14 := by
    have rows : count ≤ 2 ^ 14 * width := enough.trans (Nat.mul_le_mul_right width narrow)
    rw [Nat.div_le_iff_le_mul_add_pred some]
    omega
  rw [if_neg (by omega)]
  exact ⟨_, rfl⟩

theorem sides_le {count : Nat} {t : Texture} (laid : ofElements count = .ok t) :
    t.width ≤ maxTextureSide ∧ t.height ≤ maxTextureSide := by
  unfold ofElements at laid
  split at laid
  · cases laid
  · dsimp only at laid
    split at laid
    · cases laid
    · rename_i within
      cases laid
      simp only [not_or, not_lt] at within
      exact within

theorem le_limit {count : Nat} {t : Texture} (laid : ofElements count = .ok t) : count ≤ 2 ^ 28 := by
  have room := le_texels count t laid
  have sides := sides_le laid
  calc count ≤ t.width * t.height := room
    _ ≤ 2 ^ 14 * 2 ^ 14 := Nat.mul_le_mul sides.1 sides.2

theorem pos_of_laid {count : Nat} {t : Texture} (laid : ofElements count = .ok t) : 0 < count := by
  unfold ofElements at laid
  split at laid
  · cases laid
  · omega

end Texture

end GridKernel
