import GridKernel.Grid
import GridKernel.Proofs.Outcome
import GridKernel.Tensor
import Mathlib.Algebra.Order.BigOperators.Group.List

namespace GridKernel

section
variable {ε : Type} {overflow : ε} {n k : Nat}

theorem sized_eq (small : n < sizeRange) : sized overflow n = .ok n := if_pos small

theorem sized_eq_ok (ran : sized overflow n = .ok k) : n < sizeRange ∧ k = n := by
  unfold sized at ran
  split at ran
  · rename_i small
    cases ran
    exact ⟨small, rfl⟩
  · cases ran

theorem sized_eq_error {e : ε} (lost : sized overflow n = .error e) : e = overflow := by
  unfold sized at lost
  split at lost <;> cases lost
  rfl

end

-- Every product from the outermost axis on is a size word.
def Countable (shape : List Nat) : Prop := ∀ front, front <+: shape → axisProduct front < sizeRange

theorem axisProduct_cons (axis : Nat) (shape : List Nat) : axisProduct (axis :: shape) = axis * axisProduct shape := by
  simp only [axisProduct, ← List.prod_eq_foldl, List.prod_cons]

theorem foldlM_counted (shape : List Nat) (start : Nat) (n : Nat) :
    shape.foldlM (fun count axis => sized KernelError.overflow (count * axis)) start = .ok n ↔
      (∀ front, front <+: shape → front ≠ [] → start * axisProduct front < sizeRange) ∧ n = start * axisProduct shape := by
  induction shape generalizing start with
  | nil =>
    constructor
    · intro ran
      cases ran
      refine ⟨?_, by simp [axisProduct]⟩
      intro front within some
      exact absurd (List.prefix_nil.mp within) some
    · rintro ⟨_, rfl⟩
      simp [axisProduct, pure, Except.pure]
  | cons axis shape ih =>
    rw [List.foldlM_cons]
    constructor
    · intro ran
      obtain ⟨next, first, rest⟩ := bind_eq_ok ran
      obtain ⟨small, rfl⟩ := sized_eq_ok first
      obtain ⟨later, rfl⟩ := (ih _).mp rest
      refine ⟨?_, by rw [axisProduct_cons, Nat.mul_assoc]⟩
      intro front within some
      obtain rfl | ⟨other, rfl, inner⟩ := List.prefix_cons_iff.mp within
      · exact absurd rfl some
      · rw [axisProduct_cons, ← Nat.mul_assoc]
        by_cases last : other = []
        · simpa [last, axisProduct] using small
        · exact later other inner last
    · rintro ⟨small, rfl⟩
      have first : start * axis < sizeRange := by
        simpa [axisProduct] using small [axis] (List.prefix_cons_iff.mpr (.inr ⟨[], rfl, List.nil_prefix⟩)) (by simp)
      rw [sized_eq first]
      refine (ih _).mpr ⟨?_, by rw [axisProduct_cons, Nat.mul_assoc]⟩
      intro front within some
      rw [Nat.mul_assoc, ← axisProduct_cons]
      exact small (axis :: front) (List.prefix_cons_iff.mpr (.inr ⟨front, rfl, within⟩)) (by simp)

theorem elementCount_eq_ok {shape : List Nat} {n : Nat} :
    elementCount shape = .ok n ↔ Countable shape ∧ n = axisProduct shape := by
  unfold elementCount
  rw [foldlM_counted, Nat.one_mul]
  refine and_congr_left fun _ => ⟨?_, ?_⟩
  · intro small front within
    by_cases empty : front = []
    · rw [empty]
      decide
    · simpa using small front within empty
  · intro small front within _
    simpa using small front within

theorem elementCount_counted {shape : List Nat} (countable : Countable shape) :
    elementCount shape = .ok (axisProduct shape) :=
  elementCount_eq_ok.mpr ⟨countable, rfl⟩

theorem elementCount_eq_error {shape : List Nat} {e : KernelError} (lost : elementCount shape = .error e) :
    e = .overflow := by
  obtain ⟨axis, _, count, refused⟩ := foldlM_eq_error lost
  exact sized_eq_error refused

theorem elementCount_lost {shape : List Nat} (beyond : ¬ Countable shape) : elementCount shape = .error .overflow := by
  cases counted : elementCount shape with
  | ok n => exact absurd (elementCount_eq_ok.mp counted).1 beyond
  | error e => rw [elementCount_eq_error counted]

-- Without a zero axis the last product is the largest.
theorem countable_of_pos {shape : List Nat} (positive : 0 < axisProduct shape) (small : axisProduct shape < sizeRange) :
    Countable shape := by
  rintro front ⟨rest, rfl⟩
  simp only [axisProduct, ← List.prod_eq_foldl, List.prod_append] at positive small ⊢
  exact lt_of_le_of_lt (Nat.le_mul_of_pos_right _ (Nat.pos_of_mul_pos_left positive)) small

namespace Tensor

-- An array is made exactly where its axes can be counted and count its elements.
theorem ofShape_eq_ok {shape : List Nat} {data : Elements} {t : Tensor} :
    ofShape shape data = .ok t ↔
      t = ⟨shape, data⟩ ∧ (1 ≤ shape.length ∧ shape.length ≤ 3) ∧ Countable shape ∧ axisProduct shape = data.size := by
  unfold ofShape
  constructor
  · intro made
    split at made
    · cases made
    · obtain ⟨count, counted, made⟩ := bind_eq_ok made
      obtain ⟨countable, rfl⟩ := elementCount_eq_ok.mp counted
      split at made
      · cases made
      · rename_i ranked full
        cases made
        exact ⟨rfl, by omega, countable, not_not.mp full⟩
  · rintro ⟨rfl, ranked, countable, full⟩
    rw [if_neg (by omega), elementCount_counted countable]
    exact if_neg (not_not.mpr full)

theorem ofShape_counted {shape : List Nat} {data : Elements} (ranked : 1 ≤ shape.length ∧ shape.length ≤ 3)
    (countable : Countable shape) (full : axisProduct shape = data.size) : ofShape shape data = .ok ⟨shape, data⟩ :=
  ofShape_eq_ok.mpr ⟨rfl, ranked, countable, full⟩

theorem ofShape_lost {shape : List Nat} {data : Elements} (ranked : 1 ≤ shape.length ∧ shape.length ≤ 3)
    (beyond : ¬ Countable shape) : ofShape shape data = .error .overflow := by
  unfold ofShape
  rw [if_neg (by omega), elementCount_lost beyond]
  rfl

theorem ofShape_eq_error {shape : List Nat} {data : Elements} {e : KernelError} (refused : ofShape shape data = .error e) :
    e = .overflow ∨ ∃ cause, e = .invalidArgument cause := by
  unfold ofShape at refused
  split at refused
  · cases refused
    exact .inr ⟨_, rfl⟩
  · rcases bind_eq_error refused with lost | ⟨count, _, refused⟩
    · exact .inl (elementCount_eq_error lost)
    · split at refused <;> cases refused
      exact .inr ⟨_, rfl⟩

def Shaped (t : Tensor) : Prop := ofShape t.shape t.data = .ok t

theorem shaped_parts (t : Tensor) (shaped : t.Shaped) :
    (1 ≤ t.shape.length ∧ t.shape.length ≤ 3) ∧ Countable t.shape ∧ axisProduct t.shape = t.size :=
  (ofShape_eq_ok.mp shaped).2

end Tensor
end GridKernel
