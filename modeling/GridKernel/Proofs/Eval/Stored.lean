import GridKernel.Proofs.Eval.Views
import Mathlib.Algebra.BigOperators.Ring.List

namespace GridKernel

namespace Tensor

variable {shape : List Nat} {data : Elements} {t : Tensor}

theorem ofShape_shaped (made : ofShape shape data = .ok t) : t.Shaped := by
  obtain ⟨rfl, _⟩ := ofShape_eq_ok.mp made
  exact made

theorem ofShape_overflow_iff :
    ofShape shape data = .error .overflow ↔ (1 ≤ shape.length ∧ shape.length ≤ 3) ∧ ¬ Countable shape := by
  constructor
  · intro lost
    unfold ofShape at lost
    split at lost
    · cases lost
    · rename_i ranked
      refine ⟨by omega, ?_⟩
      intro countable
      rw [elementCount_counted countable] at lost
      change (if _ then _ else _) = _ at lost
      split at lost <;> cases lost
  · rintro ⟨ranked, beyond⟩
    exact ofShape_lost ranked beyond

theorem axisProduct_pos (positive : 0 ∉ shape) : 0 < axisProduct shape := by
  rw [axisProduct, ← List.prod_eq_foldl]
  exact Nat.pos_of_ne_zero (List.prod_ne_zero positive)

-- Without a zero axis, an array of any length that exists is made exactly if its axes count it.
theorem ofShape_ok_iff (positive : 0 ∉ shape) (small : data.size < sizeRange) :
    (∃ t, ofShape shape data = .ok t) ↔ (1 ≤ shape.length ∧ shape.length ≤ 3) ∧ axisProduct shape = data.size := by
  constructor
  · rintro ⟨t, made⟩
    obtain ⟨_, ranked, _, full⟩ := ofShape_eq_ok.mp made
    exact ⟨ranked, full⟩
  · rintro ⟨ranked, full⟩
    exact ⟨_, ofShape_counted ranked (countable_of_pos (axisProduct_pos positive) (full ▸ small)) full⟩

theorem ofElements_shaped (small : data.size < sizeRange) : (ofElements data).Shaped := by
  refine ofShape_counted ⟨le_rfl, by simp [ofElements]⟩ ?_ (by simp [ofElements, axisProduct])
  rintro front within
  rcases List.prefix_cons_iff.mp within with rfl | ⟨rest, rfl, last⟩
  · decide
  · rw [List.prefix_nil.mp last]
    simpa [axisProduct] using small

theorem ofRows_shaped {α : Type} {pack : Array α → Elements} {rows : List (Array α)} (made : ofRows pack rows = .ok t) :
    t.Shaped := by
  unfold ofRows at made
  dsimp only at made
  split at made
  · cases made
  · exact ofShape_shaped made

theorem Shaped.sizes_le (shaped : t.Shaped) {bound : Nat} (some : 1 ≤ bound) (small : ∀ a ∈ t.shape, a ≤ bound) :
    (View.ofTensor t).sizes.z ≤ bound ∧ (View.ofTensor t).sizes.y ≤ bound ∧ (View.ofTensor t).sizes.x ≤ bound := by
  have each : ∀ a ∈ paddedShape t.shape, a ≤ bound := by
    intro a member
    rcases List.mem_append.mp member with pad | axis
    · rw [(List.mem_replicate.mp pad).2]
      exact some
    · exact small a (List.mem_of_mem_take axis)
  rw [paddedShape_sizes (t.shaped_parts shaped).1.2] at each
  exact ⟨each _ (by simp), each _ (by simp), each _ (by simp)⟩

end Tensor

-- An array is made exactly if its axes can be counted from the outermost on and count its elements, and where a product
-- on the way is no size there is no answer. Without a zero axis the whole product alone decides. Every array that is made
-- has an element at each of its coordinates, and a read that passes its checks finds it; up to `2 ^ 53` all reads within
-- the array do.
theorem arrays_store_their_coordinates (shape : List Nat) (data : Elements) :
    (∀ t, Tensor.ofShape shape data = .ok t ↔ t = ⟨shape, data⟩ ∧ (1 ≤ shape.length ∧ shape.length ≤ 3) ∧
      (∀ front, front <+: shape → axisProduct front < sizeRange) ∧ axisProduct shape = data.size) ∧
    (Tensor.ofShape shape data = .error .overflow ↔
      (1 ≤ shape.length ∧ shape.length ≤ 3) ∧ ∃ front, front <+: shape ∧ sizeRange ≤ axisProduct front) ∧
    (0 ∉ shape → data.size < sizeRange →
      ((∃ t, Tensor.ofShape shape data = .ok t) ↔
        (1 ≤ shape.length ∧ shape.length ≤ 3) ∧ axisProduct shape = data.size)) ∧
    ∀ t : Tensor,
      (Tensor.ofShape shape data = .ok t ∨ (data.size < sizeRange ∧ t = Tensor.ofElements data) ∨
        ∃ (α : Type) (pack : Array α → Elements) (rows : List (Array α)), Tensor.ofRows pack rows = .ok t) →
      (∀ c : Coords, c.Inside (View.ofTensor t).sizes →
        (View.ofTensor t).address c.z c.y c.x = .ok ((View.ofTensor t).position c) ∧
        ∃ v, t.data.get? ((View.ofTensor t).position c) = some v) ∧
      (∀ indices c, 0 < t.size → (View.ofTensor t).arrives? indices = some c →
        View.Names indices c ∧ c.Inside (View.ofTensor t).sizes) ∧
      (∀ indices c, (∀ a ∈ t.shape, a ≤ 2 ^ 53) → View.Names indices c → c.Inside (View.ofTensor t).sizes →
        (View.ofTensor t).arrives? indices = some c) ∧
      ∀ indices c, c.Inside (View.ofTensor t).sizes → (View.ofTensor t).arrives? indices = some c →
        ∃ v, t.data.get? ((View.ofTensor t).position c) = some v ∧ (View.ofTensor t).load indices = .ok v := by
  refine ⟨fun _ => Tensor.ofShape_eq_ok, ?_, Tensor.ofShape_ok_iff, ?_⟩
  · rw [Tensor.ofShape_overflow_iff]
    simp only [Countable, not_forall, not_lt, exists_prop]
  · intro t made
    have shaped : t.Shaped := by
      rcases made with made | ⟨small, rfl⟩ | ⟨α, pack, rows, made⟩
      · exact Tensor.ofShape_shaped made
      · exact Tensor.ofElements_shaped small
      · exact Tensor.ofRows_shaped made
    refine ⟨?_, ?_, ?_, ?_⟩
    · intro c inside
      exact ⟨shaped.address_position inside, shaped.stored inside⟩
    · intro indices c filled arrives
      exact View.arrives?_inside (shaped.inside_zero filled) arrives
    · intro indices c small names inside
      exact View.arrives?_of_names (shaped.sizes_le (by decide) small) names inside
    · intro indices c inside arrives
      exact shaped.load_stored inside arrives

theorem six_elements_in_two_rows : ∃ t, Tensor.ofShape [2, 3] (.i32 #[1, 2, 3, 4, 5, 6]) = .ok t ∧
    Coords.Inside ⟨2, 1, 0⟩ (View.ofTensor t).sizes ∧
    ∃ v, t.data.get? 5 = some v ∧ (View.ofTensor t).load [ofCoordinate 1, ofCoordinate 2] = .ok v := by
  obtain ⟨_, _, counted, reads⟩ := arrays_store_their_coordinates [2, 3] (.i32 #[1, 2, 3, 4, 5, 6])
  obtain ⟨t, built⟩ := (counted (by decide) (by decide)).mpr (by decide)
  obtain ⟨_, _, arrive, load⟩ := reads t (.inl built)
  obtain ⟨rfl, _⟩ := Tensor.ofShape_eq_ok.mp built
  have inside : Coords.Inside ⟨2, 1, 0⟩ (View.ofTensor ⟨[2, 3], .i32 #[1, 2, 3, 4, 5, 6]⟩).sizes := by
    unfold Coords.Inside
    decide
  have arrives := arrive [ofCoordinate 1, ofCoordinate 2] ⟨2, 1, 0⟩ (by decide)
    (.two (floorInt?_ofCoordinate (by decide)) (floorInt?_ofCoordinate (by decide))) inside
  exact ⟨_, built, inside, load _ _ inside arrives⟩

-- The axes multiply to nothing and there is nothing to store, but the first two pass the range on the way.
theorem empty_shape_is_not_counted :
    axisProduct [9223372036854775808, 4, 0] = (Elements.f32 #[]).size ∧
      Tensor.ofShape [9223372036854775808, 4, 0] (.f32 #[]) = .error .overflow := by
  refine ⟨by decide, Tensor.ofShape_lost (by decide) ?_⟩
  intro countable
  exact absurd (countable [9223372036854775808, 4] ⟨[0], rfl⟩) (by decide)

end GridKernel
