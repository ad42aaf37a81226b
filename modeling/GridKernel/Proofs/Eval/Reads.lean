import GridKernel.Proofs.Eval.Stored
import Mathlib.Data.Rat.Floor
import Mathlib.Data.Set.Function

namespace GridKernel

def Decoded.number? : Decoded → Option ℚ
  | .finite negative m e => some (if negative then -(m * 2 ^ e) else m * 2 ^ e)
  | _ => none

section Floors

theorem floor_shifted (m s : Nat) : ⌊(m : ℚ) * 2 ^ (-(s : Int))⌋ = ((m >>> s : Nat) : Int) := by
  have quotient : (m : ℚ) * 2 ^ (-(s : Int)) = ((m : Int) : ℚ) / ((2 ^ s : Nat) : ℚ) := by
    rw [zpow_neg, zpow_natCast, div_eq_mul_inv]
    push_cast
    rfl
  rw [quotient, Rat.floor_intCast_div_natCast, Nat.shiftRight_eq_div_pow]
  rfl

theorem floor_neg_shifted (m s : Nat) :
    ⌊-((m : ℚ) * 2 ^ (-(s : Int)))⌋ = -(((m + ((1 <<< s) - 1)) >>> s : Nat) : Int) := by
  have quotient : -((m : ℚ) * 2 ^ (-(s : Int))) = ((-(m : Int) : Int) : ℚ) / ((2 ^ s : Nat) : ℚ) := by
    rw [zpow_neg, zpow_natCast, div_eq_mul_inv]
    push_cast
    ring
  rw [quotient, Rat.floor_intCast_div_natCast, neg_ediv_pow, Nat.shiftRight_eq_div_pow, Nat.one_shiftLeft]

theorem whole_shifted (m k : Nat) : (m : ℚ) * 2 ^ (k : Int) = ((m <<< k : Nat) : Int) := by
  rw [zpow_natCast, Nat.shiftLeft_eq]
  push_cast
  rfl

theorem Whole.floorInt?_eq (x : Float) : floorInt? x = (Double.ofFloat x).decode.number?.map Int.floor := by
  unfold floorInt?
  cases (Double.ofFloat x).decode with
  | nan => rfl
  | infinite negative => rfl
  | finite negative m e =>
    dsimp only [Decoded.number?, Option.map_some]
    by_cases whole : 0 ≤ e
    · obtain ⟨k, rfl⟩ := Int.eq_ofNat_of_zero_le whole
      rw [if_pos whole, Int.toNat_natCast, whole_shifted]
      cases negative with
      | false => rw [if_neg Bool.false_ne_true, if_neg Bool.false_ne_true, Int.floor_intCast]
      | true => rw [if_pos rfl, if_pos rfl, ← Int.cast_neg, Int.floor_intCast]
    · obtain ⟨s, rfl⟩ : ∃ s : Nat, e = -(s : Int) := ⟨(-e).toNat, by omega⟩
      rw [if_neg whole, Int.neg_neg, Int.toNat_natCast]
      cases negative with
      | false => rw [if_neg Bool.false_ne_true, if_neg Bool.false_ne_true, floor_shifted]
      | true => rw [if_pos rfl, if_pos rfl, floor_neg_shifted]

end Floors

theorem row_split {k w j : Nat} (inside : j < w) : (k * w + j) / w = k ∧ (k * w + j) % w = j := by
  rw [Nat.mul_comm, Nat.mul_add_div (by omega), Nat.mul_add_mod, Nat.div_eq_of_lt inside, Nat.mod_eq_of_lt inside]
  exact ⟨rfl, rfl⟩

namespace View

variable {v : View} {c d : Coords}

-- The innermost coordinate is the remainder and the next one that of the quotient, so the position gives all three back.
theorem coords_position (inside : c.Inside v.sizes) :
    (⟨v.position c % v.sizes.x, v.position c / v.sizes.x % v.sizes.y, v.position c / v.sizes.x / v.sizes.y⟩ : Coords) = c := by
  obtain ⟨_, y, x⟩ := inside
  unfold position
  obtain ⟨row, column⟩ := row_split (k := c.z * v.sizes.y + c.y) x
  obtain ⟨layer, along⟩ := row_split (k := c.z) y
  rw [column, row, along, layer]

theorem position_inj (left : c.Inside v.sizes) (right : d.Inside v.sizes) (same : v.position c = v.position d) : c = d := by
  rw [← coords_position left, ← coords_position right, same]

theorem position_onto {i : Nat} (inside : i < v.sizes.z * v.sizes.y * v.sizes.x) : ∃ c, c.Inside v.sizes ∧ v.position c = i := by
  have wide : 0 < v.sizes.x := Nat.pos_of_ne_zero (by rintro none; simp [none] at inside)
  have high : 0 < v.sizes.y := Nat.pos_of_ne_zero (by rintro none; simp [none] at inside)
  have rows : i / v.sizes.x < v.sizes.y * v.sizes.z := Nat.div_lt_of_lt_mul (by
    rwa [Nat.mul_comm v.sizes.y, Nat.mul_comm])
  refine ⟨⟨i % v.sizes.x, i / v.sizes.x % v.sizes.y, i / v.sizes.x / v.sizes.y⟩,
    ⟨Nat.div_lt_of_lt_mul rows, Nat.mod_lt _ high, Nat.mod_lt _ wide⟩, ?_⟩
  change (i / v.sizes.x / v.sizes.y * v.sizes.y + i / v.sizes.x % v.sizes.y) * v.sizes.x + i % v.sizes.x = i
  rw [Nat.div_add_mod', Nat.div_add_mod']

end View

namespace Tensor.Shaped

variable {t : Tensor} (shaped : t.Shaped)

include shaped

theorem position_bijOn :
    Set.BijOn (View.ofTensor t).position {c | c.Inside (View.ofTensor t).sizes} {i | i < t.size} := by
  refine ⟨fun c inside => shaped.position_lt inside, fun c left d right same => View.position_inj left right same, ?_⟩
  intro i inside
  exact View.position_onto (lt_of_lt_of_eq inside shaped.volume.symm)

-- What stands behind the last element is not read, wherever the indices lead.
theorem load_behind (filled : 0 < t.size) {words : Array Single} (stored : t.data = .f32 words) (padding : Array Single)
    (indices : List Float) :
    View.load ⟨.f32 (words ++ padding), (View.ofTensor t).sizes⟩ indices = (View.ofTensor t).load indices := by
  rw [View.load_eq, View.load_eq]
  have same : View.arrives? ⟨.f32 (words ++ padding), (View.ofTensor t).sizes⟩ indices = (View.ofTensor t).arrives? indices := rfl
  rw [same]
  cases arrives : (View.ofTensor t).arrives? indices with
  | none => rfl
  | some c =>
    have inside := (View.arrives?_inside (shaped.inside_zero filled) arrives).2
    have address := shaped.address_position inside
    have within : (View.ofTensor t).position c < words.size := by
      have below := shaped.position_lt inside
      rwa [size, stored] at below
    have elements : (View.ofTensor t).elements = .f32 words := stored
    change View.elementAt ⟨.f32 (words ++ padding), (View.ofTensor t).sizes⟩ c.z c.y c.x = _
    rw [View.elementAt_eq (v := ⟨.f32 (words ++ padding), (View.ofTensor t).sizes⟩) address]
    change _ = (View.ofTensor t).elementAt c.z c.y c.x
    rw [View.elementAt_eq address, elements]
    simp only [Elements.get?]
    exact congrArg (fun w : Option Single => Except.ok ((w.map Single.toFloat).getD 0.0)) (Array.getElem?_append_left within)

theorem load_at (small : ∀ a ∈ t.shape, a ≤ 2 ^ 53) {indices : List Float} {c : Coords} (names : View.Names indices c)
    (inside : c.Inside (View.ofTensor t).sizes) :
    ∃ v, t.data.get? ((View.ofTensor t).position c) = some v ∧ (View.ofTensor t).load indices = .ok v :=
  shaped.load_stored inside (View.arrives?_of_names (shaped.sizes_le (by decide) small) names inside)

theorem load_outside (filled : 0 < t.size) {indices : List Float}
    (outside : ∀ c, View.Names indices c → ¬ c.Inside (View.ofTensor t).sizes) : (View.ofTensor t).load indices = .ok 0.0 := by
  rw [View.load_eq]
  cases arrives : (View.ofTensor t).arrives? indices with
  | none => rfl
  | some c =>
    obtain ⟨names, inside⟩ := View.arrives?_inside (shaped.inside_zero filled) arrives
    exact absurd inside (outside c names)

theorem names_inside (small : ∀ a ∈ t.shape, a ≤ 2 ^ 53) {c : Coords} (inside : c.Inside (View.ofTensor t).sizes) :
    View.Names [ofCoordinate c.z, ofCoordinate c.y, ofCoordinate c.x] c := by
  obtain ⟨sz, sy, sx⟩ := shaped.sizes_le (by decide) small
  obtain ⟨z, y, x⟩ := inside
  exact .three [] (floorInt?_ofCoordinate (z.trans_le sz)) (floorInt?_ofCoordinate (y.trans_le sy))
    (floorInt?_ofCoordinate (x.trans_le sx))

end Tensor.Shaped

-- A read gives the element at the floors of its indices, counted from the innermost axis, and zero if one of them lies
-- outside. The positions of an array are its elements, each once, and the words of a padded buffer read like the array.
theorem reads_are_row_major (shape : List Nat) (data : Elements) (t : Tensor) (made : Tensor.ofShape shape data = .ok t)
    (filled : 0 < t.size) (small : ∀ a ∈ shape, a ≤ 2 ^ 53) :
    (∀ index, Whole.floorInt? index = (Double.ofFloat index).decode.number?.map Int.floor) ∧
    (∀ indices c, View.Names indices c → c.Inside (View.ofTensor t).sizes →
      ∃ v, t.data.get? ((View.ofTensor t).position c) = some v ∧ (View.ofTensor t).load indices = .ok v) ∧
    (∀ indices, (∀ c, View.Names indices c → ¬ c.Inside (View.ofTensor t).sizes) →
      (View.ofTensor t).load indices = .ok 0.0) ∧
    Set.BijOn (View.ofTensor t).position {c | c.Inside (View.ofTensor t).sizes} {i | i < t.size} ∧
    (∀ c : Coords, c.Inside (View.ofTensor t).sizes →
      View.Names [ofCoordinate c.z, ofCoordinate c.y, ofCoordinate c.x] c) ∧
    ∀ words padding, t.data = .f32 words → ∀ indices,
      View.load ⟨.f32 (words ++ padding), (View.ofTensor t).sizes⟩ indices = (View.ofTensor t).load indices := by
  have shaped := Tensor.ofShape_shaped made
  obtain ⟨rfl, _⟩ := Tensor.ofShape_eq_ok.mp made
  refine ⟨Whole.floorInt?_eq, ?_, ?_, shaped.position_bijOn, ?_, ?_⟩
  · intro indices c names inside
    exact shaped.load_at small names inside
  · intro indices outside
    exact shaped.load_outside filled outside
  · intro c inside
    exact shaped.names_inside small inside
  · intro words padding stored indices
    exact shaped.load_behind filled stored padding indices

def twoRows : Array Single := #[⟨0x3f800000⟩, ⟨0x40000000⟩, ⟨0x40400000⟩, ⟨0x40800000⟩, ⟨0x40a00000⟩, ⟨0x40c00000⟩]

-- One and a half names the second row and two and three quarters its last element; half below zero names nothing, and
-- the word behind the six is not found.
theorem twoRows_read :
    ∃ t, Tensor.ofShape [2, 3] (.f32 twoRows) = .ok t ∧ 0 < t.size ∧ (∀ a ∈ [2, 3], a ≤ 2 ^ 53) ∧
      (∃ v, t.data.get? 5 = some v ∧
        (View.ofTensor t).load [Double.toFloat ⟨0x3ff8000000000000⟩, Double.toFloat ⟨0x4006000000000000⟩] = .ok v) ∧
      (View.ofTensor t).load [Double.toFloat ⟨0xbfe0000000000000⟩] = .ok 0.0 ∧
      View.load ⟨.f32 (twoRows ++ #[⟨0x42280000⟩]), (View.ofTensor t).sizes⟩ [ofCoordinate 2, 0.0] =
        (View.ofTensor t).load [ofCoordinate 2, 0.0] := by
  have made : Tensor.ofShape [2, 3] (.f32 twoRows) = .ok ⟨[2, 3], .f32 twoRows⟩ := rfl
  obtain ⟨_, load, outside, _, _, behind⟩ := reads_are_row_major [2, 3] (.f32 twoRows) _ made (by decide) (by decide)
  refine ⟨_, made, by decide, by decide, ?_, outside _ ?_, behind _ _ rfl _⟩
  · have row : Whole.floorInt? (Double.toFloat ⟨0x3ff8000000000000⟩) = some ((1 : Nat) : Int) := by decide
    have column : Whole.floorInt? (Double.toFloat ⟨0x4006000000000000⟩) = some ((2 : Nat) : Int) := by decide
    exact load _ ⟨2, 1, 0⟩ (.two row column) (by unfold Coords.Inside; decide)
  · intro c names
    have below : Whole.floorInt? (Double.toFloat ⟨0xbfe0000000000000⟩) = some (-1) := by decide
    cases names with
    | one fx =>
      rw [below, Option.some.injEq] at fx
      omega

end GridKernel
