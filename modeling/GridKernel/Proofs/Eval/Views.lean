import GridKernel.Eval.View
import GridKernel.Proofs.Buffer.Words
import GridKernel.Proofs.Number.Floor
import GridKernel.Proofs.Number.Integers

namespace GridKernel

def Coords.Inside (c sizes : Coords) : Prop := c.z < sizes.z ∧ c.y < sizes.y ∧ c.x < sizes.x

section Indices

theorem coordinate?_lt (size k : Nat) (index : Float) (found : View.coordinate? size index = some k) :
    k < Double.nearestNat size := by
  unfold View.coordinate? at found
  split at found
  · split at found
    · cases found
      omega
    · cases found
  · cases found

theorem Whole.floorInt?_held {index : Float} {k : Nat} (floor : Whole.floorInt? index = some (k : Int)) :
    ∃ m e, m < 2 ^ 53 ∧ k = m * 2 ^ e := by
  unfold Whole.floorInt? at floor
  split at floor
  · rename_i negative m e decoded
    have bits := (double_decode_canonical _ _ _ _ decoded).bits
    split at floor
    · rw [Nat.shiftLeft_eq] at floor
      have magnitude := Option.some.inj floor
      refine ⟨m, e.toNat, bits, ?_⟩
      cases negative <;> simp only [if_true, if_false, Bool.false_eq_true] at magnitude <;> omega
    · refine ⟨k, 0, ?_, by rw [pow_zero, Nat.mul_one]⟩
      cases negative with
      | false =>
        rw [← Int.ofNat.inj (Option.some.inj floor)]
        exact lt_of_le_of_lt (Nat.shiftRight_le _ _) bits
      | true =>
        simp only [if_true, Option.some.injEq] at floor
        generalize (m + (1 <<< (-e).toNat - 1)) >>> (-e).toNat = magnitude at floor
        omega
  · cases floor

-- A number that a format holds is not passed by rounding a smaller one to it.
theorem Double.nearestNat_le_of_held {n m e : Nat} (bits : m < 2 ^ 53) (below : n ≤ m * 2 ^ e) :
    nearestNat n ≤ m * 2 ^ e := by
  unfold nearestNat
  split
  · exact below
  · rename_i large
    have low : 2 ^ n.log2 ≤ n := Nat.log2_self_le (by omega)
    have high : n < 2 ^ (n.log2 + 1) := Nat.lt_log2_self
    have long : 53 ≤ n.log2 := (Nat.le_log2 (by omega)).mpr (by omega)
    have deep : n.log2 - 52 ≤ e := by
      by_contra shallow
      have short : m * 2 ^ e < 2 ^ n.log2 := by
        calc m * 2 ^ e < 2 ^ 53 * 2 ^ e := Nat.mul_lt_mul_of_pos_right bits (Nat.two_pow_pos e)
          _ = 2 ^ (53 + e) := (pow_add 2 53 e).symm
          _ ≤ 2 ^ n.log2 := Nat.pow_le_pow_right (by omega) (by omega)
      omega
    obtain ⟨extra, rfl⟩ := Nat.exists_eq_add_of_le deep
    generalize n.log2 - 52 = s at below ⊢
    rw [pow_add, Nat.mul_comm (2 ^ s), ← Nat.mul_assoc] at below ⊢
    generalize m * 2 ^ extra = q at below ⊢
    rw [Nat.shiftLeft_eq]
    refine Nat.mul_le_mul_right _ ?_
    by_cases whole : n / 2 ^ s < q
    · have rounded := (roundShift_bounds n s).2
      omega
    · have same : n = q * 2 ^ s := by
        refine Nat.le_antisymm below ?_
        exact (Nat.le_div_iff_mul_le (Nat.two_pow_pos s)).mp (Nat.not_lt.mp whole)
      rw [same, roundShift_exact]

-- Although the size is rounded, no index passes the check that is not within the axis.
theorem coordinate?_inside {size k : Nat} {index : Float} (found : View.coordinate? size index = some k) :
    Whole.floorInt? index = some (k : Int) ∧ k < size := by
  have below := coordinate?_lt size k index found
  unfold View.coordinate? at found
  split at found
  · rename_i floor whole
    split at found
    · rename_i inside
      cases found
      have back : (floor.toNat : Int) = floor := Int.toNat_of_nonneg inside.1
      rw [back]
      refine ⟨whole, ?_⟩
      rw [← back] at whole
      obtain ⟨m, e, bits, held⟩ := Whole.floorInt?_held whole
      by_contra past
      have rounded := Double.nearestNat_le_of_held bits (held ▸ Nat.not_lt.mp past)
      omega
    · cases found
  · cases found

theorem Double.nearestNat_exact {n : Nat} (small : n ≤ 2 ^ 53) : nearestNat n = n := by
  rcases Nat.lt_or_eq_of_le small with less | rfl
  · exact if_pos less
  · decide

theorem coordinate?_exact {size k : Nat} {index : Float} (small : size ≤ 2 ^ 53)
    (floor : Whole.floorInt? index = some (k : Int)) (inside : k < size) : View.coordinate? size index = some k := by
  unfold View.coordinate?
  rw [floor]
  dsimp only
  rw [Double.nearestNat_exact small, if_pos (by omega), Int.toNat_natCast]

theorem coordinate?_zero (size : Nat) (positive : 0 < size) : View.coordinate? size 0.0 = some 0 := by
  have floor : Whole.floorInt? 0.0 = some 0 := by decide +kernel
  have nearest := Double.nearestNat_pos size positive
  simp [View.coordinate?, floor, nearest]

end Indices

section Elements

theorem axisProduct_padded (shape : List Nat) (z y x : Nat) (ranked : shape.length ≤ 3)
    (padded : paddedShape shape = [z, y, x]) : axisProduct shape = z * y * x := by
  match shape, padded with
  | [], padded =>
    cases padded
    rfl
  | [a], padded =>
    cases padded
    simp [axisProduct]
  | [a, b], padded =>
    cases padded
    simp [axisProduct]
  | [a, b, c], padded =>
    cases padded
    simp [axisProduct]
  | _ :: _ :: _ :: _ :: _, _ =>
    simp only [List.length_cons] at ranked
    omega

theorem row_lt (k z j y : Nat) (first : k < z) (second : j < y) : k * y + j < z * y := by
  calc k * y + j < (k + 1) * y := by rw [Nat.add_one_mul]; omega
    _ ≤ z * y := Nat.mul_le_mul_right _ first

theorem Elements.get?_inside (e : Elements) {i : Nat} (inside : i < e.size) : ∃ v, e.get? i = some v := by
  cases e <;>
  · simp only [Elements.size] at inside
    simp only [Elements.get?, Array.getElem?_eq_getElem inside, Option.map_some]
    exact ⟨_, rfl⟩

end Elements

namespace View

-- The coordinates that indices name: their floors, and zero on the axes without an index.
inductive Names : List Float → Coords → Prop where
  | none : Names [] ⟨0, 0, 0⟩
  | one {ix : Float} {x : Nat} (fx : Whole.floorInt? ix = some (x : Int)) : Names [ix] ⟨x, 0, 0⟩
  | two {iy ix : Float} {y x : Nat} (fy : Whole.floorInt? iy = some (y : Int)) (fx : Whole.floorInt? ix = some (x : Int)) :
      Names [iy, ix] ⟨x, y, 0⟩
  | three {iz iy ix : Float} {z y x : Nat} (rest : List Float) (fz : Whole.floorInt? iz = some (z : Int))
      (fy : Whole.floorInt? iy = some (y : Int)) (fx : Whole.floorInt? ix = some (x : Int)) :
      Names (iz :: iy :: ix :: rest) ⟨x, y, z⟩

def arrives? (v : View) : List Float → Option Coords
  | [] => some ⟨0, 0, 0⟩
  | [ix] => do
    let x ← coordinate? v.sizes.x ix
    some ⟨x, 0, 0⟩
  | [iy, ix] => do
    let y ← coordinate? v.sizes.y iy
    let x ← coordinate? v.sizes.x ix
    some ⟨x, y, 0⟩
  | iz :: iy :: ix :: _ => do
    let z ← coordinate? v.sizes.z iz
    let y ← coordinate? v.sizes.y iy
    let x ← coordinate? v.sizes.x ix
    some ⟨x, y, z⟩

def position (v : View) (c : Coords) : Nat := (c.z * v.sizes.y + c.y) * v.sizes.x + c.x

theorem load_eq (v : View) (indices : List Float) :
    v.load indices = (v.arrives? indices).elim (.ok 0.0) fun c => v.elementAt c.z c.y c.x := by
  rcases indices with _ | ⟨a, _ | ⟨b, _ | ⟨c, rest⟩⟩⟩
  · rfl
  · cases one : coordinate? v.sizes.x a <;> simp [load, arrives?, one]
  · cases one : coordinate? v.sizes.y a <;> cases two : coordinate? v.sizes.x b <;> simp [load, arrives?, one, two]
  · cases one : coordinate? v.sizes.z a <;> cases two : coordinate? v.sizes.y b <;> cases three : coordinate? v.sizes.x c <;>
      simp [load, arrives?, one, two, three]

theorem arrives?_inside {v : View} (filled : Coords.Inside ⟨0, 0, 0⟩ v.sizes) {indices : List Float} {c : Coords}
    (arrives : v.arrives? indices = some c) : Names indices c ∧ c.Inside v.sizes := by
  obtain ⟨pz, py, px⟩ := filled
  rcases indices with _ | ⟨i, _ | ⟨j, _ | ⟨k, rest⟩⟩⟩
  · cases arrives
    exact ⟨.none, pz, py, px⟩
  · simp only [arrives?, Option.bind_eq_bind, Option.bind_eq_some_iff] at arrives
    obtain ⟨x, first, last⟩ := arrives
    cases last
    exact ⟨.one (coordinate?_inside first).1, pz, py, (coordinate?_inside first).2⟩
  · simp only [arrives?, Option.bind_eq_bind, Option.bind_eq_some_iff] at arrives
    obtain ⟨y, first, x, second, last⟩ := arrives
    cases last
    have along := coordinate?_inside first
    have across := coordinate?_inside second
    exact ⟨.two along.1 across.1, pz, along.2, across.2⟩
  · simp only [arrives?, Option.bind_eq_bind, Option.bind_eq_some_iff] at arrives
    obtain ⟨z, first, y, second, x, third, last⟩ := arrives
    cases last
    have deep := coordinate?_inside first
    have along := coordinate?_inside second
    have across := coordinate?_inside third
    exact ⟨.three rest deep.1 along.1 across.1, deep.2, along.2, across.2⟩

-- Sizes up to `2 ^ 53` are numbers, so no index within the array is turned away.
theorem arrives?_of_names {v : View} (small : v.sizes.z ≤ 2 ^ 53 ∧ v.sizes.y ≤ 2 ^ 53 ∧ v.sizes.x ≤ 2 ^ 53)
    {indices : List Float} {c : Coords} (names : Names indices c) (inside : c.Inside v.sizes) : v.arrives? indices = some c := by
  obtain ⟨sz, sy, sx⟩ := small
  obtain ⟨z, y, x⟩ := inside
  cases names with
  | none => rfl
  | one fx => simp [arrives?, coordinate?_exact sx fx x]
  | two fy fx => simp [arrives?, coordinate?_exact sx fx x, coordinate?_exact sy fy y]
  | three rest fz fy fx => simp [arrives?, coordinate?_exact sx fx x, coordinate?_exact sy fy y, coordinate?_exact sz fz z]

theorem arrives?_cases {v : View} {indices : List Float} {c : Coords} (arrives : v.arrives? indices = some c) :
    c.Inside v.sizes ∨ c.z = 0 ∧ c.y < max 1 v.sizes.y ∧ c.x < max 1 v.sizes.x := by
  rcases indices with _ | ⟨i, _ | ⟨j, _ | ⟨k, rest⟩⟩⟩
  · cases arrives
    exact .inr ⟨rfl, by simp, by simp⟩
  · simp only [arrives?, Option.bind_eq_bind, Option.bind_eq_some_iff] at arrives
    obtain ⟨x, first, last⟩ := arrives
    cases last
    exact .inr ⟨rfl, by simp, lt_max_of_lt_right (coordinate?_inside first).2⟩
  · simp only [arrives?, Option.bind_eq_bind, Option.bind_eq_some_iff] at arrives
    obtain ⟨y, first, x, second, last⟩ := arrives
    cases last
    exact .inr ⟨rfl, lt_max_of_lt_right (coordinate?_inside first).2, lt_max_of_lt_right (coordinate?_inside second).2⟩
  · simp only [arrives?, Option.bind_eq_bind, Option.bind_eq_some_iff] at arrives
    obtain ⟨z, first, y, second, x, third, last⟩ := arrives
    cases last
    exact .inl ⟨(coordinate?_inside first).2, (coordinate?_inside second).2, (coordinate?_inside third).2⟩

theorem address_eq {v : View} {c : Coords} (row : c.z * v.sizes.y + c.y < sizeRange) (small : v.position c < sizeRange) :
    v.address c.z c.y c.x = .ok (v.position c) := by
  unfold address
  rw [sized_eq row]
  exact sized_eq small

theorem elementAt_eq {v : View} {c : Coords} {k : Nat} (addressed : v.address c.z c.y c.x = .ok k) :
    v.elementAt c.z c.y c.x = .ok ((v.elements.get? k).getD 0.0) := by
  rw [elementAt, addressed]
  rfl

theorem load_error {v : View} {indices : List Float} {failure : EvalError} (failed : v.load indices = .error failure) :
    failure = .overflow := by
  rw [load_eq] at failed
  cases arrives : v.arrives? indices with
  | none =>
    rw [arrives] at failed
    cases failed
  | some c =>
    rw [arrives] at failed
    rcases bind_eq_error failed with lost | ⟨_, _, last⟩
    · rcases bind_eq_error lost with first | ⟨_, _, second⟩
      · exact sized_eq_error first
      · exact sized_eq_error second
    · cases last

-- Axes without an index are read at zero, so only the axes of one layer count.
def Layered (v : View) : Prop := max 1 v.sizes.y * max 1 v.sizes.x ≤ sizeRange

instance (v : View) : Decidable v.Layered := inferInstanceAs (Decidable (_ ≤ _))

end View

namespace Tensor

variable {t : Tensor}

theorem paddedShape_sizes (ranked : t.shape.length ≤ 3) :
    paddedShape t.shape = [(View.ofTensor t).sizes.z, (View.ofTensor t).sizes.y, (View.ofTensor t).sizes.x] := by
  obtain ⟨shape, data⟩ := t
  rcases shape with _ | ⟨a, _ | ⟨b, _ | ⟨c, _ | ⟨d, more⟩⟩⟩⟩
  · rfl
  · rfl
  · rfl
  · rfl
  · simp only [List.length_cons] at ranked
    omega

namespace Shaped

variable (shaped : t.Shaped)

include shaped

theorem size_lt : t.size < sizeRange := by
  obtain ⟨_, countable, full⟩ := t.shaped_parts shaped
  rw [← full]
  exact countable _ (List.prefix_refl _)

theorem volume : (View.ofTensor t).sizes.z * (View.ofTensor t).sizes.y * (View.ofTensor t).sizes.x = t.size := by
  obtain ⟨ranked, _, full⟩ := t.shaped_parts shaped
  rw [← full, axisProduct_padded t.shape _ _ _ ranked.2 (paddedShape_sizes ranked.2)]

theorem inside_zero (filled : 0 < t.size) : Coords.Inside ⟨0, 0, 0⟩ (View.ofTensor t).sizes := by
  have volume := shaped.volume
  refine ⟨?_, ?_, ?_⟩
  all_goals
    apply Nat.pos_of_ne_zero
    intro empty
    rw [empty] at volume
    simp at volume
    omega

theorem position_lt {c : Coords} (inside : c.Inside (View.ofTensor t).sizes) : (View.ofTensor t).position c < t.size := by
  obtain ⟨z, y, x⟩ := inside
  exact lt_of_lt_of_eq (row_lt _ _ _ _ (row_lt _ _ _ _ z y) x) shaped.volume

theorem address_position {c : Coords} (inside : c.Inside (View.ofTensor t).sizes) :
    (View.ofTensor t).address c.z c.y c.x = .ok ((View.ofTensor t).position c) := by
  have small := (shaped.position_lt inside).trans shaped.size_lt
  refine View.address_eq (lt_of_le_of_lt ?_ small) small
  exact (Nat.le_mul_of_pos_right _ (Nat.zero_lt_of_lt inside.2.2)).trans (Nat.le_add_right _ _)

theorem stored {c : Coords} (inside : c.Inside (View.ofTensor t).sizes) :
    ∃ v, t.data.get? ((View.ofTensor t).position c) = some v :=
  t.data.get?_inside (shaped.position_lt inside)

theorem elementAt_inside {c : Coords} {v : Float} (inside : c.Inside (View.ofTensor t).sizes)
    (stored : t.data.get? ((View.ofTensor t).position c) = some v) :
    (View.ofTensor t).elementAt c.z c.y c.x = .ok v := by
  have elements : (View.ofTensor t).elements = t.data := rfl
  rw [View.elementAt_eq (shaped.address_position inside), elements, stored]
  rfl

theorem load_stored {indices : List Float} {c : Coords} (inside : c.Inside (View.ofTensor t).sizes)
    (arrives : (View.ofTensor t).arrives? indices = some c) :
    ∃ v, t.data.get? ((View.ofTensor t).position c) = some v ∧ (View.ofTensor t).load indices = .ok v := by
  obtain ⟨v, stored⟩ := shaped.stored inside
  refine ⟨v, stored, ?_⟩
  rw [View.load_eq, arrives]
  exact shaped.elementAt_inside inside stored

theorem layered (filled : 0 < t.size) : (View.ofTensor t).Layered := by
  obtain ⟨z, y, x⟩ := shaped.inside_zero filled
  have volume := shaped.volume
  unfold View.Layered
  rw [Nat.max_eq_right y, Nat.max_eq_right x]
  refine le_trans ?_ shaped.size_lt.le
  rw [← volume, Nat.mul_assoc]
  exact Nat.le_mul_of_pos_left _ z

-- Three indices within the array lead to an element, and fewer to the first layer.
theorem load_layered (layered : (View.ofTensor t).Layered) (indices : List Float) :
    ∃ v, (View.ofTensor t).load indices = .ok v := by
  rw [View.load_eq]
  cases arrives : (View.ofTensor t).arrives? indices with
  | none => exact ⟨_, rfl⟩
  | some c =>
    suffices addressed : ∃ k, (View.ofTensor t).address c.z c.y c.x = .ok k by
      obtain ⟨k, addressed⟩ := addressed
      exact ⟨_, View.elementAt_eq addressed⟩
    rcases View.arrives?_cases arrives with inside | ⟨first, y, x⟩
    · exact ⟨_, shaped.address_position inside⟩
    · have small := lt_of_lt_of_le (row_lt c.y _ c.x _ y x) layered
      have narrow : c.y * (View.ofTensor t).sizes.x ≤ c.y * max 1 (View.ofTensor t).sizes.x :=
        Nat.mul_le_mul_left _ (le_max_right _ _)
      have wide : c.y ≤ c.y * max 1 (View.ofTensor t).sizes.x := Nat.le_mul_of_pos_right _ (by omega)
      refine ⟨_, View.address_eq ?_ ?_⟩
      · rw [first]
        omega
      · rw [View.position, first, Nat.zero_mul, Nat.zero_add]
        omega

end Shaped

end Tensor
end GridKernel
