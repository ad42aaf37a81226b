import GridKernel.Proofs.Eval.Views
import GridKernel.Proofs.Launch.Arguments
import GridKernel.Proofs.Shader.Meaning
import GridKernel.Proofs.Shader.Tokens

namespace GridKernel

-- Axes without an index are read at zero.
theorem View.load_padded (view : View) (indices : List Float) (short : indices.length ≤ 3)
    (filled : Coords.Inside ⟨0, 0, 0⟩ view.sizes) :
    view.load (List.replicate (3 - indices.length) 0.0 ++ indices) = view.load indices := by
  obtain ⟨z, y, x⟩ := filled
  rcases indices with _ | ⟨i, _ | ⟨j, _ | ⟨k, _ | ⟨l, more⟩⟩⟩⟩
  · change view.load [0.0, 0.0, 0.0] = view.load []
    simp only [View.load, coordinate?_zero _ z, coordinate?_zero _ y, coordinate?_zero _ x]
  · change view.load [0.0, 0.0, i] = view.load [i]
    simp only [View.load, coordinate?_zero _ z, coordinate?_zero _ y]
    cases View.coordinate? view.sizes.x i <;> rfl
  · change view.load [0.0, i, j] = view.load [i, j]
    simp only [View.load, coordinate?_zero _ z]
    cases View.coordinate? view.sizes.y i <;> cases View.coordinate? view.sizes.x j <;> rfl
  · rfl
  · simp only [List.length_cons] at short
    omega

namespace Shader

theorem toString_inj {m n : Nat} (same : toString m = toString n) : m = n := by
  have digits := congrArg String.toList same
  rw [toList_toString, toList_toString] at digits
  rw [← Nat.ofDigitChars_ten_toDigits (n := m), digits, Nat.ofDigitChars_ten_toDigits]

theorem numbered_inj {stem : String} {m n : Nat} (same : stem ++ toString m = stem ++ toString n) : m = n :=
  toString_inj ((String.append_right_inj stem).mp same)

theorem numbered_ne {stem other : String} (apart : stem.toList.head? ≠ other.toList.head?) (some : stem.toList ≠ []) (n : Nat) :
    stem ++ toString n ≠ other := by
  rintro rfl
  apply apart
  rw [String.toList_append, List.head?_append_of_ne_nil _ some]

theorem find?_only {α : Type} {test : α → Bool} {l : List α} {a : α} (listed : a ∈ l) (passes : test a = true)
    (only : ∀ b ∈ l, test b = true → b = a) : l.find? test = some a := by
  cases found : l.find? test with
  | none => exact absurd passes (List.find?_eq_none.mp found a listed)
  | some b => rw [only b (List.mem_of_find?_eq_some found) (List.find?_some found)]

namespace Buffers

-- Index arithmetic on words is only exact on arrays that words can address.
def Addresses (b : Buffers) (t : Tensor) : Prop :=
  ∀ limit, b.limit = some limit → limit < 2 ^ 53 ∧ axisProduct t.shape ≤ limit

theorem clamp_exact {b : Buffers} {n : Nat} (small : ∀ limit, b.limit = some limit → n < limit) : b.clamp n = n := by
  unfold clamp
  cases limited : b.limit with
  | none => rfl
  | some limit =>
    have below := small limit limited
    exact min_eq_left (by omega)

theorem wrap_exact {b : Buffers} {n : Nat} (small : ∀ limit, b.limit = some limit → n < limit) : b.wrap n = n := by
  unfold wrap
  cases limited : b.limit with
  | none => rfl
  | some limit => exact Nat.mod_eq_of_lt (small limit limited)

end Buffers

section Loader

variable {bindings : List Binding} {b : Buffers} {slot : Nat} {sizes : Coords} {data : Elements}

structure Bound (bindings : List Binding) (b : Buffers) (slot : Nat) (sizes : Coords) (data : Elements) : Prop where
  shapes : ∃ found, bindings.find? (·.name = "shapes") = some found ∧ found.number = 1
  input : ∃ found, bindings.find? (·.name = "in" ++ toString slot) = some found ∧ found.number = slot + 2
  sizeZ : b.shapes[slot * 3]? = some sizes.z
  sizeY : b.shapes[slot * 3 + 1]? = some sizes.y
  sizeX : b.shapes[slot * 3 + 2]? = some sizes.x
  elements : b.inputs[slot]? = some data

def inside (x : Float) (size : Nat) : Bool := decide ((0.0 : Float) ≤ x) && decide (x < ofCoordinate size)

-- Floors and sizes, named as the loader names them.
def loaderCells (sizes : Coords) (iz iy ix : Float) (outer : Cells) : Cells :=
  ("x", .number (Whole.floor ix)) :: ("y", .number (Whole.floor iy)) :: ("z", .number (Whole.floor iz)) ::
    ("dx", .word sizes.x) :: ("dy", .word sizes.y) :: ("dz", .word sizes.z) ::
      ("iz", .number iz) :: ("iy", .number iy) :: ("ix", .number ix) :: outer

theorem loader_lets (bound : Bound bindings b slot sizes data) (outer : Cells) (iz iy ix : Float) :
    letAll bindings b (loader slot).lets (("iz", .number iz) :: ("iy", .number iy) :: ("ix", .number ix) :: outer) =
      some (loaderCells sizes iz iy ix outer) := by
  obtain ⟨shapes, found, one⟩ := bound.shapes
  simp [loader, letAll, Code.value, found, one, Cell.word?, Buffers.element?, bound.sizeZ, bound.sizeY, bound.sizeX,
    Buffers.convert, List.lookup_cons, loaderCells]

theorem loader_checks (outer : Cells) (iz iy ix : Float) :
    (loader slot).checks.allM (Check.value bindings b (loaderCells sizes iz iy ix outer)) =
      some (inside (Whole.floor iz) sizes.z && (inside (Whole.floor iy) sizes.y && inside (Whole.floor ix) sizes.x)) := by
  simp only [loader, List.allM, Check.value, Code.value, loaderCells, List.lookup_cons, Buffers.convert, Relation.compares,
    Relation.holds, inside, Option.bind_eq_bind, Option.bind_some, String.reduceBEq, Option.pure_def]
  cases decide ((0.0 : Float) ≤ Whole.floor iz) <;> cases decide (Whole.floor iz < ofCoordinate sizes.z) <;> try rfl
  cases decide ((0.0 : Float) ≤ Whole.floor iy) <;> cases decide (Whole.floor iy < ofCoordinate sizes.y) <;> try rfl
  cases decide ((0.0 : Float) ≤ Whole.floor ix) <;> cases decide (Whole.floor ix < ofCoordinate sizes.x) <;> rfl

theorem loader_result (bound : Bound bindings b slot sizes data) (outer : Cells) (iz iy ix : Float) {z y x : Nat}
    (indexZ : b.index (Whole.floor iz) = some z) (indexY : b.index (Whole.floor iy) = some y)
    (indexX : b.index (Whole.floor ix) = some x) :
    (loader slot).result.value bindings b (loaderCells sizes iz iy ix outer) =
      (data.get? (b.wrap (b.wrap (b.wrap (b.wrap (z * sizes.y) + y) * sizes.x) + x))).map .number := by
  obtain ⟨input, named, two⟩ := bound.input
  simp only [loader, Code.value, named, Option.bind_eq_bind, Option.bind_some]
  simp [two, loaderCells, List.lookup_cons, Buffers.convert, indexZ, indexY, indexX, Buffers.arith, Buffers.onWords,
    Cell.word?, Buffers.element?, bound.elements]

theorem coordinate_of_inside {size : Nat} {index : Float} (within : inside (Whole.floor index) size = true) (b : Buffers) :
    ∃ k, View.coordinate? size index = some k ∧ b.index (Whole.floor index) = some (b.clamp k) := by
  obtain ⟨zero, less⟩ : (0.0 : Float) ≤ Whole.floor index ∧ Whole.floor index < ofCoordinate size := by
    simpa [inside] using within
  obtain ⟨k, whole⟩ := floorInt?_floor_inside zero less
  refine ⟨k.toNat, ?_, ?_⟩
  · rw [coordinate?_eq, if_pos ⟨zero, less⟩, whole]
    rfl
  · rw [Buffers.index, whole]
    rfl

theorem coordinate_of_outside {size : Nat} {index : Float} (out : inside (Whole.floor index) size = false) :
    View.coordinate? size index = none := by
  rw [coordinate?_eq, if_neg]
  simpa [inside] using out

variable {t : Tensor} (shaped : t.Shaped) (addressed : b.Addresses t)

include shaped addressed

theorem address_exact {c : Coords} (within : c.Inside (View.ofTensor t).sizes) :
    b.wrap (b.wrap (b.wrap (b.wrap (b.clamp c.z * (View.ofTensor t).sizes.y) + b.clamp c.y) * (View.ofTensor t).sizes.x) +
      b.clamp c.x) = (View.ofTensor t).position c := by
  obtain ⟨_, _, full⟩ := t.shaped_parts shaped
  have below {n : Nat} (small : n ≤ (View.ofTensor t).position c) (limit : Nat) (limited : b.limit = some limit) : n < limit := by
    have room := (addressed limit limited).2
    have last := shaped.position_lt within
    omega
  obtain ⟨z, y, x⟩ := within
  have rows : c.z * (View.ofTensor t).sizes.y + c.y ≤ (c.z * (View.ofTensor t).sizes.y + c.y) * (View.ofTensor t).sizes.x :=
    Nat.le_mul_of_pos_right _ (Nat.zero_lt_of_lt x)
  have layers : c.z ≤ c.z * (View.ofTensor t).sizes.y := Nat.le_mul_of_pos_right _ (Nat.zero_lt_of_lt y)
  unfold View.position at *
  rw [Buffers.clamp_exact (below (by omega)), Buffers.clamp_exact (below (by omega)), Buffers.clamp_exact (below (by omega)),
    Buffers.wrap_exact (n := c.z * (View.ofTensor t).sizes.y) (below (by omega)),
    Buffers.wrap_exact (n := c.z * (View.ofTensor t).sizes.y + c.y) (below (by omega)),
    Buffers.wrap_exact (n := (c.z * (View.ofTensor t).sizes.y + c.y) * (View.ofTensor t).sizes.x) (below (by omega)),
    Buffers.wrap_exact (below le_rfl)]

theorem loader_loads (bound : Bound bindings b slot (View.ofTensor t).sizes t.data) (outer : Cells) (iz iy ix : Float) :
    ∃ v, (loader slot).call bindings b outer [.number iz, .number iy, .number ix] = some (.number v) ∧
      (View.ofTensor t).load [iz, iy, ix] = .ok v := by
  have call : (loader slot).call bindings b outer [.number iz, .number iy, .number ix] =
      if inside (Whole.floor iz) (View.ofTensor t).sizes.z && (inside (Whole.floor iy) (View.ofTensor t).sizes.y &&
          inside (Whole.floor ix) (View.ofTensor t).sizes.x) then
        (loader slot).result.value bindings b (loaderCells (View.ofTensor t).sizes iz iy ix outer)
      else some (.number 0.0) := by
    change (do
      let cells ← letAll bindings b (loader slot).lets (("iz", .number iz) :: ("iy", .number iy) :: ("ix", .number ix) :: outer)
      let fine ← (loader slot).checks.allM (Check.value bindings b cells)
      if fine then (loader slot).result.value bindings b cells else some (.number 0.0)) = _
    rw [loader_lets bound, Option.bind_eq_bind, Option.bind_some, loader_checks]
    rfl
  rw [call]
  cases withinZ : inside (Whole.floor iz) (View.ofTensor t).sizes.z with
  | false => exact ⟨0.0, rfl, by simp [View.load, coordinate_of_outside withinZ]⟩
  | true =>
    obtain ⟨k, coordinateZ, indexZ⟩ := coordinate_of_inside withinZ b
    cases withinY : inside (Whole.floor iy) (View.ofTensor t).sizes.y with
    | false => exact ⟨0.0, rfl, by simp [View.load, coordinateZ, coordinate_of_outside withinY]⟩
    | true =>
      obtain ⟨j, coordinateY, indexY⟩ := coordinate_of_inside withinY b
      cases withinX : inside (Whole.floor ix) (View.ofTensor t).sizes.x with
      | false => exact ⟨0.0, rfl, by simp [View.load, coordinateZ, coordinateY, coordinate_of_outside withinX]⟩
      | true =>
        obtain ⟨i, coordinateX, indexX⟩ := coordinate_of_inside withinX b
        have within : Coords.Inside ⟨i, j, k⟩ (View.ofTensor t).sizes :=
          ⟨(coordinate?_inside coordinateZ).2, (coordinate?_inside coordinateY).2, (coordinate?_inside coordinateX).2⟩
        obtain ⟨v, stored, loaded⟩ := shaped.load_stored within
          (show (View.ofTensor t).arrives? [iz, iy, ix] = some ⟨i, j, k⟩ by
            simp [View.arrives?, coordinateZ, coordinateY, coordinateX])
        refine ⟨v, ?_, loaded⟩
        have address := address_exact shaped addressed within
        rw [Bool.and_self, Bool.and_self, if_pos rfl, loader_result bound outer iz iy ix indexZ indexY indexX, address, stored]
        rfl

end Loader

section Bindings

variable (types : List ValueType) (grid : Grid) (workgroup : Nat)

theorem scalars_bound : ∃ found, (Manifest.ofTypes types grid workgroup).bindings.find? (·.name = "scalars") = some found ∧
    found.number = 0 :=
  ⟨_, List.find?_cons_of_pos (by decide), rfl⟩

theorem shapes_bound : ∃ found, (Manifest.ofTypes types grid workgroup).bindings.find? (·.name = "shapes") = some found ∧
    found.number = 1 :=
  ⟨⟨1, "shapes", .shapes, true⟩, (List.find?_cons_of_neg (by decide)).trans (List.find?_cons_of_pos (by decide)), rfl⟩

theorem input_bound {slot : Nat} (listed : slot < (positions ValueType.isArray types).length) :
    ∃ found, (Manifest.ofTypes types grid workgroup).bindings.find? (·.name = "in" ++ toString slot) = some found ∧
      found.number = slot + 2 := by
  have other {text : String} (apart : "in".toList.head? ≠ text.toList.head?) : ¬ text = "in" ++ toString slot :=
    fun same => numbered_ne apart (by decide) slot same.symm
  refine ⟨⟨2 + slot, "in" ++ toString slot, .input ((positions ValueType.isArray types)[slot]), true⟩, ?_, Nat.add_comm 2 slot⟩
  apply find?_only
  · refine List.mem_cons_of_mem _ (List.mem_cons_of_mem _ (List.mem_append_left _ ?_))
    exact List.mem_mapIdx.mpr ⟨slot, listed, rfl⟩
  · simp
  · intro found member named
    replace named : found.name = "in" ++ toString slot := of_decide_eq_true named
    simp only [Manifest.ofTypes, Manifest.inputBindings, List.mem_cons, List.mem_append, List.mem_mapIdx,
      List.not_mem_nil, or_false] at member
    rcases member with rfl | rfl | ⟨place, inside, rfl⟩ | rfl
    · exact absurd named (other (by decide))
    · exact absurd named (other (by decide))
    · obtain rfl := numbered_inj named
      rfl
    · exact absurd named (other (show "in".toList.head? ≠ "result".toList.head? by decide))

theorem loader_found {p : Program} {slot : Nat} (listed : slot < p.manifest.arrayParams.length) :
    p.loaders.find? (·.name = "load_in" ++ toString slot) = some (loader slot) := by
  apply find?_only
  · exact List.mem_map.mpr ⟨slot, List.mem_range.mpr listed, rfl⟩
  · simp [loader]
  · intro found member named
    obtain ⟨other, _, rfl⟩ := List.mem_map.mp member
    have same : "load_in" ++ toString other = "load_in" ++ toString slot := of_decide_eq_true named
    rw [numbered_inj same]

end Bindings

end Shader

end GridKernel
