import GridKernel.Proofs.Launch.Invocations
import GridKernel.Proofs.Launch.RowMajor
import GridKernel.Proofs.Number.Integers

namespace GridKernel

namespace Shader

variable (m : Manifest) (sizes : Coords) (g : Invocation)

def coordinateOf (axis : Axis) : UInt32 := (coordinateTerm axis).value (names m sizes g (elementOf m sizes g))

def coordinateWord (axis : Axis) : Single := Single.ofInt (coordinateOf m sizes g axis).toNat

def CoordinateAgrees (id : Nat) (axis : Axis) : Prop :=
  ((coordinateWord m sizes g axis).toFloat == ofCoordinate ((Context.ofLinear id sizes).thread.get axis)) = true

variable {m sizes g}

theorem lt_of_target? {id : Nat} (length : m.outputLength < 0x100000000) (computes : target? m sizes g = some id) :
    (elementOf m sizes g).toNat = id ∧ id < m.outputLength := by
  rw [target?_eq m sizes g length] at computes
  split at computes
  · cases computes
  · cases computes
    exact ⟨rfl, by omega⟩

end Shader

namespace Grid

variable (grid : Grid)

theorem thread_lt {id : Nat} (inside : id < grid.total) (axis : Axis) :
    (Context.ofLinear id grid.sizes).thread.get axis < grid.sizes.get axis := by
  obtain ⟨column, row, layer⟩ := grid.holds_thread inside
  cases axis with
  | x => exact column
  | y => exact row
  | z => exact layer

theorem exists_thread (axis : Axis) {n : Nat} (small : n < grid.sizes.get axis) :
    ∃ id < grid.total, (Context.ofLinear id grid.sizes).thread.get axis = n := by
  obtain ⟨wide, high, deep⟩ := grid.sizes_pos
  obtain ⟨c, holds, here⟩ : ∃ c, grid.Holds c ∧ c.get axis = n := by
    cases axis with
    | x => exact ⟨⟨n, 0, 0⟩, ⟨small, high, deep⟩, rfl⟩
    | y => exact ⟨⟨0, n, 0⟩, ⟨wide, small, deep⟩, rfl⟩
    | z => exact ⟨⟨0, 0, n⟩, ⟨wide, high, small⟩, rfl⟩
  exact ⟨grid.position c, grid.position_lt holds, by rw [grid.thread_position holds]; exact here⟩

-- In 32-bit arithmetic nothing is lost: neither an axis nor the product of two is past a word.
theorem coordinateOf_toNat {m : Manifest} {g : Shader.Invocation} {id : Nat} (inside : id < grid.total)
    (element : (Shader.elementOf m grid.sizes g).toNat = id) (axis : Axis) :
    (Shader.coordinateOf m grid.sizes g axis).toNat = (Context.ofLinear id grid.sizes).thread.get axis := by
  obtain ⟨wide, high, _⟩ := grid.sizes_pos
  have plane := grid.plane_le
  have x := grid.size_le .x
  have y := grid.size_le .y
  have bounded : grid.total < 0x100000000 := grid.bounded
  have columns : grid.sizes.x.toUInt32.toNat = grid.sizes.x := UInt32.toNat_ofNat_of_lt' (lt_of_le_of_lt x bounded)
  have rows : grid.sizes.y.toUInt32.toNat = grid.sizes.y := UInt32.toNat_ofNat_of_lt' (lt_of_le_of_lt y bounded)
  have product : (grid.sizes.x.toUInt32 * grid.sizes.y.toUInt32).toNat = grid.sizes.x * grid.sizes.y := by
    rw [UInt32.toNat_mul, columns, rows]
    exact Nat.mod_eq_of_lt (lt_of_le_of_lt plane bounded)
  have nonzero {a : UInt32} {n : Nat} (word : a.toNat = n) (positive : 0 < n) : a ≠ 0 := by
    rintro rfl
    exact positive.ne word
  rw [grid.thread_eq inside, ← element]
  cases axis with
  | x =>
    change (if grid.sizes.x.toUInt32 = 0 then 0 else Shader.elementOf m grid.sizes g % grid.sizes.x.toUInt32).toNat = _
    rw [if_neg (nonzero columns wide), UInt32.toNat_mod, columns]
    rfl
  | y =>
    change (if grid.sizes.y.toUInt32 = 0 then 0 else (if grid.sizes.x.toUInt32 = 0 then Shader.elementOf m grid.sizes g else
      Shader.elementOf m grid.sizes g / grid.sizes.x.toUInt32) % grid.sizes.y.toUInt32).toNat = _
    rw [if_neg (nonzero rows high), if_neg (nonzero columns wide), UInt32.toNat_mod, UInt32.toNat_div, columns, rows]
    rfl
  | z =>
    change (if grid.sizes.x.toUInt32 * grid.sizes.y.toUInt32 = 0 then Shader.elementOf m grid.sizes g else
      Shader.elementOf m grid.sizes g / (grid.sizes.x.toUInt32 * grid.sizes.y.toUInt32)).toNat = _
    rw [if_neg (nonzero product (Nat.mul_pos wide high)), UInt32.toNat_div, product]
    rfl

theorem thread_small {id : Nat} (inside : id < grid.total) (axis : Axis) :
    (Context.ofLinear id grid.sizes).thread.get axis < 2 ^ 53 := by
  have below := grid.thread_lt inside axis
  have size := grid.size_le axis
  have total : grid.total < 0x100000000 := grid.bounded
  omega

theorem agrees_iff {m : Manifest} {g : Shader.Invocation} {id : Nat} (inside : id < grid.total)
    (element : (Shader.elementOf m grid.sizes g).toNat = id) (axis : Axis) :
    Shader.CoordinateAgrees m grid.sizes g id axis ↔ Format.single.Holds ((Context.ofLinear id grid.sizes).thread.get axis) := by
  unfold Shader.CoordinateAgrees Shader.coordinateWord
  rw [grid.coordinateOf_toNat inside element axis]
  exact Single.beq_ofInt_iff (grid.thread_small inside axis)

end Grid

theorem Manifest.Laid.exists_target {m : Manifest} (laid : m.Laid m.outputLength) (length : m.outputLength < 0x100000000)
    (sizes : Coords) {id : Nat} (inside : id < m.outputLength) :
    ∃ g, m.Launches g ∧ Shader.target? m sizes g = some id := by
  obtain ⟨g, ⟨launched, element⟩, _⟩ := laid.existsUnique_element sizes inside
  refine ⟨g, launched, ?_⟩
  rw [Shader.target?_eq m sizes g length, element, if_neg (not_le.mpr inside)]

theorem holds_below_iff (size : Nat) : (∀ n < size, Format.single.Holds n) ↔ size ≤ 2 ^ 24 + 1 := by
  constructor
  · intro held
    by_contra long
    have bits : 2 ^ 24 + 1 < 2 ^ 24 := (held (2 ^ 24 + 1) (by omega)).lt_of_odd (by decide)
    omega
  · intro short n below
    exact Format.Holds.of_le (show n ≤ 2 ^ 24 by omega)

-- Threads are given the coordinates of the host, as far as these are 32-bit words.
theorem coordinates_agree_where_they_fit (types : List ValueType) (grid : Grid) (texture : Texture)
    (admitted : Texture.ofElements grid.total = .ok texture) :
    let m := Manifest.ofTypes types grid Shader.workgroupSize
    (∀ id < grid.total, ∃ g, m.Launches g ∧ Shader.target? m grid.sizes g = some id) ∧
    (∀ g id, Shader.target? m grid.sizes g = some id → ∀ axis,
      (Shader.coordinateOf m grid.sizes g axis).toNat = (Context.ofLinear id grid.sizes).thread.get axis ∧
      (Shader.CoordinateAgrees m grid.sizes g id axis ↔
        Format.single.Holds ((Context.ofLinear id grid.sizes).thread.get axis)) ∧
      -- Another rounding would not help: where the nearest word differs, every word does.
      ((∃ w : Single, (w.toFloat == ofCoordinate ((Context.ofLinear id grid.sizes).thread.get axis)) = true) ↔
        Shader.CoordinateAgrees m grid.sizes g id axis)) ∧
    ((∀ g id, Shader.target? m grid.sizes g = some id → ∀ axis, Shader.CoordinateAgrees m grid.sizes g id axis) ↔
      ∀ axis, grid.sizes.get axis ≤ 2 ^ 24 + 1) := by
  intro m
  have laid : m.Laid m.outputLength := Manifest.ofTypes_laid types grid (Texture.le_limit admitted)
  have length : m.outputLength < 0x100000000 := grid.bounded
  have covered (id : Nat) (inside : id < grid.total) := laid.exists_target length grid.sizes inside
  have computed {g : Shader.Invocation} {id : Nat} (computes : Shader.target? m grid.sizes g = some id) :
      (Shader.elementOf m grid.sizes g).toNat = id ∧ id < grid.total := Shader.lt_of_target? length computes
  refine ⟨covered, fun g id computes axis => ?_, ?_, ?_⟩
  · obtain ⟨element, inside⟩ := computed computes
    have agrees := grid.agrees_iff inside element axis
    exact ⟨grid.coordinateOf_toNat inside element axis, agrees,
      fun ⟨w, equal⟩ => agrees.mpr (Single.holds_of_beq (grid.thread_small inside axis) equal), fun here => ⟨_, here⟩⟩
  · intro agree axis
    rw [← holds_below_iff]
    intro n below
    obtain ⟨id, inside, here⟩ := grid.exists_thread axis below
    obtain ⟨g, _, computes⟩ := covered id inside
    rw [← here]
    exact (grid.agrees_iff inside (computed computes).1 axis).mp (agree g id computes axis)
  · intro short g id computes axis
    obtain ⟨element, inside⟩ := computed computes
    exact (grid.agrees_iff inside element axis).mpr
      ((holds_below_iff _).mpr (short axis) _ (grid.thread_lt inside axis))

-- The shortest line on which a coordinate is lost, its last.
def longLine : Grid := ⟨[16777218], by decide, by decide, by decide⟩

theorem longLine_coordinates :
    let m := Manifest.ofTypes [] longLine Shader.workgroupSize
    ∃ texture, Texture.ofElements longLine.total = .ok texture ∧
      ∃ g, Shader.target? m longLine.sizes g = some 16777216 ∧ Shader.CoordinateAgrees m longLine.sizes g 16777216 .x := by
  intro m
  obtain ⟨texture, admitted⟩ := Texture.ofElements_ok longLine.total (by decide) (by decide)
  obtain ⟨covered, each, _⟩ := coordinates_agree_where_they_fit [] longLine texture admitted
  obtain ⟨g, _, computes⟩ := covered 16777216 (by decide)
  exact ⟨texture, admitted, g, computes, (each g _ computes .x).2.1.mpr (Format.Holds.two_pow Format.single 24)⟩

-- The thread of its last element is told the coordinate of the thread before.
theorem last_coordinate_lost :
    let m := Manifest.ofTypes [] longLine Shader.workgroupSize
    ∃ g, m.Launches g ∧ Shader.target? m longLine.sizes g = some 16777217 ∧
      (Context.ofLinear 16777217 longLine.sizes).thread.x = 16777217 ∧
      Shader.coordinateWord m longLine.sizes g .x = Single.ofInt 16777216 ∧
      ((Shader.coordinateWord m longLine.sizes g .x).toFloat == ofCoordinate 16777216) = true ∧
      ¬Shader.CoordinateAgrees m longLine.sizes g 16777217 .x := by
  intro m
  have computes : (Shader.elementOf m longLine.sizes ⟨257, 1⟩).toNat = 16777217 := by decide
  have word : Shader.coordinateWord m longLine.sizes ⟨257, 1⟩ .x = Single.ofInt 16777216 := by decide
  refine ⟨⟨257, 1⟩, ⟨by decide, by decide⟩, by decide, by decide, word, ?_, fun agrees => ?_⟩
  · rw [word]
    exact (Single.beq_ofInt_iff (by decide)).mpr (Format.Holds.two_pow Format.single 24)
  · have held : Format.single.Holds 16777217 := (longLine.agrees_iff (by decide) computes .x).mp agrees
    exact absurd (held.lt_of_odd (by decide)) (by decide)

end GridKernel
