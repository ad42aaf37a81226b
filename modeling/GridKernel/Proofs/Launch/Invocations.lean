import GridKernel.Proofs.Buffer.Layout
import GridKernel.Proofs.Launch.Execution

namespace GridKernel

namespace Shader

-- A quotient by zero is the dividend, and a remainder by zero is zero; everything else wraps.
def Arith.onWords : Arith → UInt32 → UInt32 → UInt32
  | .add, a, b => a + b
  | .sub, a, b => a - b
  | .mul, a, b => a * b
  | .div, a, b => if b = 0 then a else a / b
  | .rem, a, b => if b = 0 then 0 else a % b

def WordTerm.value (names : WordName → UInt32) : WordTerm → UInt32
  | .word name => names name
  | .arith op left right => op.onWords (left.value names) (right.value names)

structure Invocation where
  x : UInt32
  y : UInt32
deriving DecidableEq

def Invocation.get (g : Invocation) : Axis → UInt32
  | .x => g.x
  | .y => g.y
  | .z => 0

section Entry

variable (m : Manifest) (sizes : Coords)

-- The names of the entry point while it runs: what it is given, the constants, and the element once it is known.
def names (g : Invocation) (element : UInt32) : WordName → UInt32
  | .invocation axis => g.get axis
  | .element => element
  | constant => (((constants m sizes).lookup constant).getD 0).toUInt32

def elementOf (g : Invocation) : UInt32 := elementTerm.value (names m sizes g 0)

-- The element that an invocation writes. Those behind the last element stop before they compute anything.
def target? (g : Invocation) : Option Nat :=
  let element := elementOf m sizes g
  if names m sizes g element .outputLength ≤ element then none else some element.toNat

end Entry

end Shader

namespace Manifest

def Launches (m : Manifest) (g : Shader.Invocation) : Prop :=
  g.x.toNat < m.workgroupsX * m.workgroupSize ∧ g.y.toNat < m.workgroupsY

theorem rows_bounds {total groups across rows : Nat} (small : total ≤ 2 ^ 28)
    (grouped : max ((total + 256 - 1) / 256) 1 = groups) (row : min groups 65535 = across)
    (stacked : (groups + across - 1) / across = rows) :
    0 < across ∧ across ≤ 65535 ∧ 0 < rows ∧ rows ≤ 17 ∧ groups ≤ across * rows := by
  have wide : 0 < across := by omega
  have enough := Nat.lt_div_mul_add (a := groups + across - 1) wide
  rw [stacked, Nat.mul_comm] at enough
  refine ⟨wide, by omega, ?_, ?_, by omega⟩
  · rw [← stacked]
    exact Nat.div_pos (by omega) wide
  · by_cases short : groups ≤ 65535
    · have one : groups = across := by omega
      rw [← stacked, one, Nat.div_le_iff_le_mul_add_pred wide]
      omega
    · have full : across = 65535 := by omega
      rw [full] at stacked
      omega

-- A launch of few enough rows for 32-bit numbers, with an invocation for each of the elements.
structure Laid (m : Manifest) (total : Nat) : Prop where
  wide : 0 < m.workgroupsX
  narrow : m.workgroupsX ≤ maxWorkgroups
  high : 0 < m.workgroupsY
  low : m.workgroupsY ≤ 17
  size : m.workgroupSize = 256
  enough : total ≤ m.workgroupsX * m.workgroupSize * m.workgroupsY

theorem ofTypes_laid (types : List ValueType) (grid : Grid) (small : grid.total ≤ 2 ^ 28) :
    (ofTypes types grid Shader.workgroupSize).Laid grid.total := by
  generalize grouped : max ((grid.total + 256 - 1) / 256) 1 = groups
  generalize row : min groups 65535 = across
  generalize stacked : (groups + across - 1) / across = rows
  obtain ⟨wide, narrow, high, low, enough⟩ := rows_bounds small grouped row stacked
  have elements : grid.total ≤ groups * 256 := by omega
  have x : (ofTypes types grid Shader.workgroupSize).workgroupsX = across := by
    simp only [ofTypes, Shader.workgroupSize, maxWorkgroups, grouped, row]
    exact Nat.mod_eq_of_lt (by omega)
  have y : (ofTypes types grid Shader.workgroupSize).workgroupsY = rows := by
    simp only [ofTypes, Shader.workgroupSize, maxWorkgroups, grouped, row, stacked]
    exact Nat.mod_eq_of_lt (by omega)
  refine ⟨x ▸ wide, x ▸ narrow, y ▸ high, y ▸ low, rfl, ?_⟩
  rw [x, y]
  calc grid.total ≤ across * rows * 256 := le_trans elements (Nat.mul_le_mul_right 256 enough)
    _ = across * 256 * rows := Nat.mul_right_comm across rows 256

end Manifest

namespace Shader

theorem elementOf_toNat (m : Manifest) (sizes : Coords) (g : Invocation) (stride : m.rowStride < 0x100000000)
    (fits : g.x.toNat + g.y.toNat * m.rowStride < 0x100000000) :
    (elementOf m sizes g).toNat = g.x.toNat + g.y.toNat * m.rowStride := by
  have value : elementOf m sizes g = g.x + g.y * m.rowStride.toUInt32 := rfl
  have word : m.rowStride.toUInt32.toNat = m.rowStride := UInt32.toNat_ofNat_of_lt' stride
  have product : (g.y * m.rowStride.toUInt32).toNat = g.y.toNat * m.rowStride := by
    rw [UInt32.toNat_mul, word]
    exact Nat.mod_eq_of_lt (by omega)
  rw [value, UInt32.toNat_add, product]
  exact Nat.mod_eq_of_lt fits

theorem target?_eq (m : Manifest) (sizes : Coords) (g : Invocation) (length : m.outputLength < 0x100000000) :
    target? m sizes g = if m.outputLength ≤ (elementOf m sizes g).toNat then none else some (elementOf m sizes g).toNat := by
  have constant (element : UInt32) : names m sizes g element .outputLength = m.outputLength.toUInt32 := rfl
  have word : m.outputLength.toUInt32.toNat = m.outputLength := UInt32.toNat_ofNat_of_lt' length
  simp only [target?, constant, UInt32.le_iff_toNat_le, word]

end Shader

-- Quotient and remainder by the length of a row are the only place of a number in the rows.
theorem place_in_rows {stride rows id x y : Nat} (inside : id < stride * rows) :
    (x < stride ∧ y < rows ∧ x + y * stride = id) ↔ x = id % stride ∧ y = id / stride := by
  have wide : 0 < stride := Nat.pos_of_mul_pos_right (Nat.zero_lt_of_lt inside)
  constructor
  · rintro ⟨first, _, rfl⟩
    exact ⟨by rw [Nat.add_mul_mod_self_right, Nat.mod_eq_of_lt first],
      by rw [Nat.add_mul_div_right _ _ wide, Nat.div_eq_of_lt first, Nat.zero_add]⟩
  · rintro ⟨rfl, rfl⟩
    exact ⟨Nat.mod_lt _ wide, Nat.div_lt_of_lt_mul inside, Nat.mod_add_div' id stride⟩

namespace Manifest.Laid

variable {m : Manifest} {total : Nat} (laid : m.Laid total)

include laid

theorem row_le : m.workgroupsX * m.workgroupSize ≤ 65535 * 256 := by
  rw [laid.size]
  exact Nat.mul_le_mul_right 256 laid.narrow

theorem stride_eq : m.stride = .ok (m.workgroupsX * m.workgroupSize) := by
  have row := laid.row_le
  exact if_pos (by unfold Manifest.rowStride; omega)

-- The last number of a launch, of an invocation behind the last element or not, is still a word.
theorem fits {g : Shader.Invocation} (launched : m.Launches g) : g.x.toNat + g.y.toNat * m.rowStride < 0x100000000 := by
  have row := laid.row_le
  have rows : g.y.toNat * m.rowStride ≤ 17 * (65535 * 256) := by
    exact Nat.mul_le_mul (le_trans (le_of_lt launched.2) laid.low) row
  have column := launched.1
  unfold Manifest.rowStride at *
  omega

theorem element_eq (sizes : Coords) {g : Shader.Invocation} (launched : m.Launches g) :
    (Shader.elementOf m sizes g).toNat = g.x.toNat + g.y.toNat * m.rowStride := by
  have row := laid.row_le
  exact Shader.elementOf_toNat m sizes g (by unfold Manifest.rowStride; omega) (laid.fits launched)

theorem existsUnique_element (sizes : Coords) {id : Nat} (inside : id < total) :
    ∃! g, m.Launches g ∧ (Shader.elementOf m sizes g).toNat = id := by
  have row := laid.row_le
  have low := laid.low
  have stride : m.rowStride = m.workgroupsX * m.workgroupSize := rfl
  have place {x y : Nat} := place_in_rows (x := x) (y := y) (lt_of_lt_of_le inside laid.enough)
  obtain ⟨first, second, sum⟩ := place.mpr ⟨rfl, rfl⟩
  have column : (id % (m.workgroupsX * m.workgroupSize)).toUInt32.toNat = id % (m.workgroupsX * m.workgroupSize) :=
    UInt32.toNat_ofNat_of_lt' (lt_of_lt_of_le first (le_trans row (by decide)))
  have line : (id / (m.workgroupsX * m.workgroupSize)).toUInt32.toNat = id / (m.workgroupsX * m.workgroupSize) :=
    UInt32.toNat_ofNat_of_lt' (lt_of_lt_of_le second (le_trans low (by decide)))
  refine ⟨⟨(id % (m.workgroupsX * m.workgroupSize)).toUInt32, (id / (m.workgroupsX * m.workgroupSize)).toUInt32⟩,
    ?_, ?_⟩
  · have launched : m.Launches ⟨(id % (m.workgroupsX * m.workgroupSize)).toUInt32,
        (id / (m.workgroupsX * m.workgroupSize)).toUInt32⟩ := by
      unfold Launches
      dsimp only
      rw [column, line]
      exact ⟨first, second⟩
    refine ⟨launched, ?_⟩
    rw [laid.element_eq sizes launched, stride]
    dsimp only
    rw [column, line, sum]
  · rintro ⟨x, y⟩ ⟨launched, here⟩
    rw [laid.element_eq sizes launched, stride] at here
    obtain ⟨left, right⟩ := place.mp ⟨launched.1, launched.2, here⟩
    rw [Shader.Invocation.mk.injEq]
    exact ⟨UInt32.toNat_inj.mp (left.trans column.symm), UInt32.toNat_inj.mp (right.trans line.symm)⟩

end Manifest.Laid

-- A launch covers the grid: every element has its one invocation, and a device computes them all.
theorem launches_cover_the_grid (types : List ValueType) (grid : Grid) (texture : Texture)
    (admitted : Texture.ofElements grid.total = .ok texture) :
    let m := Manifest.ofTypes types grid Shader.workgroupSize
    (1 ≤ m.workgroupsX ∧ m.workgroupsX ≤ maxWorkgroups ∧ 1 ≤ m.workgroupsY ∧ m.workgroupsY ≤ maxWorkgroups) ∧
    -- Neither the length of a row nor the number of an invocation is cut to 32 bits.
    (m.workgroupsX * m.workgroupSize < 0x100000000 ∧ m.rowStride = m.workgroupsX * m.workgroupSize ∧
      m.stride = .ok m.rowStride ∧ ∀ g, m.Launches g → g.x.toNat + g.y.toNat * m.rowStride < 0x100000000 ∧
        (Shader.elementOf m grid.sizes g).toNat = g.x.toNat + g.y.toNat * m.rowStride) ∧
    (m.outputLength = grid.total ∧
      (∀ id < m.outputLength, ∃! g, m.Launches g ∧ (Shader.elementOf m grid.sizes g).toNat = id) ∧
      ∀ g, Shader.target? m grid.sizes g = if m.outputLength ≤ (Shader.elementOf m grid.sizes g).toNat then none
        else some (Shader.elementOf m grid.sizes g).toNat) ∧
    -- Neither the threads nor the room for the result cut a run on the device short.
    m.workgroupsX * m.workgroupsY * m.workgroupSize < sizeRange ∧
    min (min m.outputLength (m.workgroupsX * m.workgroupsY * m.workgroupSize)) (texture.byteSize / 4) =
      m.outputLength ∧
    ∀ (p : DeviceProgram) (args : List Value), p.manifest = m →
      Device.resultWords p args (m.workgroupsX * m.workgroupsY * m.workgroupSize) (texture.byteSize / 4) =
        ((collect (elementWord p.request.functions p.request.body p.request.grid.sizes args) m.outputLength 0 #[]).mapError
          .ofEval).map (· ++ Array.replicate (texture.byteSize / 4 - m.outputLength) Single.zero) := by
  intro m
  have laid : m.Laid grid.total := Manifest.ofTypes_laid types grid (Texture.le_limit admitted)
  have row := laid.row_le
  have rows := laid.low
  have limit : maxWorkgroups = 65535 := rfl
  have length : m.outputLength < 0x100000000 := grid.bounded
  obtain ⟨threads, few⟩ : m.outputLength ≤ m.workgroupsX * m.workgroupsY * m.workgroupSize ∧
      m.workgroupsX * m.workgroupsY * m.workgroupSize < sizeRange := Manifest.covers types grid
  have room : m.outputLength ≤ texture.byteSize / 4 := by
    have held : m.outputLength ≤ texture.texels := Texture.le_texels _ _ admitted
    simpa [Texture.byteSize] using held
  have count : min (min m.outputLength (m.workgroupsX * m.workgroupsY * m.workgroupSize))
      (texture.byteSize / 4) = m.outputLength := by
    rw [Nat.min_eq_left threads, Nat.min_eq_left room]
  refine ⟨⟨laid.wide, laid.narrow, laid.high, by omega⟩, ⟨by omega, rfl, laid.stride_eq, fun g launched =>
    ⟨laid.fits launched, laid.element_eq grid.sizes launched⟩⟩, ⟨rfl, fun id inside =>
    laid.existsUnique_element grid.sizes inside, fun g => Shader.target?_eq m grid.sizes g length⟩, few, count, ?_⟩
  intro p args own
  simp only [Device.resultWords, own, count]
  cases collect (elementWord p.request.functions p.request.body p.request.grid.sizes args) m.outputLength 0 #[] <;> rfl

-- A grid of more groups than a row can have: three rows, the last of which is nearly empty.
def spilling : Grid := ⟨[4096, 8192], by decide, by decide, by decide⟩

theorem spilling_covered :
    let m := Manifest.ofTypes [] spilling Shader.workgroupSize
    ∃ texture, Texture.ofElements spilling.total = .ok texture ∧ m.workgroupsX = maxWorkgroups ∧ m.workgroupsY = 3 ∧
      (∃! g, m.Launches g ∧ (Shader.elementOf m spilling.sizes g).toNat = 33554431) ∧
      min (min m.outputLength (m.workgroupsX * m.workgroupsY * m.workgroupSize)) (texture.byteSize / 4) =
        33554432 := by
  intro m
  obtain ⟨texture, admitted⟩ := Texture.ofElements_ok spilling.total (by decide) (by decide)
  obtain ⟨_, _, ⟨_, unique, _⟩, _, count, _⟩ := launches_cover_the_grid [] spilling texture admitted
  exact ⟨texture, admitted, by decide, by decide, unique 33554431 (by decide), count⟩

end GridKernel
