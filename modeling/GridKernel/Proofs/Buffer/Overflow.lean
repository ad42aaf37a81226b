import GridKernel.Proofs.Launch.Textures

namespace GridKernel

namespace Texture

def rows (count width : Nat) : Except KernelError Nat :=
  if width = 0 then .error .overflow
  else if count % width = 0 then .ok (count / width)
  else sized .overflow (count / width + 1)

def checked (count : Nat) : Except KernelError Texture :=
  if count = 0 then .error (.invalidArgument .emptyLayout)
  else do
    let width ← sized .overflow (Whole.ceilRoot count)
    let height ← rows count width
    if maxTextureSide < width ∨ maxTextureSide < height then
      .error (.executionFailed (.textureLimit count width height maxTextureSide))
    else .ok ⟨width, height⟩

theorem rows_eq {count width : Nat} (some : 0 < width) (small : (count + width - 1) / width < sizeRange) :
    rows count width = .ok ((count + width - 1) / width) := by
  have rounded : (count + width - 1) / width = (if count % width = 0 then count / width else count / width + 1) := by
    have split := Nat.div_add_mod count width
    have short := Nat.mod_lt count some
    split
    · rw [Nat.div_eq_iff some, Nat.mul_comm]
      omega
    · rw [Nat.div_eq_iff some, Nat.add_mul, Nat.mul_comm]
      omega
  unfold rows
  rw [if_neg (by omega)]
  rw [rounded] at small ⊢
  split
  · rfl
  · rename_i rest
    rw [if_neg rest] at small
    exact sized_eq small

theorem checked_laid {count : Nat} {t : Texture} (laid : ofElements count = .ok t) :
    checked count = .ok t ∧ t.byteSize < sizeRange := by
  obtain ⟨narrow, low⟩ := sides_le laid
  obtain ⟨side, height⟩ := ofElements_parts laid
  have positive := pos_of_laid laid
  have limit : maxTextureSide < sizeRange := by decide
  have room : t.byteSize < sizeRange := by
    calc t.width * t.height * 4 ≤ maxTextureSide * maxTextureSide * 4 := Nat.mul_le_mul_right 4 (Nat.mul_le_mul narrow low)
      _ < sizeRange := by decide
  have some : 0 < t.width := side ▸ Whole.ceilRoot_pos count positive
  have stacked : rows count t.width = .ok t.height := by
    rw [rows_eq some (by rw [← height]; omega), ← height]
  refine ⟨?_, room⟩
  unfold checked
  rw [if_neg (by omega), ← side, sized_eq (by omega)]
  simp only [bind, Except.bind, stacked]
  rw [if_neg (by omega)]

end Texture

namespace Elements

def overLimit (v : Int64) : Except KernelError Bool := (magnitude v).map fun m => decide (exactIntegerLimit < m.toInt)

def tallyStep {α : Type} (test : α → Except KernelError Bool) (count : Nat) (v : α) : Except KernelError Nat := do
  if ← test v then sized .overflow (count + 1) else .ok count

-- 32-bit integers are widened before their magnitude is taken, 64-bit integers cannot be.
def tallied : Elements → Except KernelError Nat
  | .f32 _ => .ok 0
  | .f64 data => data.foldlM (tallyStep fun v => .ok !(v.toSingle.toFloat == v.toFloat)) 0
  | .i32 data => data.foldlM (tallyStep fun v => overLimit v.toInt64) 0
  | .i64 data => data.foldlM (tallyStep overLimit) 0

def inexact : Elements → Nat
  | .f32 _ => 0
  | .f64 data => data.countP fun v => !(v.toSingle.toFloat == v.toFloat)
  | .i32 data => data.countP fun v => exactIntegerLimit < v.toInt.natAbs
  | .i64 data => data.countP fun v => exactIntegerLimit < v.toInt.natAbs

theorem abs_eq {v : Int64} (more : v ≠ Int64.minValue) : v.abs.toInt = v.toInt.natAbs :=
  BitVec.toInt_abs_eq_natAbs_of_ne_intMin fun same => more (Int64.toBitVec_inj.mp same)

theorem overLimit_eq {v : Int64} (more : v ≠ Int64.minValue) :
    overLimit v = .ok (decide (exactIntegerLimit < v.toInt.natAbs)) := by
  rw [overLimit, magnitude_eq more, ← abs_eq more]
  rfl

theorem overLimit_widened (v : Int32) : overLimit v.toInt64 = .ok (decide (exactIntegerLimit < v.toInt.natAbs)) := by
  have more : v.toInt64 ≠ Int64.minValue := by
    intro same
    have low := Int32.le_toInt v
    have least := congrArg Int64.toInt same
    rw [Int32.toInt_toInt64, Int64.toInt_minValue] at least
    omega
  rw [overLimit_eq more, Int32.toInt_toInt64]

section
variable {α : Type} {data : Array α} {p : α → Bool}

-- A count that takes the test of each element, whatever else its steps check.
theorem foldlM_countP {step : Nat → α → Except KernelError Nat} (limit : Nat)
    (steps : ∀ v ∈ data, ∀ n < limit, step n v = .ok (if p v then n + 1 else n)) (small : data.size ≤ limit) :
    data.foldlM step 0 = .ok (data.countP p) := by
  rw [← Array.foldlM_toList, ← Array.countP_toList]
  have each : ∀ v ∈ data.toList, ∀ n < limit, step n v = .ok (if p v then n + 1 else n) :=
    fun v member => steps v (Array.mem_toList_iff.mp member)
  have counted : ∀ (rest : List α) (n : Nat), (∀ v ∈ rest, v ∈ data.toList) → n + rest.length ≤ limit →
      rest.foldlM step n = .ok (n + rest.countP p) := by
    intro rest
    induction rest with
    | nil =>
      intro n _ _
      rfl
    | cons v rest ih =>
      intro n within room
      rw [List.length_cons] at room
      rw [List.foldlM_cons, each v (within v List.mem_cons_self) n (by omega)]
      refine (ih _ (fun w member => within w (List.mem_cons_of_mem v member)) (by split <;> omega)).trans ?_
      rw [List.countP_cons]
      congr 1
      split <;> omega
  rw [counted data.toList 0 (fun _ member => member) (by rw [Array.length_toList]; omega), Nat.zero_add]

theorem tally_eq {test : α → Except KernelError Bool} (each : ∀ v ∈ data, test v = .ok (p v)) (small : data.size < sizeRange) :
    data.foldlM (tallyStep test) 0 = .ok (data.countP p) := by
  refine foldlM_countP (sizeRange - 1) ?_ (by omega)
  intro v member n room
  rw [tallyStep, each v member]
  cases p v with
  | true => exact sized_eq (by omega)
  | false => rfl

end

variable {e : Elements}

theorem inexactCount_eq (more : ¬ e.HoldsLeast) : e.inexactCount = .ok e.inexact := by
  cases e with
  | f32 | f64 | i32 => rfl
  | i64 data =>
    refine foldlM_countP data.size ?_ le_rfl
    intro v member n _
    have other : v ≠ Int64.minValue := by
      rintro rfl
      exact more member
    rw [magnitude_eq other]
    simp only [bind, Except.bind, abs_eq other, decide_eq_true_eq]

theorem tallied_least (least : e.HoldsLeast) : e.tallied = .error .overflow := by
  cases e with
  | f32 | f64 | i32 => exact least.elim
  | i64 data =>
    rw [tallied, ← Array.foldlM_toList]
    refine foldlM_stops (x := Int64.minValue) (fun count => ?_) ?_ (Array.mem_toList_iff.mpr least) 0
    · rfl
    intro count v failure failed
    rcases bind_eq_error failed with lost | ⟨large, _, failed⟩
    · exact magnitude_error (map_eq_error lost)
    · split at failed
      · unfold sized at failed
        split at failed <;> cases failed
        rfl
      · cases failed

theorem tallied_eq (small : e.size < sizeRange) : e.tallied = e.inexactCount := by
  by_cases least : e.HoldsLeast
  · rw [tallied_least least, inexactCount_least least]
  · rw [inexactCount_eq least]
    cases e with
    | f32 data => rfl
    | f64 data => exact tally_eq (fun _ _ => rfl) small
    | i32 data => exact tally_eq (fun v _ => overLimit_widened v) small
    | i64 data =>
      refine tally_eq (fun v member => overLimit_eq ?_) small
      rintro rfl
      exact least member

end Elements

namespace Codec

-- The encoded array and its count of inexact elements, with every size on the way checked too.
def encodeChecked (c : Codec) (t : Tensor) : Except KernelError (Encoded × Nat) := do
  let texture ← Texture.checked t.size
  let texels ← sized .overflow (texture.width * texture.height)
  let words := t.singles ++ Array.replicate (texels - t.singles.size) Single.zero
  let count ← t.data.tallied
  let _ ← sized .overflow (words.size * 4)
  .ok (⟨Bytes.ofSingles c.order words, texture, t.shape, t.type⟩, count)

variable (c : Codec) (t : Tensor)

theorem size_padded {texture : Texture} (laid : Texture.ofElements t.size = .ok texture) :
    (t.singles ++ Array.replicate (texture.texels - t.singles.size) Single.zero).size = texture.texels := by
  have size : t.singles.size = t.size := t.data.size_singles
  have enough := Texture.le_texels t.size texture laid
  rw [Array.size_append, Array.size_replicate, size]
  omega

-- Nothing but a magnitude is ever out of range.
theorem encodeChecked_eq {texture : Texture} (laid : Texture.ofElements t.size = .ok texture) :
    c.encodeChecked t = c.encodeNoting t := by
  obtain ⟨checked, room⟩ := Texture.checked_laid laid
  have bytes : texture.texels * 4 < sizeRange := room
  have small : t.data.size < sizeRange := by
    have enough : t.data.size ≤ texture.texels := Texture.le_texels t.size texture laid
    omega
  have texels : sized KernelError.overflow (texture.width * texture.height) = .ok texture.texels :=
    sized_eq (by change texture.texels < _; omega)
  unfold encodeChecked encodeNoting
  simp only [laid, checked, texels, bind, Except.bind, size_padded t laid, sized_eq bytes, Elements.tallied_eq small]

-- An admitted array is encoded in its shape and type and to the end of its texture, and the count taken of it is exact.
-- The one exception is an array that holds the least 64-bit integer. No other step can leave its type.
theorem admitted_arrays_are_encoded (filled : 1 ≤ t.size) (small : t.size ≤ maxTextureSide * maxTextureSide) :
    c.encodeChecked t = c.encodeNoting t ∧
      (¬ t.data.HoldsLeast → ∃ b, c.encode t = .ok b ∧ c.encodeNoting t = .ok (b, t.data.inexact) ∧ b.shape = t.shape ∧
        b.type = t.type ∧ b.bytes.size = b.texture.byteSize) ∧
      (t.data.HoldsLeast → c.encode t = .error .overflow) := by
  obtain ⟨texture, laid⟩ := Texture.ofElements_ok t.size filled small
  refine ⟨c.encodeChecked_eq t laid, ?_, c.encode_least t texture laid⟩
  intro more
  refine ⟨_, c.encode_laid t texture laid more, ?_, rfl, rfl, ?_⟩
  · unfold encodeNoting
    rw [laid, Elements.inexactCount_eq more]
    rfl
  · rw [Bytes.size_ofSingles, size_padded t laid]
    rfl

-- Both ends of the 32-bit integers, and the least 64-bit integer but one.
def ends : Tensor := ⟨[2], .i32 #[Int32.minValue, Int32.maxValue]⟩
def almostLeast : Tensor := ⟨[1], .i64 #[Int64.minValue + 1]⟩

theorem ends_are_encoded : (∃ b, Codec.encodeChecked ⟨.little⟩ ends = .ok (b, 2)) ∧
    ∃ b, Codec.encodeChecked ⟨.big⟩ almostLeast = .ok (b, 1) := by
  obtain ⟨same, one, _⟩ := admitted_arrays_are_encoded ⟨.little⟩ ends (by decide) (by decide)
  obtain ⟨alike, two, _⟩ := admitted_arrays_are_encoded ⟨.big⟩ almostLeast (by decide) (by decide)
  have more : ¬ almostLeast.data.HoldsLeast := by
    intro member
    have least := List.mem_singleton.mp (Array.mem_toList_iff.mpr member)
    revert least
    decide
  obtain ⟨first, _, noted, _⟩ := one id
  obtain ⟨second, _, counted, _⟩ := two more
  exact ⟨⟨first, same.trans noted⟩, ⟨second, alike.trans counted⟩⟩

-- One element, and no word for it: its magnitude is not a 64-bit integer.
def least : Tensor := ⟨[1], .i64 #[Int64.minValue]⟩

theorem least_is_not_encoded : least.Shaped ∧ 1 ≤ least.size ∧ least.size ≤ maxTextureSide * maxTextureSide ∧
    Codec.encode ⟨.little⟩ least = .error .overflow := by
  obtain ⟨texture, laid⟩ := Texture.ofElements_ok least.size (by decide) (by decide)
  refine ⟨rfl, by decide, by decide, Codec.encode_least _ least texture laid ?_⟩
  exact Array.mem_toList_iff.mp (List.mem_singleton.mpr rfl)

end Codec
end GridKernel
