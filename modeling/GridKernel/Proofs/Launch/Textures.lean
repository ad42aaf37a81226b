import GridKernel.Proofs.Buffer.RoundTrip
import GridKernel.Proofs.Launch.Execution
import GridKernel.Proofs.Number.Floor

namespace GridKernel

namespace Whole

-- `k / 2 ^ s` is the 53-bit number nearest to the square root of `v`, which lies less than half a step from it on either side.
structure RootRounded (v k s : Nat) : Prop where
  precise : 2 ^ 52 ≤ k ∧ k ≤ 2 ^ 53
  below : (2 * k - 1) * (2 * k - 1) < 4 * (v * (2 ^ s * 2 ^ s))
  above : 4 * (v * (2 ^ s * 2 ^ s)) < (2 * k + 1) * (2 * k + 1)

theorem nearestRoot_between (m : Nat) (positive : 0 < m) :
    (2 * nearestRoot m - 1) * (2 * nearestRoot m - 1) < 4 * m ∧
      4 * m < (2 * nearestRoot m + 1) * (2 * nearestRoot m + 1) := by
  have low := Nat.sqrt_le m
  have high := Nat.sqrt_le_add m
  have some := Nat.sqrt_pos.mpr positive
  unfold nearestRoot
  generalize m.sqrt = r at low high some ⊢
  obtain ⟨j, rfl⟩ : ∃ j, r = j + 1 := ⟨r - 1, by omega⟩
  have square : (j + 1) * (j + 1) = j * j + 2 * j + 1 := by ring
  have one : (2 * (j + 1) - 1) * (2 * (j + 1) - 1) = 4 * (j * j) + 4 * j + 1 := by
    rw [show 2 * (j + 1) - 1 = 2 * j + 1 by omega]
    ring
  have two : (2 * (j + 1) + 1) * (2 * (j + 1) + 1) = 4 * (j * j) + 12 * j + 9 := by ring
  have three : (2 * (j + 1 + 1) + 1) * (2 * (j + 1 + 1) + 1) = 4 * (j * j) + 20 * j + 25 := by ring
  split
  · rw [three, show 2 * (j + 1 + 1) - 1 = 2 * (j + 1) + 1 by omega, two]
    omega
  · rw [one, two]
    omega

end Whole

theorem Double.nearestNat_le (n : Nat) (word : n < 2 ^ 64) : nearestNat n ≤ 2 ^ 64 := by
  unfold nearestNat
  split
  · omega
  · rename_i large
    have log : n.log2 < 64 := (Nat.log2_lt (by omega)).mpr word
    have top : n < 2 ^ (n.log2 + 1) := Nat.lt_log2_self
    have long : 52 ≤ n.log2 := (Nat.le_log2 (by omega)).mpr (by omega)
    have kept : n / 2 ^ (n.log2 - 52) < 2 ^ 53 := by
      rw [Nat.div_lt_iff_lt_mul (Nat.two_pow_pos _), ← pow_add, show 53 + (n.log2 - 52) = n.log2 + 1 by omega]
      exact top
    have rounded := (roundShift_bounds n (n.log2 - 52)).2
    rw [Nat.shiftLeft_eq]
    calc roundShift n (n.log2 - 52) * 2 ^ (n.log2 - 52) ≤ 2 ^ 53 * 2 ^ (n.log2 - 52) := Nat.mul_le_mul_right _ (by omega)
      _ = 2 ^ (n.log2 + 1) := by rw [← pow_add, show 53 + (n.log2 - 52) = n.log2 + 1 by omega]
      _ ≤ 2 ^ 64 := Nat.pow_le_pow_right (by omega) (by omega)

namespace Whole

-- A root with its leading one at `top` has 53 bits in steps of `1 / u`.
theorem nearestRoot_precise {v top u : Nat} (low : top ≤ v.sqrt) (high : v.sqrt < 2 * top) (bits : top * u = 2 ^ 52)
    (unit : 0 < u) : 2 ^ 52 ≤ nearestRoot (v * (u * u)) ∧ nearestRoot (v * (u * u)) ≤ 2 ^ 53 := by
  have floor : 2 ^ 52 ≤ (v * (u * u)).sqrt := by
    rw [Nat.le_sqrt, ← bits]
    calc top * u * (top * u) = top * top * (u * u) := by ring
      _ ≤ v * (u * u) := Nat.mul_le_mul_right _ ((Nat.mul_self_le_mul_self low).trans (Nat.sqrt_le v))
  have ceiling : (v * (u * u)).sqrt < 2 ^ 53 := by
    have wide : v < 2 * top * (2 * top) := (Nat.lt_succ_sqrt v).trans_le (Nat.mul_self_le_mul_self high)
    rw [Nat.sqrt_lt, show 2 ^ 53 = 2 * (top * u) by rw [bits]; rfl]
    calc v * (u * u) < 2 * top * (2 * top) * (u * u) := Nat.mul_lt_mul_of_pos_right wide (Nat.mul_pos unit unit)
      _ = 2 * (top * u) * (2 * (top * u)) := by ring
  refine ⟨floor.trans (sqrt_le_nearestRoot _), ?_⟩
  unfold nearestRoot
  split <;> omega

-- The side is the ceiling of a root that is rounded once, and the count is rounded once before.
theorem ceilRoot_rounded (n : Nat) (positive : 0 < n) (word : n < 2 ^ 64) :
    ∃ k s, RootRounded (Double.nearestNat n) k s ∧ ceilRoot n = (k + (2 ^ s - 1)) / 2 ^ s := by
  have some := Double.nearestNat_pos n positive
  have small := Double.nearestNat_le n word
  unfold ceilRoot
  simp only [Nat.shiftLeft_eq, Nat.shiftRight_eq_div_pow, one_mul, Nat.two_mul, pow_add]
  generalize Double.nearestNat n = v at some small ⊢
  have root : v.sqrt ≠ 0 := (Nat.sqrt_pos.mpr some).ne'
  have short : v.sqrt.log2 ≤ 32 := by
    have bound : v.sqrt < 2 ^ 33 := Nat.sqrt_lt.mpr (by omega)
    have log := (Nat.log2_lt root).mpr bound
    omega
  have bits : 2 ^ v.sqrt.log2 * 2 ^ (52 - v.sqrt.log2) = 2 ^ 52 := by rw [← pow_add, Nat.add_sub_cancel' (by omega)]
  have high : v.sqrt < 2 * 2 ^ v.sqrt.log2 := by
    rw [Nat.mul_comm, ← pow_succ]
    exact Nat.lt_log2_self
  have unit : 0 < 2 ^ (52 - v.sqrt.log2) := Nat.two_pow_pos _
  have between := nearestRoot_between _ (Nat.mul_pos some (Nat.mul_pos unit unit))
  exact ⟨nearestRoot _, _, ⟨nearestRoot_precise (Nat.log2_self_le root) high bits unit, between.1, between.2⟩, rfl⟩

end Whole

namespace Texture

theorem ofElements_parts {count : Nat} {t : Texture} (laid : ofElements count = .ok t) :
    t.width = Whole.ceilRoot count ∧ t.height = (count + t.width - 1) / t.width := by
  unfold ofElements at laid
  split at laid
  · cases laid
  · dsimp only at laid
    split at laid
    · cases laid
    · cases laid
      exact ⟨rfl, rfl⟩

theorem ofElements_ok_iff (count : Nat) :
    (∃ t, ofElements count = .ok t) ↔ 1 ≤ count ∧ count ≤ maxTextureSide * maxTextureSide := by
  constructor
  · rintro ⟨t, laid⟩
    exact ⟨pos_of_laid laid, le_limit laid⟩
  · rintro ⟨positive, small⟩
    exact ofElements_ok count positive small

theorem ofElements_large (count : Nat) (large : maxTextureSide * maxTextureSide < count) :
    ∃ width height, ofElements count = .error (.executionFailed (.textureLimit count width height maxTextureSide)) := by
  cases laid : ofElements count with
  | ok t => exact absurd (le_limit laid) (Nat.not_le.mpr large)
  | error e =>
    unfold ofElements at laid
    split at laid
    · omega
    · dsimp only at laid
      split at laid
      · cases laid
        exact ⟨_, _, rfl⟩
      · cases laid

-- A near-square that holds all elements and cannot lose a column or a row.
structure Fits (t : Texture) (count : Nat) : Prop where
  narrow : (t.width - 1) * (t.width - 1) < count
  wide : count ≤ t.width * t.width
  holds : count ≤ t.width * t.height
  least : ∀ height, count ≤ t.width * height → t.height ≤ height
  flat : t.height ≤ t.width
  padding : t.texels - count < t.width

theorem ofElements_fits {count : Nat} {t : Texture} (laid : ofElements count = .ok t) : t.Fits count := by
  obtain ⟨side, rows⟩ := ofElements_parts laid
  have positive := pos_of_laid laid
  have small := le_limit laid
  have holds := le_texels count t laid
  obtain ⟨wide, narrow⟩ := Whole.ceilRoot_bounds count positive (by omega)
  have some := Whole.ceilRoot_pos count positive
  rw [← side] at wide narrow some
  have least : ∀ height, count ≤ t.width * height → t.height ≤ height := by
    intro height enough
    rw [rows, Nat.div_le_iff_le_mul_add_pred some]
    omega
  refine ⟨narrow, wide, holds, least, least t.width wide, ?_⟩
  have last : t.height * t.width ≤ count + t.width - 1 := by
    rw [rows]
    exact Nat.div_mul_le_self _ _
  rw [Nat.mul_comm] at last
  unfold texels
  omega

end Texture

def RunFault.Malformed : RunFault → Prop
  | .textureMismatch => True
  | .partialWord _ _ => True
  | _ => False

def KernelError.Malformed : KernelError → Prop
  | .executionFailed cause => cause.Malformed
  | _ => False

def Clean {α : Type} (x : Except RunFault α) : Prop := ∀ cause, x = .error cause → ¬ cause.Malformed

section
variable {α β : Type} {x : Except RunFault α} {f : α → Except RunFault β}

theorem Clean.ok (a : α) : Clean (.ok a) := by
  intro cause failed
  cases failed

theorem Clean.error {cause : RunFault} (fine : ¬ cause.Malformed) : Clean (.error cause : Except RunFault α) := by
  intro other failed
  cases failed
  exact fine

theorem Clean.bind (first : Clean x) (next : ∀ a, Clean (f a)) : Clean (x >>= f) := by
  intro cause failed
  rcases bind_eq_error failed with bad | ⟨a, _, bad⟩
  · exact first cause bad
  · exact next a cause bad

theorem Clean.ite {c : Prop} [Decidable c] {y : Except RunFault α} (yes : Clean x) (no : Clean y) : Clean (if c then x else y) := by
  split
  · exact yes
  · exact no

theorem Clean.mapM {γ : Type} {g : γ → Except RunFault α} {xs : List γ} (each : ∀ c ∈ xs, Clean (g c)) : Clean (xs.mapM g) := by
  intro cause failed
  obtain ⟨c, member, bad⟩ := mapM_eq_error failed
  exact each c member cause bad

end

namespace Bytes

def WholeWords (bytes : Bytes) : Prop := bytes.size % 4 = 0

theorem toWords_clean {bytes : Bytes} (whole : bytes.WholeWords) (order : ByteOrder) : Clean (toWords order 4 bytes) := by
  unfold WholeWords at whole
  unfold toWords
  rw [if_neg (not_not.mpr whole)]
  exact .ok _

theorem toSingles_clean {bytes : Bytes} (whole : bytes.WholeWords) (order : ByteOrder) : Clean (toSingles order bytes) :=
  (toWords_clean whole order).bind fun _ => .ok _

theorem wholeWords_ofWords (order : ByteOrder) (words : Array Nat) : (ofWords order 4 words).WholeWords := by
  simp [WholeWords]

end Bytes

theorem Encoded.Made.wholeWords {b : Encoded} (made : b.Made) : b.bytes.WholeWords := by
  rw [Bytes.WholeWords, made.parts.2.2, Texture.byteSize, Nat.mul_mod_left]

theorem bindWords_clean (types : List ValueType) (scalars : List Single) (shapes : List Nat) (inputs : List (Array Single)) :
    Clean (bindWords types scalars shapes inputs) := by
  fun_induction bindWords types scalars shapes inputs with
  | case1 => exact .ok _
  | case2 _ _ _ _ _ _ _ _ ih | case4 _ _ _ _ _ ih | case5 _ _ _ _ _ ih => exact ih.bind fun _ => .ok _
  | case3 | case6 => exact .error id

namespace Device

variable (d : Device) (p : DeviceProgram)

theorem arguments_clean {buffers : List Bytes} (whole : ∀ bytes ∈ buffers, bytes.WholeWords) : Clean (d.arguments p buffers) := by
  have at? (k : Nat) : (buffers.getD k #[]).WholeWords := by
    rw [List.getD_eq_getElem?_getD]
    cases found : buffers[k]? with
    | none => rfl
    | some bytes => exact whole bytes (List.mem_of_getElem? found)
  refine (Bytes.toSingles_clean (at? 0) d.order).bind fun _ => (Bytes.toWords_clean (at? 1) d.order).bind fun _ => ?_
  refine Clean.bind (Clean.mapM fun bytes member => ?_) fun _ => bindWords_clean _ _ _ _
  exact Bytes.toSingles_clean (whole bytes (List.mem_of_mem_drop (List.mem_of_mem_take member))) d.order

theorem resultWords_clean (args : List Value) (threads capacity : Nat) : Clean (resultWords p args threads capacity) := by
  refine Clean.bind (fun cause failed => ?_) fun _ => .ok _
  obtain ⟨cause, _, rfl⟩ := mapError_eq_error failed
  cases cause <;> exact id

theorem dispatch_clean {buffers : List Bytes} (whole : ∀ bytes ∈ buffers, bytes.WholeWords) (across rows : Nat) :
    Clean (d.dispatch p buffers across rows) := by
  unfold dispatch
  refine .ite (.error id) (.ite (.error id) (.ite (.error id) ?_))
  refine (d.arguments_clean p whole).bind fun _ => Clean.bind ?_ fun _ => (resultWords_clean p _ _ _).bind fun _ => .ok _
  exact .ite (.ok _) (.error id)

theorem upload_clean (bytes : Bytes) : Clean (d.upload bytes) := by
  unfold upload
  exact .ite (.error id) (.ite (.error id) (.ok _))

theorem allocate_clean (size : Nat) : Clean (d.allocate size) := by
  unfold allocate
  exact .ite (.error id) (.ite (.error id) (.ok _))

theorem read_clean (buffer : Bytes) (size : Nat) : Clean (d.read buffer size) := by
  unfold read
  exact .ite (.error id) (.ite (.error id) (.ok _))

end Device

namespace Launch

theorem uploadAll_clean (uploads : List Bytes) (d : Device) : Clean (uploadAll uploads d).2 := by
  induction uploads generalizing d with
  | nil => exact .ok _
  | cons bytes rest ih =>
    unfold uploadAll
    cases sent : d.upload bytes with
    | ok after => exact ih after
    | error cause => exact .error (d.upload_clean bytes cause sent)

theorem perform_clean (l : Launch) (p : DeviceProgram) (d : Device) (uploads : ∀ bytes ∈ l.uploads, bytes.WholeWords)
    (result : l.resultSize % 4 = 0) : Clean (l.perform p d).2 := by
  have sent := uploadAll_clean l.uploads d
  unfold perform
  generalize uploadAll l.uploads d = outcome at sent
  obtain ⟨after, _ | _⟩ := outcome
  · exact .error (sent _ rfl)
  · dsimp only
    rcases room : after.allocate l.resultSize with cause | bytes
    · exact .error (after.allocate_clean _ cause room)
    · obtain rfl : bytes = Array.replicate l.resultSize 0 := by
        rcases after.allocate_parts l.resultSize with ⟨e, refused, _⟩ | given
        · cases refused.symm.trans room
        · cases given.symm.trans room
          rfl
      have whole : ∀ bytes ∈ l.uploads ++ [Array.replicate l.resultSize 0], bytes.WholeWords := by
        intro bytes member
        rcases List.mem_append.mp member with upload | last
        · exact uploads bytes upload
        · rw [List.mem_singleton.mp last, Bytes.WholeWords, Array.size_replicate]
          exact result
      have ran := after.dispatch_clean p whole p.manifest.workgroupsX p.manifest.workgroupsY
      dsimp only
      rcases done : after.dispatch p (l.uploads ++ [Array.replicate l.resultSize 0]) p.manifest.workgroupsX
        p.manifest.workgroupsY with cause | ⟨bytes, ended⟩
      · exact .error (ran cause done)
      · exact ended.read_clean bytes _

theorem shapeWords_clean {b : Encoded} (made : b.Made) : Clean (shapeWords b) := by
  unfold shapeWords
  rw [if_neg (not_not.mpr made.parts.2.2)]
  exact .ite (.error id) (.ok _)

end Launch

theorem Texture.ofElements_wellFormed {count : Nat} {e : KernelError} (refused : ofElements count = .error e) : ¬ e.Malformed := by
  unfold ofElements at refused
  split at refused
  · cases refused
    exact id
  · dsimp only at refused
    split at refused <;> cases refused
    exact id

namespace Launch

variable {order : ByteOrder} {m : Manifest} {inputs : List Encoded} {scalars : List Single}

theorem make_wellFormed {e : KernelError} (made : ∀ b ∈ inputs, b.Made) (refused : make order m inputs scalars = .error e) :
    ¬ e.Malformed := by
  unfold make at refused
  split at refused
  · cases refused
    exact id
  · split at refused
    · cases refused
      exact id
    · rcases bind_eq_error refused with laid | ⟨_, _, rest⟩
      · exact Texture.ofElements_wellFormed laid
      · rcases bind_eq_error rest with mapped | ⟨_, _, last⟩
        · obtain ⟨cause, failed, rfl⟩ := mapError_eq_error mapped
          exact Clean.mapM (fun b member => shapeWords_clean (made b member)) cause failed
        · cases last

theorem make_wholeWords {l : Launch} (inputsMade : ∀ b ∈ inputs, b.Made) (made : make order m inputs scalars = .ok l) :
    (∀ bytes ∈ l.uploads, bytes.WholeWords) ∧ l.resultSize % 4 = 0 := by
  obtain ⟨texture, shapes, _, _, _, rfl⟩ := make_parts _ _ _ _ _ made
  refine ⟨fun bytes member => ?_, Nat.mul_mod_left _ _⟩
  rcases List.mem_cons.mp member with rfl | member
  · exact Bytes.wholeWords_ofWords _ _
  · rcases List.mem_cons.mp member with rfl | member
    · exact Bytes.wholeWords_ofWords _ _
    · obtain ⟨b, input, rfl⟩ := List.mem_map.mp member
      exact (inputsMade b input).wholeWords

end Launch

theorem Encoded.ofBytes_wellFormed {bytes : Bytes} {shape : List Nat} {type : ElementType} {e : KernelError}
    (refused : ofBytes bytes shape type = .error e) : ¬ e.Malformed := by
  rcases bind_eq_error refused with lost | ⟨_, _, refused⟩
  · rw [elementCount_eq_error lost]
    exact id
  · rcases bind_eq_error refused with laid | ⟨_, _, short⟩
    · exact Texture.ofElements_wellFormed laid
    · split at short <;> cases short
      exact id

theorem Device.run_wellFormed {d : Device} {codec : Codec} {p : DeviceProgram} {inputs : List Encoded} {scalars : List Single}
    {shape : List Nat} {e : KernelError} (inputsMade : ∀ b ∈ inputs, b.Made)
    (failed : (d.run codec p inputs scalars shape).2 = .error e) : ¬ e.Malformed := by
  unfold Device.run at failed
  cases made : Launch.make codec.order p.manifest inputs scalars with
  | error cause =>
    rw [made] at failed
    cases failed
    exact Launch.make_wellFormed inputsMade made
  | ok l =>
    obtain ⟨uploads, result⟩ := Launch.make_wholeWords inputsMade made
    have performed := l.perform_clean p d uploads result
    rw [made] at failed
    dsimp only at failed
    generalize l.perform p d = outcome at performed failed
    obtain ⟨after, cause | bytes⟩ := outcome
    · cases failed
      have fine := performed cause rfl
      cases cause <;> exact fine
    · exact Encoded.ofBytes_wellFormed failed

namespace Codec

variable (c : Codec) {b : Encoded}

theorem words_made (made : b.Made) : ∃ words, c.words b = .ok words := by
  obtain ⟨countable, _, full⟩ := made.parts
  obtain ⟨words, read, _⟩ := Bytes.toSingles_whole c.order b.bytes b.texture.texels full
  exact ⟨_, c.words_read countable read⟩

theorem decode_wellFormed (made : b.Made) {shape : List Nat} {e : KernelError} (failed : c.decode b shape = .error e) :
    ¬ e.Malformed := by
  by_cases countable : Countable shape
  · rw [c.decode_counted made.parts.1 countable] at failed
    split at failed
    · cases failed
      exact id
    · obtain ⟨words, read⟩ := c.words_made made
      rw [read] at failed
      rcases Tensor.ofShape_eq_error failed with rfl | ⟨cause, rfl⟩ <;> exact id
  · rw [c.decode_lost countable] at failed
    cases failed
    exact id

end Codec

-- From one element to the square of the limit, and for no other count, there is a texture. It is the tightest near-square
-- although its side is taken from a rounded root, and every buffer fills the one of its count.
theorem textures_are_exact :
    (∀ n, (∃ t, Texture.ofElements n = .ok t) ↔ 1 ≤ n ∧ n ≤ maxTextureSide * maxTextureSide) ∧
    Texture.ofElements 0 = .error (.invalidArgument .emptyLayout) ∧
    (∀ n, maxTextureSide * maxTextureSide < n →
      ∃ width height, Texture.ofElements n = .error (.executionFailed (.textureLimit n width height maxTextureSide))) ∧
    (∀ n t, Texture.ofElements n = .ok t → t.width = Whole.ceilRoot n ∧ t.Fits n) ∧
    (∀ n, 0 < n → n < 2 ^ 64 →
      ∃ k s, Whole.RootRounded (Double.nearestNat n) k s ∧ Whole.ceilRoot n = (k + (2 ^ s - 1)) / 2 ^ s) ∧
    (∀ b : Encoded, b.Made → b.size = .ok (axisProduct b.shape) ∧
      Texture.ofElements (axisProduct b.shape) = .ok b.texture ∧
      b.bytes.size = 4 * (b.texture.width * b.texture.height)) ∧
    (∀ (c : Codec) (b : Encoded) (shape : List Nat) (e : KernelError), b.Made → c.decode b shape = .error e → ¬ e.Malformed) ∧
    ∀ (d : Device) (codec : Codec) (p : DeviceProgram) (inputs : List Encoded) (scalars : List Single) (shape : List Nat)
      (e : KernelError), (∀ b ∈ inputs, b.Made) → (d.run codec p inputs scalars shape).2 = .error e → ¬ e.Malformed := by
  refine ⟨Texture.ofElements_ok_iff, rfl, Texture.ofElements_large, ?_, Whole.ceilRoot_rounded, ?_, ?_, ?_⟩
  · intro n t laid
    exact ⟨(Texture.ofElements_parts laid).1, Texture.ofElements_fits laid⟩
  · intro b made
    obtain ⟨countable, laid, full⟩ := made.parts
    exact ⟨Encoded.size_counted countable, laid, full.trans (Nat.mul_comm _ _)⟩
  · intro c b shape e made failed
    exact c.decode_wellFormed made failed
  · intro d codec p inputs scalars shape e made failed
    exact Device.run_wellFormed made failed

-- The largest texture is full, and one element more has none. Two words share a texture with no padding.
theorem largest_texture_is_full :
    (∃ t, Texture.ofElements 268435456 = .ok t ∧ t.width = 16384 ∧ t.height = 16384) ∧
      (∃ width height, Texture.ofElements 268435457 = .error (.executionFailed (.textureLimit 268435457 width height 16384))) ∧
      ∃ b, Codec.encode ⟨.big⟩ ⟨[2], .f32 #[⟨0x3f800000⟩, ⟨0x80000000⟩]⟩ = .ok b ∧ b.Made ∧
        b.bytes.size = 4 * (b.texture.width * b.texture.height) ∧
        (∀ e, Codec.decode ⟨.little⟩ b [7] = .error e → ¬ e.Malformed) ∧
        ∀ (d : Device) (p : DeviceProgram) (e : KernelError), (d.run ⟨.big⟩ p [b] [] [2]).2 = .error e → ¬ e.Malformed := by
  obtain ⟨known, _, large, exact, _, full, decoded, ran⟩ := textures_are_exact
  refine ⟨?_, large 268435457 (by decide), ?_⟩
  · obtain ⟨t, laid⟩ := (known 268435456).mpr (by decide)
    obtain ⟨_, narrow, wide, holds, _, flat, _⟩ := exact _ t laid
    have low : t.width - 1 < 16384 := Nat.mul_self_lt_mul_self_iff.mp narrow
    have high : 16384 ≤ t.width := Nat.mul_self_le_mul_self_iff.mp wide
    have width : t.width = 16384 := by omega
    rw [width] at holds flat
    exact ⟨t, laid, width, by omega⟩
  · have shaped : Tensor.Shaped ⟨[2], .f32 #[⟨0x3f800000⟩, ⟨0x80000000⟩]⟩ := rfl
    obtain ⟨texture, laid⟩ := (known 2).mpr (by decide)
    have encoded := Codec.encode_laid ⟨.big⟩ ⟨[2], .f32 #[⟨0x3f800000⟩, ⟨0x80000000⟩]⟩ texture laid id
    have made := Encoded.Made.encoded shaped encoded
    refine ⟨_, encoded, made, (full _ made).2.2, fun e failed => decoded _ _ _ e made failed, fun d p e failed => ?_⟩
    exact ran d _ p _ _ _ e (by simpa using made) failed

end GridKernel
