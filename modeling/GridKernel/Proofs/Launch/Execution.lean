import GridKernel.Launch
import GridKernel.Proofs.Buffer.Words
import GridKernel.Proofs.Launch.Arguments

namespace GridKernel

-- A launch has a thread for every element, however its groups are laid out in rows.
theorem Manifest.covers (types : List ValueType) (grid : Grid) :
    let m := Manifest.ofTypes types grid Shader.workgroupSize
    grid.total ≤ m.workgroupsX * m.workgroupsY * m.workgroupSize ∧
      m.workgroupsX * m.workgroupsY * m.workgroupSize < sizeRange := by
  have bounded : grid.total < 0x100000000 := grid.bounded
  simp only [ofTypes, Shader.workgroupSize, maxWorkgroups]
  generalize hg : max ((grid.total + 256 - 1) / 256) 1 = groups
  have enough : grid.total ≤ groups * 256 := by omega
  have present : 0 < groups := by omega
  have few : groups ≤ 2 ^ 24 := by omega
  generalize ha : min groups 65535 = across
  have wide : 0 < across := by omega
  have narrow : across < 2 ^ 16 := by omega
  have rows := Nat.lt_div_mul_add (a := groups + across - 1) wide
  generalize hr : (groups + across - 1) / across = r at rows
  have high : r ≤ 2 ^ 25 := by
    rw [← hr]
    exact le_trans (Nat.div_le_self _ _) (by omega)
  rw [Nat.mod_eq_of_lt (by omega : across < 0x100000000), Nat.mod_eq_of_lt (by omega : r < 0x100000000)]
  rw [Nat.mul_comm] at rows
  have covered : groups ≤ across * r := by omega
  have small : across * r ≤ 2 ^ 16 * 2 ^ 25 := Nat.mul_le_mul (le_of_lt narrow) high
  have all : grid.total ≤ across * r * 256 := le_trans enough (Nat.mul_le_mul_right 256 covered)
  have representable : across * r * 256 < sizeRange := by
    rw [sizeRange]
    omega
  exact ⟨all, representable⟩

theorem Grid.total_pos (grid : Grid) : 0 < grid.total := by
  obtain ⟨axes, ranked, positive, bounded⟩ := grid
  match axes with
  | [x] => simpa [total, axisProduct] using positive
  | [x, y] =>
    simp only [List.mem_cons, List.not_mem_nil, or_false, forall_eq_or_imp, forall_eq] at positive
    simpa [total, axisProduct] using Nat.mul_pos positive.1 positive.2
  | [x, y, z] =>
    simp only [List.mem_cons, List.not_mem_nil, or_false, forall_eq_or_imp, forall_eq] at positive
    simpa [total, axisProduct] using Nat.mul_pos (Nat.mul_pos positive.1 positive.2.1) positive.2.2
  | _ :: _ :: _ :: _ :: _ =>
    simp only [List.length_cons] at ranked
    omega

theorem Grid.axisProduct_outputShape (grid : Grid) : axisProduct grid.outputShape = grid.total := by
  simp only [outputShape, total, axisProduct, ← List.prod_eq_foldl, List.prod_reverse]

theorem Grid.countable (grid : Grid) : Countable grid.outputShape := by
  have bounded : grid.total < 0x100000000 := grid.bounded
  apply countable_of_pos
  · rw [grid.axisProduct_outputShape]
    exact grid.total_pos
  · rw [grid.axisProduct_outputShape]
    exact lt_trans bounded (by decide)

theorem Grid.ofShape_words (grid : Grid) (words : Array Single) (size : words.size = grid.total) :
    Tensor.ofShape grid.outputShape (.f32 words) = .ok ⟨grid.outputShape, .f32 words⟩ := by
  have ranked := grid.ranked
  apply Tensor.ofShape_counted _ grid.countable
  · rw [grid.axisProduct_outputShape, Elements.size, size]
  · simpa only [outputShape, List.length_reverse] using ranked

theorem collect_size {ε α : Type} (element : Nat → Except ε α) (count id : Nat) (done words : Array α)
    (ran : collect element count id done = .ok words) : words.size = done.size + count := by
  induction count generalizing id done with
  | zero => cases ran; rfl
  | succ count ih =>
    unfold collect at ran
    split at ran
    · rw [ih _ _ ran, Array.size_push]
      omega
    · cases ran

theorem Host.words_size (functions : Snapshot) (body : Body) (types : List ValueType) (grid : Grid)
    (args : List Arg) (words : Array Single) (ran : Host.words functions body types grid args = .ok words) :
    words.size = grid.total := by
  obtain ⟨values, _, collected⟩ := bind_eq_ok ran
  simpa using collect_size _ _ _ _ _ collected

-- On the host a run ends in the words of all elements or in the first failure of evaluation.
theorem Host.run_eq (functions : Snapshot) (body : Body) (types : List ValueType) (grid : Grid)
    (args : List Arg) :
    Host.run functions body types grid args =
      ((Host.words functions body types grid args).mapError .ofEval).map
        fun words => ⟨grid.outputShape, .f32 words⟩ := by
  unfold Host.run
  cases ran : Host.words functions body types grid args with
  | error e => rfl
  | ok words =>
    have size := Host.words_size functions body types grid args words ran
    simp [Except.mapError, Except.map, bind, Except.bind, grid.ofShape_words words size]

namespace Device

theorem upload_parts (d : Device) (bytes : Bytes) :
    (∃ e, d.upload bytes = .error e ∧ e.Technical) ∨
      ∃ after, d.upload bytes = .ok after ∧ after.hostOrder = d.hostOrder := by
  unfold upload
  split
  · exact .inl ⟨_, rfl, trivial⟩
  · split
    · exact .inl ⟨_, rfl, trivial⟩
    · exact .inr ⟨_, rfl, rfl⟩

theorem allocate_parts (d : Device) (size : Nat) :
    (∃ e, d.allocate size = .error e ∧ e.Technical) ∨ d.allocate size = .ok (Array.replicate size 0) := by
  unfold allocate
  split
  · exact .inl ⟨_, rfl, trivial⟩
  · split
    · exact .inl ⟨_, rfl, trivial⟩
    · exact .inr rfl

theorem read_parts (d : Device) (buffer : Bytes) (size : Nat) :
    (∃ e, d.read buffer size = .error e ∧ e.Technical) ∨ d.read buffer size = .ok (buffer.take size) := by
  unfold read
  split
  · exact .inl ⟨_, rfl, trivial⟩
  · split
    · exact .inl ⟨_, rfl, trivial⟩
    · exact .inr rfl

end Device

namespace Launch

theorem make_parts (order : ByteOrder) (m : Manifest) (inputs : List Encoded) (scalars : List Single)
    (l : Launch) (made : make order m inputs scalars = .ok l) :
    ∃ texture shapes, inputs.length = m.arrayParams.length ∧
      Texture.ofElements m.outputLength = .ok texture ∧ inputs.mapM shapeWords = .ok shapes ∧
      l = ⟨Bytes.ofWords order 4 (padded (scalars.map (·.bits.toNat)).toArray) ::
            Bytes.ofWords order 4 (padded shapes.flatten.toArray) :: inputs.map (·.bytes),
          texture.byteSize⟩ := by
  unfold make at made
  split at made
  · cases made
  · rename_i inputCount
    split at made
    · cases made
    · obtain ⟨texture, laid, rest⟩ := bind_eq_ok made
      obtain ⟨shapes, mapped, last⟩ := bind_eq_ok rest
      cases last
      exact ⟨texture, shapes, by simpa using inputCount, laid, mapError_eq_ok mapped, rfl⟩

theorem make_error (order : ByteOrder) (m : Manifest) (inputs : List Encoded) (scalars : List Single)
    (e : KernelError) (refused : make order m inputs scalars = .error e) (positive : 0 < m.outputLength) :
    e.Technical := by
  unfold make at refused
  split at refused
  · cases refused; trivial
  · split at refused
    · cases refused; trivial
    · rcases bind_eq_error refused with laid | ⟨_, _, rest⟩
      · exact Texture.ofElements_error _ _ laid positive
      · rcases bind_eq_error rest with mapped | ⟨_, _, last⟩
        · obtain ⟨cause, failed, rfl⟩ := mapError_eq_error mapped
          obtain ⟨input, _, reason⟩ := mapM_eq_error failed
          unfold shapeWords at reason
          split at reason
          · cases reason; trivial
          · split at reason <;> cases reason
            trivial
        · cases last

theorem uploadAll_parts (uploads : List Bytes) (d : Device) :
    (uploadAll uploads d).1.hostOrder = d.hostOrder ∧
      ∀ e, (uploadAll uploads d).2 = .error e → e.Technical := by
  induction uploads generalizing d with
  | nil => exact ⟨rfl, nofun⟩
  | cons bytes rest ih =>
    rcases d.upload_parts bytes with ⟨e, refused, technical⟩ | ⟨after, sent, order⟩
    · simp [uploadAll, refused, technical]
    · obtain ⟨kept, failures⟩ := ih after
      simp only [uploadAll, sent]
      exact ⟨kept.trans order, failures⟩

def computed (l : Launch) (p : DeviceProgram) (d : Device) : Except RunFault (Array Single) := do
  let values ← d.arguments p (l.uploads ++ [Array.replicate l.resultSize 0])
  let threads ← sized .overflow (p.manifest.workgroupsX * p.manifest.workgroupsY * p.manifest.workgroupSize)
  Device.resultWords p values threads (l.resultSize / 4)

theorem dispatch_parts (l : Launch) (p : DeviceProgram) (d : Device) :
    let sent := d.dispatch p (l.uploads ++ [Array.replicate l.resultSize 0]) p.manifest.workgroupsX
      p.manifest.workgroupsY
    (∃ e, sent = .error e ∧ (e.Technical ∨ l.computed p d = .error e)) ∨
      ∃ words after, sent = .ok (Bytes.ofSingles d.order words, after) ∧ after.hostOrder = d.hostOrder ∧
        l.computed p d = .ok words := by
  unfold Device.dispatch computed
  dsimp only
  split
  · exact .inl ⟨_, rfl, .inl trivial⟩
  · split
    · exact .inl ⟨_, rfl, .inl trivial⟩
    · split
      · exact .inl ⟨_, rfl, .inl trivial⟩
      · cases d.arguments p (l.uploads ++ [Array.replicate l.resultSize 0]) with
        | error e => exact .inl ⟨e, rfl, .inr rfl⟩
        | ok values =>
          simp only [bind, Except.bind, List.getLastD_concat, Array.size_replicate]
          cases sized RunFault.overflow (p.manifest.workgroupsX * p.manifest.workgroupsY * p.manifest.workgroupSize) with
          | error e => exact .inl ⟨e, rfl, .inr rfl⟩
          | ok threads =>
            dsimp only
            cases Device.resultWords p values threads (l.resultSize / 4) with
            | error e => exact .inl ⟨e, rfl, .inr rfl⟩
            | ok words => exact .inr ⟨words, _, rfl, rfl, rfl⟩

-- Nothing here changes the byte order, so the buffers read as they were written.
theorem perform_parts (l : Launch) (p : DeviceProgram) (d : Device) :
    (l.perform p d).1.hostOrder = d.hostOrder ∧
      ((∃ e, (l.perform p d).2 = .error e ∧ (e.Technical ∨ l.computed p d = .error e)) ∨
        ∃ words, (l.perform p d).2 = .ok ((Bytes.ofSingles d.order words).take l.resultSize) ∧
          l.computed p d = .ok words) := by
  have uploaded := uploadAll_parts l.uploads d
  unfold perform
  generalize uploadAll l.uploads d = sent at uploaded
  obtain ⟨after, result⟩ := sent
  obtain ⟨sameOrder, failures⟩ := uploaded
  cases result with
  | error e => exact ⟨sameOrder, .inl ⟨e, rfl, .inl (failures e rfl)⟩⟩
  | ok _ =>
    have order : after.order = d.order := congrArg (Option.getD · ByteOrder.little) sameOrder
    have same : l.computed p after = l.computed p d := by simp only [computed, Device.arguments, order]
    rcases after.allocate_parts l.resultSize with ⟨e, refused, technical⟩ | room
    · simp only [refused]
      exact ⟨sameOrder, .inl ⟨e, rfl, .inl technical⟩⟩
    · rcases l.dispatch_parts p after with ⟨e, failed, cause⟩ | ⟨words, ended, ran, kept, made⟩
      · simp only [room, failed]
        exact ⟨sameOrder, .inl ⟨e, rfl, same ▸ cause⟩⟩
      · simp only [room, ran, order]
        refine ⟨kept.trans sameOrder, ?_⟩
        rcases ended.read_parts (Bytes.ofSingles d.order words) l.resultSize with ⟨e, unread, technical⟩ | read
        · exact .inl ⟨e, unread, .inl technical⟩
        · exact .inr ⟨words, read, same ▸ made⟩

theorem padded_prefix (words : Array Nat) : ∃ rest, padded words = words ++ rest ∧ ∀ n ∈ rest, n < 0x100000000 := by
  unfold padded
  split
  · rename_i empty
    exact ⟨#[0], by simp [Array.isEmpty_iff.mp empty], by simp⟩
  · exact ⟨#[], by simp, by simp⟩

-- Scalars and shapes come out of their buffers followed by padding at most.
theorem toWords_padded (order : ByteOrder) (words : Array Nat) (small : ∀ n ∈ words, n < 0x100000000) :
    ∃ rest, Bytes.toWords order 4 (Bytes.ofWords order 4 (padded words)) = .ok (words ++ rest) := by
  obtain ⟨rest, shape, zero⟩ := padded_prefix words
  refine ⟨rest, ?_⟩
  rw [shape]
  apply Bytes.toWords_ofWords
  intro n member
  rcases Array.mem_append.mp member with front | back
  · exact small n front
  · exact zero n back

theorem scalars_back (order : ByteOrder) (scalars : List Single) :
    ∃ rest, Bytes.toSingles order (Bytes.ofWords order 4 (padded (scalars.map (·.bits.toNat)).toArray)) =
      .ok (scalars ++ rest).toArray := by
  obtain ⟨rest, words⟩ := toWords_padded order (scalars.map (·.bits.toNat)).toArray (by
    intro n member
    simp only [List.mem_toArray, List.mem_map] at member
    obtain ⟨w, _, rfl⟩ := member
    exact w.bits.toNat_lt)
  refine ⟨(rest.map fun n => ⟨n.toUInt32⟩).toList, ?_⟩
  have same : ((fun n : Nat => (⟨n.toUInt32⟩ : Single)) ∘ fun w : Single => w.bits.toNat) = id := by
    funext w
    simp
  simp [Bytes.toSingles, words, bind, Except.bind, same]

theorem shapeWords_parts (b : Encoded) (sizes : List Nat) (checked : shapeWords b = .ok sizes) :
    sizes = paddedShape b.shape ∧ ∀ n ∈ sizes, n < 0x100000000 := by
  unfold shapeWords at checked
  split at checked
  · cases checked
  · split at checked
    · cases checked
    · rename_i short
      cases checked
      exact ⟨rfl, by simpa [List.any_eq_true] using short⟩

theorem inputs_back (codec : Codec) (tensors : List Tensor) (inputs : List Encoded) (shapes : List (List Nat))
    (encoded : List.Forall₂ (fun t b => codec.encode t = .ok b) tensors inputs)
    (checked : List.Forall₂ (fun b sizes => shapeWords b = .ok sizes) inputs shapes) :
    shapes.flatten = tensors.flatMap (fun t => paddedShape t.shape) ∧ (∀ n ∈ shapes.flatten, n < 0x100000000) ∧
      ∃ words, (inputs.map (·.bytes)).mapM (Bytes.toSingles codec.order) = .ok words ∧
        List.Forall₂ PaddedWords tensors words := by
  induction encoded generalizing shapes with
  | nil =>
    cases checked
    exact ⟨rfl, by simp, [], rfl, .nil⟩
  | @cons t _ _ _ first _ ih =>
    cases checked with
    | cons sizes others =>
      obtain ⟨flat, small, words, read, padding⟩ := ih _ others
      obtain ⟨texture, _, rfl⟩ := codec.encode_parts _ _ first
      obtain ⟨rfl, fits⟩ := shapeWords_parts _ _ sizes
      refine ⟨by simp [flat], ?_, ?_⟩
      · intro n member
        rcases List.mem_append.mp (List.flatten_cons ▸ member) with own | other
        · exact fits n own
        · exact small n other
      · refine ⟨(t.singles ++ Array.replicate (texture.texels - t.singles.size) Single.zero) :: words, ?_,
          .cons ⟨_, rfl⟩ padding⟩
        rw [List.map_cons, List.mapM_cons, read, Bytes.toSingles_ofSingles]
        rfl

-- What the device binds reads like the arguments the host rounds and binds.
theorem arguments_alike (codec : Codec) (d : Device) (order : d.order = codec.order) (p : DeviceProgram)
    (args : List Arg) (fits : FittingArgs p.request.types args) (inputs : List Encoded)
    (encoded : (args.filterMap Arg.tensor?).mapM codec.encode = .ok inputs) (l : Launch)
    (made : make codec.order p.manifest inputs (args.filterMap Arg.word?) = .ok l) (result : Bytes) :
    ∃ values hosts, d.arguments p (l.uploads ++ [result]) = .ok values ∧
      Value.bindAll p.request.types (args.map Arg.rounded) = .ok hosts ∧ AlikeArgs values hosts := by
  obtain ⟨texture, shapes, count, _, checked, rfl⟩ := make_parts _ _ _ _ _ made
  obtain ⟨flat, small, words, read, padding⟩ :=
    inputs_back codec _ inputs shapes (mapM_eq_ok encoded) (mapM_eq_ok checked)
  obtain ⟨scalarRest, scalars⟩ := scalars_back codec.order (args.filterMap Arg.word?)
  obtain ⟨shapeRest, sizes⟩ := toWords_padded codec.order shapes.flatten.toArray (by simpa using small)
  obtain ⟨values, hosts, dealt, bound, alike⟩ :=
    bindWords_alike p.request.types args fits 0 words scalarRest shapeRest.toList padding
  refine ⟨values, hosts, ?_, ?_, alike⟩
  · simp only [Device.arguments, order, List.cons_append, List.getD_cons_zero, List.getD_cons_succ, scalars,
      sizes, List.drop_succ_cons, List.drop_zero, bind, Except.bind]
    rw [← count, List.take_left' (by simp), read]
    simpa [flat] using dealt
  · unfold Value.bindAll
    rw [if_neg (by simp [fits.length_eq])]
    exact bound

end Launch

def DeviceProgram.Fitting (p : DeviceProgram) : Prop :=
  p.manifest = Manifest.ofTypes p.request.types p.request.grid Shader.workgroupSize

-- The words of the program's kernel on the host, for arguments rounded as the device rounds them.
def DeviceProgram.hostWords (p : DeviceProgram) (args : List Arg) : Except EvalError (Array Single) :=
  Host.words p.request.functions p.request.body p.request.types p.request.grid (args.map Arg.rounded)

-- Neither the number of threads nor the size of the result buffer cuts the elements short.
theorem Launch.computed_eq (codec : Codec) (d : Device) (order : d.order = codec.order) (p : DeviceProgram)
    (fitting : p.Fitting) (args : List Arg) (fits : FittingArgs p.request.types args) (inputs : List Encoded)
    (encoded : (args.filterMap Arg.tensor?).mapM codec.encode = .ok inputs) (l : Launch)
    (made : Launch.make codec.order p.manifest inputs (args.filterMap Arg.word?) = .ok l) :
    l.computed p d = ((p.hostWords args).mapError .ofEval).map
      (· ++ Array.replicate (l.resultSize / 4 - p.request.grid.total) Single.zero) := by
  obtain ⟨values, hosts, dealt, bound, alike⟩ :=
    Launch.arguments_alike codec d order p args fits inputs encoded l made (Array.replicate l.resultSize 0)
  obtain ⟨texture, _, _, laid, _, parts⟩ := Launch.make_parts _ _ _ _ _ made
  have length : p.manifest.outputLength = p.request.grid.total := by rw [fitting]; rfl
  obtain ⟨threads, few⟩ := Manifest.covers p.request.types p.request.grid
  rw [← fitting] at threads few
  have room : p.request.grid.total ≤ l.resultSize / 4 := by
    have held := Texture.le_texels _ _ laid
    rw [length] at held
    simpa [parts, Texture.byteSize] using held
  have same : elementWord p.request.functions p.request.body p.request.grid.sizes values =
      elementWord p.request.functions p.request.body p.request.grid.sizes hosts := by
    funext id
    simp only [elementWord, alike_evaluate _ _ _ _ _ alike]
  have count : min (min p.manifest.outputLength (p.manifest.workgroupsX * p.manifest.workgroupsY *
      p.manifest.workgroupSize)) (l.resultSize / 4) = p.request.grid.total := by
    rw [length, Nat.min_eq_left threads, Nat.min_eq_left room]
  simp only [Launch.computed, dealt, DeviceProgram.hostWords, Host.words, bound, bind, Except.bind,
    sized_eq few, Device.resultWords, count, same]
  cases collect (elementWord p.request.functions p.request.body p.request.grid.sizes hosts)
    p.request.grid.total 0 #[] <;> rfl

-- A result buffer is read back in full, and decoding drops what lies behind the elements.
theorem Codec.decode_readback (codec : Codec) (grid : Grid) (texture : Texture)
    (laid : Texture.ofElements grid.total = .ok texture) (words : Array Single)
    (size : words.size = grid.total) :
    ∃ b, Encoded.ofBytes ((Bytes.ofSingles codec.order (words ++
        Array.replicate (texture.byteSize / 4 - grid.total) Single.zero)).take texture.byteSize)
        grid.outputShape .f32 = .ok b ∧
      codec.decode b grid.outputShape = .ok ⟨grid.outputShape, .f32 words⟩ := by
  have room := Texture.le_texels _ _ laid
  have full : (Bytes.ofSingles codec.order (words ++
      Array.replicate (texture.byteSize / 4 - grid.total) Single.zero)).size = texture.byteSize := by
    simp [size, Texture.byteSize]
    omega
  generalize hb : Bytes.ofSingles codec.order (words ++
    Array.replicate (texture.byteSize / 4 - grid.total) Single.zero) = bytes at full
  have whole : bytes.take texture.byteSize = bytes := by simp [← full]
  refine ⟨⟨bytes, texture, grid.outputShape, .f32⟩, ?_, ?_⟩
  · simp only [Encoded.ofBytes, whole, elementCount_counted grid.countable, grid.axisProduct_outputShape, laid, bind,
      Except.bind]
    rw [if_neg (by omega)]
  · have cut : (words ++ Array.replicate (texture.byteSize / 4 - grid.total) Single.zero).take grid.total =
        words := by
      rw [← size]
      simp
    have read : Bytes.toSingles codec.order bytes =
        .ok (words ++ Array.replicate (texture.byteSize / 4 - grid.total) Single.zero) := by
      rw [← hb, Bytes.toSingles_ofSingles]
    unfold Codec.decode Codec.words Encoded.size
    simp only [read, Except.mapError, bind, Except.bind, elementCount_counted grid.countable, ne_eq, not_true, if_false,
      grid.axisProduct_outputShape, cut, Elements.ofSingles]
    exact grid.ofShape_words words size

theorem Device.run_hostOrder (d : Device) (codec : Codec) (p : DeviceProgram) (inputs : List Encoded)
    (scalars : List Single) (shape : List Nat) :
    (d.run codec p inputs scalars shape).1.hostOrder = d.hostOrder := by
  unfold Device.run
  cases Launch.make codec.order p.manifest inputs scalars with
  | error e => rfl
  | ok l =>
    have kept := (l.perform_parts p d).1
    dsimp only
    generalize l.perform p d = outcome at kept
    obtain ⟨after, result⟩ := outcome
    cases result <;> exact kept

-- Running a program: either its words on the host come back whole, or its failure on the host is
-- reported, or the device itself failed.
theorem Device.run_parts (codec : Codec) (d : Device) (order : d.order = codec.order) (p : DeviceProgram)
    (fitting : p.Fitting) (args : List Arg) (fits : FittingArgs p.request.types args) (inputs : List Encoded)
    (encoded : (args.filterMap Arg.tensor?).mapM codec.encode = .ok inputs) :
    let ran := (d.run codec p inputs (args.filterMap Arg.word?) p.request.grid.outputShape).2
    (∃ e, ran = .error e ∧ (e.Technical ∨ ∃ cause, e = .ofRun (.ofEval cause) ∧ p.hostWords args = .error cause)) ∨
      ∃ b words, ran = .ok b ∧ p.hostWords args = .ok words ∧
        codec.decode b p.request.grid.outputShape = .ok ⟨p.request.grid.outputShape, .f32 words⟩ := by
  have length : p.manifest.outputLength = p.request.grid.total := by rw [fitting]; rfl
  unfold Device.run
  cases made : Launch.make codec.order p.manifest inputs (args.filterMap Arg.word?) with
  | error e =>
    exact .inl ⟨e, rfl, .inl (Launch.make_error _ _ _ _ _ made (length ▸ p.request.grid.total_pos))⟩
  | ok l =>
    have computed := Launch.computed_eq codec d order p fitting args fits inputs encoded l made
    obtain ⟨texture, _, _, laid, _, parts⟩ := Launch.make_parts _ _ _ _ _ made
    have result : l.resultSize = texture.byteSize := by rw [parts]
    rw [length] at laid
    have performed := (l.perform_parts p d).2
    dsimp only
    generalize l.perform p d = outcome at performed
    obtain ⟨after, ran⟩ := outcome
    rcases performed with ⟨e, failed, cause⟩ | ⟨words, sent, made⟩
    · cases failed
      refine .inl ⟨_, rfl, ?_⟩
      rcases cause with technical | fault
      · rw [KernelError.ofRun_technical technical]
        exact .inl technical
      · rw [computed] at fault
        obtain ⟨cause, host, rfl⟩ := mapError_eq_error (map_eq_error fault)
        exact .inr ⟨cause, rfl, host⟩
    · cases sent
      rw [computed] at made
      obtain ⟨words, mapped, rfl⟩ := map_eq_ok made
      have host := mapError_eq_ok mapped
      obtain ⟨b, taken, decoded⟩ := codec.decode_readback p.request.grid texture laid words
        (Host.words_size _ _ _ _ _ _ host)
      refine .inr ⟨b, words, ?_, host, decoded⟩
      dsimp only
      rw [order, result]
      exact taken

end GridKernel
