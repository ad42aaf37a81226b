import GridKernel.Proofs.Buffer.Layout
import GridKernel.Proofs.Number.Integers

namespace GridKernel

@[simp]
theorem ByteOrder.place_little (width i : Nat) : ByteOrder.little.place width i = i := rfl

@[simp]
theorem ByteOrder.place_big (width i : Nat) : ByteOrder.big.place width i = width - 1 - i := rfl

namespace Bytes

section Read

variable (order : ByteOrder) (bytes : Bytes) (start : Nat)

theorem wordAt_four : ∃ a b c d : Nat, a < 256 ∧ b < 256 ∧ c < 256 ∧ d < 256 ∧
    wordAt order 4 bytes start = a * 2 ^ (8 * order.place 4 0) + b * 2 ^ (8 * order.place 4 1) +
      c * 2 ^ (8 * order.place 4 2) + d * 2 ^ (8 * order.place 4 3) ∧
    (bytes.getD (start + 0) 0).toNat = a ∧ (bytes.getD (start + 1) 0).toNat = b ∧
    (bytes.getD (start + 2) 0).toNat = c ∧ (bytes.getD (start + 3) 0).toNat = d := by
  refine ⟨_, _, _, _, UInt8.toNat_lt _, UInt8.toNat_lt _, UInt8.toNat_lt _, UInt8.toNat_lt _, ?_, rfl, rfl, rfl, rfl⟩
  simp only [wordAt, List.range, List.range.loop, List.foldl_cons, List.foldl_nil, Nat.shiftLeft_eq, Nat.zero_add]

theorem wordAt_lt : wordAt order 4 bytes start < 0x100000000 := by
  obtain ⟨a, b, c, d, _, _, _, _, word, _⟩ := wordAt_four order bytes start
  rw [word]
  cases order <;> simp only [ByteOrder.place_little, ByteOrder.place_big] <;> omega

theorem byte_wordAt (j : Nat) (inside : j < 4) :
    wordAt order 4 bytes start >>> (8 * order.place 4 j) % 256 = (bytes.getD (start + j) 0).toNat := by
  obtain ⟨a, b, c, d, _, _, _, _, word, first, second, third, fourth⟩ := wordAt_four order bytes start
  rw [word, Nat.shiftRight_eq_div_pow]
  obtain rfl | rfl | rfl | rfl : j = 0 ∨ j = 1 ∨ j = 2 ∨ j = 3 := by omega
  · rw [first]
    cases order <;> simp only [ByteOrder.place_little, ByteOrder.place_big] <;> omega
  · rw [second]
    cases order <;> simp only [ByteOrder.place_little, ByteOrder.place_big] <;> omega
  · rw [third]
    cases order <;> simp only [ByteOrder.place_little, ByteOrder.place_big] <;> omega
  · rw [fourth]
    cases order <;> simp only [ByteOrder.place_little, ByteOrder.place_big] <;> omega

theorem toWords_whole (count : Nat) (whole : bytes.size = count * 4) :
    ∃ words, toWords order 4 bytes = .ok words ∧ words.size = count ∧ (∀ n ∈ words, n < 0x100000000) ∧
      ofWords order 4 words = bytes := by
  have count' : bytes.size / 4 = count := by omega
  unfold toWords
  rw [if_neg (by omega)]
  refine ⟨_, rfl, by simp [count'], ?_, ?_⟩
  · intro n member
    obtain ⟨i, rfl⟩ := Array.mem_ofFn.mp member
    exact wordAt_lt order bytes _
  · apply Array.ext
    · simp [whole]
    · intro i first second
      have quotient : i / 4 < bytes.size / 4 := by omega
      have join : i / 4 * 4 + i % 4 = i := by omega
      have byte := byte_wordAt order bytes (i / 4 * 4) (i % 4) (by omega)
      rw [join, Array.getD, dif_pos second] at byte
      simp only [ofWords, Array.getElem_ofFn]
      rw [Array.getD, dif_pos (by simpa using quotient)]
      simp only [Array.getInternal_eq_getElem, Array.getElem_ofFn, byte, Nat.toUInt8_eq, UInt8.ofNat_toNat]

end Read

theorem toSingles_whole (order : ByteOrder) (bytes : Bytes) (count : Nat) (whole : bytes.size = count * 4) :
    ∃ words, toSingles order bytes = .ok words ∧ words.size = count ∧ ofSingles order words = bytes := by
  obtain ⟨words, read, size, small, written⟩ := toWords_whole order bytes count whole
  refine ⟨words.map fun n => ⟨n.toUInt32⟩, by rw [toSingles, read]; rfl, by rw [Array.size_map, size], ?_⟩
  have back : (words.map fun n => (⟨n.toUInt32⟩ : Single)).map (·.bits.toNat) = words := by
    apply Array.ext
    · simp
    · intro i first second
      simp only [Array.getElem_map, Nat.toUInt32_eq]
      exact UInt32.toNat_ofNat_of_lt' (small _ (Array.getElem_mem second))
  rw [ofSingles, back, written]

theorem ofWords_append (order : ByteOrder) (a b : Array Nat) :
    ofWords order 4 (a ++ b) = ofWords order 4 a ++ ofWords order 4 b := by
  apply Array.ext
  · simp [Nat.add_mul]
  · intro i first second
    by_cases inside : i < (ofWords order 4 a).size
    · have near : i / 4 < a.size := by
        rw [size_ofWords] at inside
        omega
      rw [Array.getElem_append_left inside]
      simp only [ofWords, Array.getElem_ofFn, Array.getD_eq_getD_getElem?, Array.getElem?_append_left near]
    · have far : a.size ≤ i / 4 := by
        rw [size_ofWords] at inside
        omega
      have quotient : (i - a.size * 4) / 4 = i / 4 - a.size := by omega
      have rest : (i - a.size * 4) % 4 = i % 4 := by
        rw [size_ofWords] at inside
        omega
      rw [Array.getElem_append_right (by omega)]
      simp only [ofWords, Array.getElem_ofFn, Array.size_ofFn, Array.getD_eq_getD_getElem?,
        Array.getElem?_append_right far, quotient, rest]

theorem ofSingles_append (order : ByteOrder) (a b : Array Single) :
    ofSingles order (a ++ b) = ofSingles order a ++ ofSingles order b := by
  rw [ofSingles, Array.map_append, ofWords_append]
  rfl

theorem ofSingles_take (order : ByteOrder) (words : Array Single) (n : Nat) (inside : n ≤ words.size) :
    ofSingles order (words.take n) = (ofSingles order words).take (4 * n) := by
  have size : (ofSingles order (words.take n)).size = 4 * n := by
    simp [inside]
    omega
  have split : words = words.take n ++ words.extract n words.size := by simp [Nat.max_eq_right inside]
  conv_rhs => rw [split, ofSingles_append, ← size]
  simp only [Array.take_eq_extract]
  rw [Array.extract_append_left, Array.extract_size]

theorem ofSingles_zeros (order : ByteOrder) (count : Nat) :
    ofSingles order (Array.replicate count Single.zero) = Array.replicate (count * 4) 0 := by
  apply Array.ext
  · simp
  · intro i first second
    simp only [ofSingles, ofWords, Array.getElem_ofFn, Array.getElem_replicate, Array.map_replicate,
      Array.getD_eq_getD_getElem?, Array.getElem?_replicate]
    split <;> simp [Single.zero]

end Bytes

namespace Elements

@[simp]
theorem size_singles (e : Elements) : e.singles.size = e.size := by
  cases e <;> simp [singles, size]

@[simp]
theorem size_ofSingles (type : ElementType) (words : Array Single) : (ofSingles type words).size = words.size := by
  cases type <;> simp [ofSingles, size]

-- An array with as many elements, unchanged wherever they are exact.
structure KeptWhere {α : Type} (Exact : α → Prop) (data back : Array α) : Prop where
  size : back.size = data.size
  exact : ∀ (i : Nat) (v : α), data[i]? = some v → Exact v → back[i]? = some v

theorem keptWhere_map {α β : Type} {Exact : α → Prop} (data : Array α) (out : α → β) (back : β → α)
    (fixed : ∀ v, Exact v → back (out v) = v) : KeptWhere Exact data ((data.map out).map back) := by
  refine ⟨by simp, ?_⟩
  intro i v found exact
  simp only [Array.getElem?_map, found, Option.map_some, fixed v exact]

-- What the way through 32-bit words keeps of the elements: every word, and of the other types
-- every element that is exactly a word.
inductive Kept : Elements → Elements → Prop where
  | f32 (data : Array Single) : Kept (.f32 data) (.f32 data)
  | f64 {data back : Array Double}
      (kept : KeptWhere (fun v : Double => (v.toSingle.toFloat == v.toFloat) = true) data back) :
      Kept (.f64 data) (.f64 back)
  | i32 {data back : Array Int32}
      (kept : KeptWhere (fun v : Int32 => v.toInt.natAbs ≤ exactIntegerLimit) data back) :
      Kept (.i32 data) (.i32 back)
  | i64 {data back : Array Int64}
      (kept : KeptWhere (fun v : Int64 => v.toInt.natAbs ≤ exactIntegerLimit) data back) :
      Kept (.i64 data) (.i64 back)

theorem kept_singles (e : Elements) : e.Kept (ofSingles e.type e.singles) := by
  cases e with
  | f32 data => exact .f32 data
  | f64 data =>
    refine .f64 (keptWhere_map data _ _ ?_)
    intro v exact
    exact Double.toDouble_toSingle v exact
  | i32 data =>
    refine .i32 (keptWhere_map data _ _ ?_)
    intro v exact
    have small : v.toInt.natAbs ≤ 2 ^ 24 := Int.ofNat_le.mp exact
    rw [Single.roundClamped_ofInt _ _ _ small (by omega) (by omega), Int32.ofInt_toInt]
  | i64 data =>
    refine .i64 (keptWhere_map data _ _ ?_)
    intro v exact
    have small : v.toInt.natAbs ≤ 2 ^ 24 := Int.ofNat_le.mp exact
    rw [Single.roundClamped_ofInt _ _ _ small (by omega) (by omega), Int64.ofInt_toInt]

end Elements

theorem Encoded.size_counted {b : Encoded} (countable : Countable b.shape) : b.size = .ok (axisProduct b.shape) :=
  elementCount_counted countable

namespace Codec

variable (c : Codec)

theorem words_read {b : Encoded} (countable : Countable b.shape) {words : Array Single}
    (read : Bytes.toSingles c.order b.bytes = .ok words) : c.words b = .ok (words.take (axisProduct b.shape)) := by
  unfold Codec.words
  rw [read, Encoded.size_counted countable]
  rfl

theorem decode_counted {b : Encoded} {shape : List Nat} (held : Countable b.shape) (countable : Countable shape) :
    c.decode b shape =
      if axisProduct shape ≠ axisProduct b.shape then .error (.invalidArgument (.decodeCount (axisProduct b.shape) shape))
      else c.words b >>= fun words => Tensor.ofShape shape (.ofSingles b.type words) := by
  unfold decode
  rw [elementCount_counted countable, Encoded.size_counted held]
  rfl

theorem decode_lost {b : Encoded} {shape : List Nat} (beyond : ¬ Countable shape) :
    c.decode b shape = .error .overflow := by
  unfold decode
  rw [elementCount_lost beyond]
  rfl

theorem decode_words (b : Encoded) (shape : List Nat) (words : Array Single) (ranked : 1 ≤ shape.length ∧ shape.length ≤ 3)
    (held : Countable b.shape) (countable : Countable shape) (same : axisProduct shape = axisProduct b.shape)
    (read : Bytes.toSingles c.order b.bytes = .ok words) (enough : axisProduct b.shape ≤ words.size) :
    c.decode b shape = .ok ⟨shape, .ofSingles b.type (words.take (axisProduct b.shape))⟩ := by
  have size : axisProduct shape = (Elements.ofSingles b.type (words.take (axisProduct b.shape))).size := by
    rw [Elements.size_ofSingles, same]
    simp [enough]
  rw [c.decode_counted held countable, if_neg (not_not.mpr same), c.words_read held read]
  exact Tensor.ofShape_counted ranked countable size

theorem decode_encode (t : Tensor) (shaped : t.Shaped) (positive : 0 < t.size)
    (small : t.size ≤ maxTextureSide * maxTextureSide) (more : ¬ t.data.HoldsLeast) (shape : List Nat)
    (ranked : 1 ≤ shape.length ∧ shape.length ≤ 3) (counted : axisProduct shape = t.size) :
    ∃ b out, c.encode t = .ok b ∧ c.decode b shape = .ok out ∧ out.shape = shape ∧ t.data.Kept out.data := by
  obtain ⟨texture, laid⟩ := Texture.ofElements_ok t.size positive small
  obtain ⟨_, held, own⟩ := t.shaped_parts shaped
  have size : t.singles.size = t.size := t.data.size_singles
  have encoded := c.encode_laid t texture laid more
  generalize made : Encoded.mk _ texture t.shape t.type = b at encoded
  have shape' : b.shape = t.shape := by rw [← made]
  have read : Bytes.toSingles c.order b.bytes =
      .ok (t.singles ++ Array.replicate (texture.texels - t.singles.size) Single.zero) := by
    rw [← made]
    exact Bytes.toSingles_ofSingles c.order _
  have cut : (t.singles ++ Array.replicate (texture.texels - t.singles.size) Single.zero).take (axisProduct b.shape) =
      t.singles := by
    rw [shape', own, ← size]
    simp
  have countable : Countable shape :=
    countable_of_pos (counted ▸ positive) (counted ▸ lt_of_le_of_lt small (by decide))
  have decoded := c.decode_words b shape _ ranked (shape' ▸ held) countable (by rw [counted, shape', own]) read
    (by simp [shape', own, size])
  have kind : b.type = t.data.type := by
    rw [← made]
    rfl
  rw [cut, kind] at decoded
  exact ⟨b, _, encoded, decoded, rfl, t.data.kept_singles⟩

end Codec

-- Buffers come from an encoder of either byte order, or from bytes that a device returned.
inductive Encoded.Made : Encoded → Prop where
  | encoded {c : Codec} {t : Tensor} {b : Encoded} (shaped : t.Shaped) (made : c.encode t = .ok b) : Made b
  | taken {bytes : Bytes} {shape : List Nat} {type : ElementType} {b : Encoded}
      (made : Encoded.ofBytes bytes shape type = .ok b) : Made b

theorem Encoded.Made.parts {b : Encoded} (made : b.Made) :
    Countable b.shape ∧ Texture.ofElements (axisProduct b.shape) = .ok b.texture ∧
      b.bytes.size = b.texture.byteSize := by
  cases made with
  | @encoded c t b shaped made =>
    obtain ⟨texture, laid, rfl⟩ := c.encode_parts t b made
    obtain ⟨_, countable, own⟩ := t.shaped_parts shaped
    have size : t.singles.size = t.size := t.data.size_singles
    have room := Texture.le_texels _ _ laid
    refine ⟨countable, ?_, ?_⟩
    · rw [← own] at laid
      exact laid
    · simp [size, Texture.byteSize]
      omega
  | taken made =>
    unfold Encoded.ofBytes at made
    obtain ⟨count, counted, made⟩ := bind_eq_ok made
    obtain ⟨countable, rfl⟩ := elementCount_eq_ok.mp counted
    obtain ⟨texture, laid, made⟩ := bind_eq_ok made
    split at made
    · cases made
    · rename_i long
      cases made
      exact ⟨countable, laid, by simp; omega⟩

namespace Codec

variable (c : Codec)

theorem decode_made (b : Encoded) (made : b.Made) (shape : List Nat) (ranked : 1 ≤ shape.length ∧ shape.length ≤ 3)
    (counted : axisProduct shape = axisProduct b.shape) :
    ∃ words, words.size = b.texture.texels ∧ Bytes.ofSingles c.order words = b.bytes ∧
      c.decode b shape = .ok ⟨shape, .ofSingles b.type (words.take (axisProduct b.shape))⟩ := by
  obtain ⟨held, laid, full⟩ := made.parts
  have room := Texture.le_texels _ _ laid
  have countable : Countable shape :=
    countable_of_pos (counted ▸ Texture.pos_of_laid laid) (counted ▸ lt_of_le_of_lt (Texture.le_limit laid) (by decide))
  obtain ⟨words, read, count, written⟩ := Bytes.toSingles_whole c.order b.bytes b.texture.texels full
  exact ⟨words, count, written, c.decode_words b shape words ranked held countable counted read (by omega)⟩

theorem encode_decode (b : Encoded) (made : b.Made) (words : b.type = .f32)
    (ranked : 1 ≤ b.shape.length ∧ b.shape.length ≤ 3) :
    ∃ t e, c.decode b b.shape = .ok t ∧ c.encode t = .ok e ∧ e.shape = b.shape ∧ e.texture = b.texture ∧
      e.type = .f32 ∧ e.bytes = b.bytes.take (4 * axisProduct b.shape) ++
        Array.replicate (b.texture.byteSize - 4 * axisProduct b.shape) 0 := by
  obtain ⟨_, laid, _⟩ := made.parts
  have room := Texture.le_texels _ _ laid
  obtain ⟨all, count, written, decoded⟩ := c.decode_made b made b.shape ranked rfl
  rw [words] at decoded
  generalize axisProduct b.shape = n at laid room decoded ⊢
  have size : (all.take n).size = n := by simp [count, room]
  have fits : Texture.ofElements (Tensor.size ⟨b.shape, .f32 (all.take n)⟩) = .ok b.texture := by
    rw [Tensor.size, Elements.size, size, laid]
  have padding : (b.texture.texels - (all.take n).size) * 4 = b.texture.byteSize - 4 * n := by
    rw [size, Texture.byteSize]
    omega
  refine ⟨_, _, decoded, c.encode_laid _ b.texture fits id, rfl, rfl, rfl, ?_⟩
  change Bytes.ofSingles c.order (all.take n ++
    Array.replicate (b.texture.texels - (all.take n).size) Single.zero) = _
  rw [Bytes.ofSingles_append, Bytes.ofSingles_zeros, Bytes.ofSingles_take c.order all n (by omega), written, padding]

-- Arrays survive the codec in every shape of as many elements, and buffers of words survive it byte for byte. Two things
-- stop it: the least 64-bit integer cannot be encoded, and a shape whose axes leave the size words on the way to their
-- product cannot be counted. Any other shape with another count is refused.
theorem round_trips :
    (∀ t : Tensor, t.Shaped → 0 < t.size → t.size ≤ maxTextureSide * maxTextureSide →
      (¬ t.data.HoldsLeast → ∀ shape : List Nat, 1 ≤ shape.length ∧ shape.length ≤ 3 → axisProduct shape = t.size →
        ∃ b out, c.encode t = .ok b ∧ c.decode b shape = .ok out ∧ out.shape = shape ∧ t.data.Kept out.data) ∧
      (t.data.HoldsLeast → c.encode t = .error .overflow)) ∧
    (∀ b : Encoded, b.Made → b.type = .f32 → 1 ≤ b.shape.length ∧ b.shape.length ≤ 3 →
      ∃ t e, c.decode b b.shape = .ok t ∧ c.encode t = .ok e ∧ e.shape = b.shape ∧ e.texture = b.texture ∧
        e.type = .f32 ∧ e.bytes = b.bytes.take (4 * axisProduct b.shape) ++
          Array.replicate (b.texture.byteSize - 4 * axisProduct b.shape) 0) ∧
    (∀ b : Encoded, b.Made → ∀ shape : List Nat,
      (Countable shape → axisProduct shape ≠ axisProduct b.shape →
        c.decode b shape = .error (.invalidArgument (.decodeCount (axisProduct b.shape) shape))) ∧
      (¬ Countable shape → c.decode b shape = .error .overflow)) ∧
    (∀ b : Encoded, b.Made → ∀ shape : List Nat, 1 ≤ shape.length ∧ shape.length ≤ 3 →
      axisProduct shape = axisProduct b.shape → ∃ out, c.decode b shape = .ok out ∧ out.shape = shape) := by
  refine ⟨?_, ?_, ?_, ?_⟩
  · intro t shaped positive small
    refine ⟨?_, ?_⟩
    · intro more shape ranked counted
      exact c.decode_encode t shaped positive small more shape ranked counted
    · intro least
      obtain ⟨texture, laid⟩ := Texture.ofElements_ok t.size positive small
      exact c.encode_least t texture laid least
  · intro b made words ranked
    exact c.encode_decode b made words ranked
  · intro b made shape
    refine ⟨?_, c.decode_lost⟩
    intro countable other
    rw [c.decode_counted made.parts.1 countable]
    exact if_pos other
  · intro b made shape ranked counted
    obtain ⟨words, _, _, decoded⟩ := c.decode_made b made shape ranked counted
    exact ⟨_, decoded, rfl⟩

-- A signalling NaN, a negative zero and a one through the order that reverses words.
def threeWords : Tensor := ⟨[3], .f32 #[⟨0x7f800001⟩, ⟨0x80000000⟩, ⟨0x3f800000⟩]⟩

theorem three_words_round_trip :
    ∃ b out t e, Codec.encode ⟨.big⟩ threeWords = .ok b ∧ Codec.decode ⟨.big⟩ b [1, 3] = .ok out ∧ out.shape = [1, 3] ∧
      threeWords.data.Kept out.data ∧ b.Made ∧ b.size = .ok 3 ∧ Codec.decode ⟨.big⟩ b b.shape = .ok t ∧
      Codec.encode ⟨.big⟩ t = .ok e ∧
      e.bytes = b.bytes.take (4 * axisProduct b.shape) ++
        Array.replicate (b.texture.byteSize - 4 * axisProduct b.shape) 0 ∧
      Codec.decode ⟨.big⟩ b [2, 2] = .error (.invalidArgument (.decodeCount 3 [2, 2])) := by
  obtain ⟨forward, backward, refused, _⟩ := round_trips ⟨.big⟩
  have shaped : threeWords.Shaped := rfl
  obtain ⟨b, out, encoded, decoded, shape, kept⟩ :=
    (forward threeWords shaped (by decide) (by decide)).1 id [1, 3] (by decide) (by decide)
  have made : b.Made := .encoded shaped encoded
  obtain ⟨own, words⟩ : b.shape = [3] ∧ b.type = .f32 := by
    obtain ⟨_, _, rfl⟩ := Codec.encode_parts _ _ _ encoded
    exact ⟨rfl, rfl⟩
  have count : axisProduct b.shape = 3 := by
    rw [own]
    decide
  have size : b.size = .ok 3 := by
    rw [Encoded.size_counted made.parts.1, count]
  obtain ⟨t, e, again, back, _, _, _, bytes⟩ := backward b made words (by rw [own]; decide)
  have square : Countable [2, 2] := countable_of_pos (by decide) (by decide)
  have other := (refused b made [2, 2]).1 square (by rw [count]; decide)
  rw [count] at other
  exact ⟨b, out, t, e, encoded, decoded, shape, kept, made, size, again, back, bytes, other⟩

-- Three rows of this length are more than a size word counts; a buffer of one element is not refused for them.
theorem uncounted_shape_not_refused :
    ∃ b, Codec.encode ⟨.little⟩ ⟨[1], .f32 #[⟨0x3f800000⟩]⟩ = .ok b ∧ b.shape = [1] ∧
      axisProduct [3, 12297829382473034411] ≠ axisProduct b.shape ∧
      Codec.decode ⟨.little⟩ b [3, 12297829382473034411] = .error .overflow := by
  have beyond : ¬ Countable [3, 12297829382473034411] := by
    intro countable
    have last := countable _ List.prefix_rfl
    revert last
    decide
  obtain ⟨b, _, encoded, _⟩ := Codec.decode_encode ⟨.little⟩ ⟨[1], .f32 #[⟨0x3f800000⟩]⟩ rfl (by decide)
    (by decide) id [1] (by decide) (by decide)
  have own : b.shape = [1] := by
    obtain ⟨_, _, rfl⟩ := Codec.encode_parts _ _ _ encoded
    rfl
  exact ⟨b, encoded, own, by rw [own]; decide, Codec.decode_lost _ beyond⟩

end Codec

end GridKernel
