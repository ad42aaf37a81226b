import GridKernel.Buffer.Codec
import GridKernel.Proofs.Buffer.Counts
import Mathlib.Data.Nat.Sqrt

namespace GridKernel

namespace Bytes

@[simp]
theorem size_ofWords (order : ByteOrder) (width : Nat) (words : Array Nat) :
    (ofWords order width words).size = words.size * width := by
  simp [ofWords]

theorem getD_ofWords (order : ByteOrder) (words : Array Nat) (i j : Nat) (within : i < words.size)
    (place : j < 4) :
    (ofWords order 4 words).getD (i * 4 + j) 0 =
      ((words.getD i 0 >>> (8 * order.place 4 j)) % 256).toUInt8 := by
  have bound : i * 4 + j < words.size * 4 := by omega
  have quotient : (i * 4 + j) / 4 = i := by omega
  have rest : (i * 4 + j) % 4 = j := by omega
  simp [ofWords, Array.getD, bound, quotient, rest]

-- Four bytes put a word together again, from either end.
theorem wordAt_ofWords (order : ByteOrder) (words : Array Nat) (i : Nat) (within : i < words.size)
    (small : words.getD i 0 < 0x100000000) :
    wordAt order 4 (ofWords order 4 words) (i * 4) = words.getD i 0 := by
  have byte := fun j place => getD_ofWords order words i j within place
  simp only [wordAt, List.range, List.range.loop, List.foldl_cons, List.foldl_nil]
  rw [byte 0 (by omega), byte 1 (by omega), byte 2 (by omega), byte 3 (by omega)]
  generalize words.getD i 0 = n at small
  cases order <;>
    simp [ByteOrder.place, ByteOrder.needsSwap, Nat.shiftLeft_eq, Nat.shiftRight_eq_div_pow] <;> omega

theorem toWords_ofWords (order : ByteOrder) (words : Array Nat) (small : ∀ n ∈ words, n < 0x100000000) :
    toWords order 4 (ofWords order 4 words) = .ok words := by
  unfold toWords
  rw [if_neg (by simp)]
  congr 1
  apply Array.ext
  · simp
  · intro i first second
    have fits : words.getD i 0 < 0x100000000 := by
      rw [Array.getD, dif_pos second]
      exact small _ (Array.getElem_mem second)
    rw [Array.getElem_ofFn, wordAt_ofWords order words i second fits, Array.getD, dif_pos second]
    rfl

@[simp]
theorem size_ofSingles (order : ByteOrder) (words : Array Single) :
    (ofSingles order words).size = words.size * 4 := by
  simp [ofSingles]

theorem toSingles_ofSingles (order : ByteOrder) (words : Array Single) :
    toSingles order (ofSingles order words) = .ok words := by
  unfold toSingles ofSingles
  rw [toWords_ofWords]
  · have same : ((fun n : Nat => (⟨n.toUInt32⟩ : Single)) ∘ fun w : Single => w.bits.toNat) = id := by
      funext w
      simp
    simp [bind, Except.bind, same]
  · intro n member
    obtain ⟨w, _, rfl⟩ := Array.mem_map.mp member
    exact w.bits.toNat_lt

end Bytes

namespace Double

theorem nearestNat_pos (n : Nat) (positive : 0 < n) : 0 < nearestNat n := by
  unfold nearestNat
  split
  · exact positive
  · rename_i large
    have top : 2 ^ n.log2 ≤ n := Nat.log2_self_le (by omega)
    have kept : 0 < n >>> (n.log2 - 52) := by
      rw [Nat.shiftRight_eq_div_pow]
      exact Nat.div_pos (le_trans (Nat.pow_le_pow_right (by omega) (by omega)) top) (Nat.two_pow_pos _)
    have rounded : n >>> (n.log2 - 52) ≤ roundShift n (n.log2 - 52) := by
      unfold roundShift
      dsimp only
      split
      · exact le_rfl
      · split <;> omega
    rw [Nat.shiftLeft_eq]
    exact Nat.mul_pos (by omega) (Nat.two_pow_pos _)

end Double

theorem Whole.ceilRoot_pos (n : Nat) (positive : 0 < n) : 0 < Whole.ceilRoot n := by
  unfold Whole.ceilRoot
  dsimp only
  generalize hs : 52 - (Double.nearestNat n).sqrt.log2 = shift
  have value : 0 < Double.nearestNat n <<< (2 * shift) := by
    rw [Nat.shiftLeft_eq]
    exact Nat.mul_pos (Double.nearestNat_pos n positive) (Nat.two_pow_pos _)
  have below : 0 < (Double.nearestNat n <<< (2 * shift)).sqrt := Nat.sqrt_pos.mpr value
  have unit : 0 < 2 ^ shift := Nat.two_pow_pos _
  rw [Nat.shiftRight_eq_div_pow]
  apply Nat.div_pos _ unit
  split <;> omega

namespace Texture

theorem le_texels (count : Nat) (t : Texture) (laid : ofElements count = .ok t) : count ≤ t.texels := by
  unfold ofElements at laid
  split at laid
  · cases laid
  · rename_i some
    dsimp only at laid
    split at laid
    · cases laid
    · cases laid
      have width := Whole.ceilRoot_pos count (by omega)
      have rows := Nat.lt_div_mul_add (a := count + Whole.ceilRoot count - 1) width
      simp only [texels]
      rw [Nat.mul_comm]
      omega

theorem ofElements_error (count : Nat) (e : KernelError) (refused : ofElements count = .error e)
    (positive : 0 < count) : e.Technical := by
  unfold ofElements at refused
  rw [if_neg (by omega)] at refused
  dsimp only at refused
  split at refused
  · cases refused; trivial
  · cases refused

end Texture

namespace Elements

-- The one integer whose magnitude is not of its type.
def HoldsLeast : Elements → Prop
  | .i64 data => Int64.minValue ∈ data
  | _ => False

theorem magnitude_least : magnitude Int64.minValue = .error .overflow := rfl

theorem magnitude_eq {v : Int64} (more : v ≠ Int64.minValue) : magnitude v = .ok v.abs := if_neg more

theorem magnitude_error {v : Int64} {failure : KernelError} (lost : magnitude v = .error failure) : failure = .overflow := by
  unfold magnitude at lost
  split at lost <;> cases lost
  rfl

theorem inexactCount_error {e : Elements} {failure : KernelError} (failed : e.inexactCount = .error failure) :
    failure = .overflow ∧ e.HoldsLeast := by
  cases e with
  | f32 | f64 | i32 => cases failed
  | i64 data =>
    rw [inexactCount, ← Array.foldlM_toList] at failed
    obtain ⟨v, member, count, failed⟩ := foldlM_eq_error failed
    by_cases least : v = Int64.minValue
    · subst least
      rw [magnitude_least] at failed
      cases failed
      exact ⟨rfl, Array.mem_toList_iff.mp member⟩
    · rw [magnitude_eq least] at failed
      cases failed

theorem inexactCount_least {e : Elements} (least : e.HoldsLeast) : e.inexactCount = .error .overflow := by
  cases e with
  | f32 | f64 | i32 => exact least.elim
  | i64 data =>
    rw [inexactCount, ← Array.foldlM_toList]
    refine foldlM_stops (x := Int64.minValue) (fun count => ?_) ?_ (Array.mem_toList_iff.mpr least) 0
    · rfl
    intro count v failure failed
    rcases bind_eq_error failed with lost | ⟨m, _, failed⟩
    · exact magnitude_error lost
    · cases failed

end Elements

namespace Codec

variable (c : Codec) (t : Tensor)

-- What encoding gives: the rounded words of the array, then zeros up to the texture's end.
theorem encode_parts (b : Encoded) (encoded : c.encode t = .ok b) :
    ∃ texture, Texture.ofElements t.size = .ok texture ∧
      b = ⟨Bytes.ofSingles c.order (t.singles ++ Array.replicate (texture.texels - t.singles.size) Single.zero),
        texture, t.shape, t.type⟩ := by
  unfold encode encodeNoting at encoded
  obtain ⟨⟨b', n⟩, noted, last⟩ := bind_eq_ok encoded
  obtain ⟨texture, laid, rest⟩ := bind_eq_ok noted
  obtain ⟨count, _, rest⟩ := bind_eq_ok rest
  cases rest
  cases last
  exact ⟨texture, laid, rfl⟩

theorem encode_laid (texture : Texture) (laid : Texture.ofElements t.size = .ok texture) (more : ¬ t.data.HoldsLeast) :
    c.encode t = .ok ⟨Bytes.ofSingles c.order (t.singles ++ Array.replicate (texture.texels - t.singles.size) Single.zero),
      texture, t.shape, t.type⟩ := by
  unfold encode encodeNoting
  rw [laid]
  cases counted : t.data.inexactCount with
  | ok n => rfl
  | error e => exact absurd (Elements.inexactCount_error counted).2 more

theorem encode_least (texture : Texture) (laid : Texture.ofElements t.size = .ok texture) (least : t.data.HoldsLeast) :
    c.encode t = .error .overflow := by
  unfold encode encodeNoting
  rw [laid, Elements.inexactCount_least least]
  rfl

theorem encode_error (e : KernelError) (refused : c.encode t = .error e) (positive : 0 < t.size) :
    e.Technical ∨ e = .overflow ∧ t.data.HoldsLeast := by
  cases laid : Texture.ofElements t.size with
  | error cause =>
    unfold encode encodeNoting at refused
    rw [laid] at refused
    cases refused
    exact .inl (Texture.ofElements_error _ _ laid positive)
  | ok texture =>
    by_cases least : t.data.HoldsLeast
    · rw [c.encode_least t texture laid least] at refused
      cases refused
      exact .inr ⟨rfl, least⟩
    · rw [c.encode_laid t texture laid least] at refused
      cases refused

end Codec
end GridKernel
