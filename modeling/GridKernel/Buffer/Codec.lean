import GridKernel.Buffer.ByteOrder
import GridKernel.Buffer.Texture
import GridKernel.Tensor

namespace GridKernel

structure Encoded where
  bytes : Bytes
  texture : Texture
  shape : List Nat
  type : ElementType
deriving DecidableEq

namespace Encoded

def size (b : Encoded) : Except KernelError Nat := elementCount b.shape

def sizes (b : Encoded) : List Nat := paddedShape b.shape

-- Take over bytes read from a device. Bytes behind the texture are dropped.
def ofBytes (bytes : Bytes) (shape : List Nat) (type : ElementType) : Except KernelError Encoded := do
  let count ← elementCount shape
  let texture ← Texture.ofElements count
  if bytes.size < texture.byteSize then
    .error (.executionFailed (.readbackShort bytes.size texture.byteSize))
  else .ok ⟨bytes.take texture.byteSize, texture, shape, type⟩

end Encoded

def exactIntegerLimit : Int := 0x1000000

namespace Elements

-- The least 64-bit integer has no magnitude of its own type.
def magnitude (v : Int64) : Except KernelError Int64 :=
  if v = Int64.minValue then .error .overflow else .ok v.abs

-- How many elements are not exactly a 32-bit word. A magnitude is taken in 64 bits, also that of a 32-bit integer.
def inexactCount : Elements → Except KernelError Nat
  | .f32 _ => .ok 0
  | .f64 data => .ok (data.countP fun v => !(v.toSingle.toFloat == v.toFloat))
  | .i32 data => .ok (data.countP fun v => exactIntegerLimit < v.toInt.natAbs)
  | .i64 data =>
    data.foldlM (fun count v => do
      let m ← magnitude v
      .ok (if exactIntegerLimit < m.toInt then count + 1 else count)) 0

end Elements

structure Codec where
  order : ByteOrder
deriving DecidableEq, Inhabited

namespace Codec

def encodeNoting (c : Codec) (t : Tensor) : Except KernelError (Encoded × Nat) := do
  let texture ← Texture.ofElements t.size
  let words := t.singles
  let padded := words ++ Array.replicate (texture.texels - words.size) Single.zero
  let inexact ← t.data.inexactCount
  .ok (⟨Bytes.ofSingles c.order padded, texture, t.shape, t.type⟩, inexact)

def encode (c : Codec) (t : Tensor) : Except KernelError Encoded := do
  let (encoded, _) ← c.encodeNoting t
  .ok encoded

def words (c : Codec) (b : Encoded) : Except KernelError (Array Single) := do
  let words ← (Bytes.toSingles c.order b.bytes).mapError .executionFailed
  let count ← b.size
  .ok (words.take count)

def decode (c : Codec) (b : Encoded) (shape : List Nat) : Except KernelError Tensor := do
  let count ← elementCount shape
  let held ← b.size
  if count ≠ held then .error (.invalidArgument (.decodeCount held shape))
  else
    let words ← c.words b
    Tensor.ofShape shape (.ofSingles b.type words)

end Codec
end GridKernel
