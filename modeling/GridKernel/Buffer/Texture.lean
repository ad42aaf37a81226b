import GridKernel.Number.Whole
import GridKernel.Error

namespace GridKernel

structure Texture where
  width : Nat
  height : Nat
deriving DecidableEq

def maxTextureSide : Nat := 16384

namespace Texture

-- The texture for a number of elements. Its width is the ceiling of the square root, taken in
-- 64-bit floating point, and its height the least that holds all elements.
def ofElements (count : Nat) : Except KernelError Texture :=
  if count = 0 then .error (.invalidArgument .emptyLayout)
  else
    let width := Whole.ceilRoot count
    let height := (count + width - 1) / width
    if maxTextureSide < width ∨ maxTextureSide < height then
      .error (.executionFailed (.textureLimit count width height maxTextureSide))
    else .ok ⟨width, height⟩

def texels (t : Texture) : Nat := t.width * t.height
def byteSize (t : Texture) : Nat := t.texels * 4

end Texture
end GridKernel
