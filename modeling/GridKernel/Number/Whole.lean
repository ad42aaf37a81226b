import GridKernel.Number.Binary

namespace GridKernel.Whole

def nan : Float := Float.ofBits 0x7ff8000000000000
def one : Float := 1.0

-- Clear the bits below the binary point; a magnitude under one leaves a signed zero.
def truncBits (b : UInt64) : UInt64 :=
  let field := (b >>> 52) &&& 0x7ff
  if field < 1023 then b &&& 0x8000000000000000
  else if field < 1075 then b &&& ~~~(((1 : UInt64) <<< (1075 - field)) - 1)
  else b

def trunc (x : Float) : Float := Float.ofBits (truncBits x.toBits)

def floor (x : Float) : Float :=
  let t := trunc x
  if x < t then t - one else t

def ceil (x : Float) : Float :=
  let t := trunc x
  if t < x then t + one else t

def floorInt? (x : Float) : Option Int :=
  match (Double.ofFloat x).decode with
  | .finite negative m e =>
    if 0 ≤ e then
      let magnitude : Int := (m <<< e.toNat : Nat)
      some (if negative then -magnitude else magnitude)
    else
      let shift := (-e).toNat
      if negative then some (-((m + ((1 <<< shift) - 1)) >>> shift : Nat))
      else some ((m >>> shift : Nat) : Int)
  | _ => none

-- The remainder of truncated division. It is exact and has the sign of the dividend.
def remainder (x y : Float) : Float :=
  match (Double.ofFloat x).decode, (Double.ofFloat y).decode with
  | .finite _ _ _, .infinite _ => x
  | .finite negative m e, .finite _ n f =>
    if n = 0 then nan
    else
      let low := min e f
      let rest := (m <<< (e - low).toNat) % (n <<< (f - low).toNat)
      Float.ofBits (Format.double.nearest negative rest low).toUInt64
  | _, _ => nan

-- Ceiling of the square root of `n`, where both `n` and its root are first rounded to
-- the nearest 64-bit word. The root is taken with 52 bits after its leading one; it
-- cannot be half-way between two words, so one comparison decides the rounding.
def ceilRoot (n : Nat) : Nat :=
  let value := Double.nearestNat n
  let shift := 52 - value.sqrt.log2
  let scaled := value <<< (2 * shift)
  let below := scaled.sqrt
  let rounded := if below * below + below < scaled then below + 1 else below
  (rounded + ((1 <<< shift) - 1)) >>> shift

end GridKernel.Whole
