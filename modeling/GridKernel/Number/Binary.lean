
namespace GridKernel

structure Format where
  fraction : Nat
  exponent : Nat
deriving DecidableEq

-- What a pattern stands for; a finite value is `± mantissa * 2 ^ exponent`.
inductive Decoded where
  | nan
  | infinite (negative : Bool)
  | finite (negative : Bool) (mantissa : Nat) (exponent : Int)
deriving DecidableEq

-- The nearest integer to `m / 2 ^ s`, an exact half going to the even neighbour.
def roundShift (m s : Nat) : Nat :=
  let quotient := m >>> s
  let unit := 1 <<< s
  let twice := 2 * (m - quotient <<< s)
  if twice < unit then quotient
  else if twice = unit then quotient + quotient % 2
  else quotient + 1

-- The nearest integer to `m * 2 ^ e`, an exact half going up.
def roundHalfUp (m : Nat) (e : Int) : Nat :=
  if 0 ≤ e then m <<< e.toNat
  else (m + (1 <<< ((-e).toNat - 1))) >>> (-e).toNat

namespace Format

@[inline]
def single : Format := ⟨23, 8⟩
@[inline]
def double : Format := ⟨52, 11⟩

@[inline]
def leastExponent (f : Format) : Int := 2 - (1 <<< (f.exponent - 1) : Nat) - f.fraction

@[inline]
def infinity (f : Format) : Nat := ((1 <<< f.exponent) - 1) <<< f.fraction

@[inline]
def signed (f : Format) (negative : Bool) (magnitude : Nat) : Nat :=
  if negative then magnitude + (1 <<< (f.fraction + f.exponent)) else magnitude

@[inline]
def decode (f : Format) (bits : Nat) : Decoded :=
  let negative := bits.testBit (f.fraction + f.exponent)
  let field := (bits >>> f.fraction) % (1 <<< f.exponent)
  let fraction := bits % (1 <<< f.fraction)
  if field = (1 <<< f.exponent) - 1 then
    if fraction = 0 then .infinite negative else .nan
  else if field = 0 then .finite negative fraction f.leastExponent
  else .finite negative ((1 <<< f.fraction) + fraction) (f.leastExponent + (field - 1 : Nat))

-- Exponent of the last place kept for a number whose leading bit has weight `2 ^ top`.
@[inline]
def lastPlace (f : Format) (top : Int) : Int := max (top - f.fraction) f.leastExponent

-- The pattern nearest to `± m * 2 ^ e`, ties to even; too large a number is infinite.
-- The exponent field and the leading bit overlap by one, so a carry out of the
-- mantissa moves into the exponent by plain addition.
@[inline]
def nearest (f : Format) (negative : Bool) (m : Nat) (e : Int) : Nat :=
  if m = 0 then f.signed negative 0
  else
    let last := f.lastPlace (m.log2 + e)
    let scaled := if last ≤ e then m <<< (e - last).toNat else roundShift m (last - e).toNat
    let magnitude := ((last - f.leastExponent).toNat <<< f.fraction) + scaled
    f.signed negative (min magnitude f.infinity)

end Format

structure Single where
  bits : UInt32
deriving DecidableEq, Inhabited

structure Double where
  bits : UInt64
deriving DecidableEq, Inhabited

namespace Double

def toFloat (d : Double) : Float := Float.ofBits d.bits
def ofFloat (x : Float) : Double := ⟨x.toBits⟩

def decode (d : Double) : Decoded := Format.double.decode d.bits.toNat

-- A NaN keeps its sign and the leading bits of its payload and becomes quiet.
def toSingle (d : Double) : Single :=
  match d.decode with
  | .nan =>
    let sign : UInt32 := (d.bits >>> 32).toUInt32 &&& 0x80000000
    let payload : UInt32 := (d.bits >>> 29).toUInt32 &&& 0x003fffff
    ⟨sign ||| (0x7fc00000 : UInt32) ||| payload⟩
  | .infinite negative => ⟨(Format.single.signed negative Format.single.infinity).toUInt32⟩
  | .finite negative m e => ⟨(Format.single.nearest negative m e).toUInt32⟩

def ofInt (i : Int) : Double := ⟨(Format.double.nearest (i < 0) i.natAbs 0).toUInt64⟩

def nearestNat (n : Nat) : Nat :=
  if n < 0x20000000000000 then n
  else roundShift n (n.log2 - 52) <<< (n.log2 - 52)

end Double

namespace Single

def decode (w : Single) : Decoded := Format.single.decode w.bits.toNat

-- Widening is exact; a NaN becomes quiet.
def toDouble (w : Single) : Double :=
  let sign := (w.bits &&& 0x80000000).toUInt64 <<< 32
  let field := (w.bits >>> 23) &&& 0xff
  let fraction := (w.bits &&& 0x007fffff).toUInt64
  if field = 0xff then
    if fraction = 0 then ⟨sign ||| (0x7ff0000000000000 : UInt64)⟩
    else ⟨sign ||| (0x7ff8000000000000 : UInt64) ||| (fraction <<< 29)⟩
  else if field = 0 then
    ⟨(Format.double.nearest (w.bits.toNat.testBit 31) fraction.toNat (-149)).toUInt64⟩
  else ⟨sign ||| ((field.toUInt64 + 896) <<< 52) ||| (fraction <<< 29)⟩

def toFloat (w : Single) : Float := w.toDouble.toFloat
def ofFloat (x : Float) : Single := (Double.ofFloat x).toSingle

def ofInt (i : Int) : Single := ⟨(Format.single.nearest (i < 0) i.natAbs 0).toUInt32⟩

def zero : Single := ⟨0⟩

def isNaN (w : Single) : Bool := 0x7f800000 < (w.bits &&& 0x7fffffff)
def isFinite (w : Single) : Bool := (w.bits &&& 0x7fffffff) < 0x7f800000

-- Round to the nearest integer, halves away from zero, and clamp to `[low, high]`.
-- A NaN gives zero.
def roundClamped (low high : Int) (w : Single) : Int :=
  match w.decode with
  | .nan => 0
  | .infinite negative => if negative then low else high
  | .finite negative m e =>
    let magnitude : Int := roundHalfUp m e
    max low (min high (if negative then -magnitude else magnitude))

end Single
end GridKernel
