import GridKernel.Number.Binary

namespace GridKernel

structure Decimal where
  digits : Nat
  exponent : Int
deriving DecidableEq

namespace Decimal

def digitCount (n : Nat) : Nat := (Nat.toDigits 10 n).length

-- The integer `k` with `10 ^ k ≤ num / den < 10 ^ (k + 1)`, for positive `num` and `den`.
def magnitude (num den : Nat) : Int :=
  if den ≤ num then (digitCount (num / den) : Int) - 1
  else -(digitCount ((den + num - 1) / num - 1) : Int)

-- Move trailing zeros of the digits into the exponent. The fuel is the digit count.
def trim : Nat → Decimal → Decimal
  | 0, d => d
  | fuel + 1, d =>
    if d.digits ≠ 0 ∧ d.digits % 10 = 0 then trim fuel ⟨d.digits / 10, d.exponent + 1⟩ else d

def scale (n : Nat) (k : Int) : Nat × Nat :=
  if 0 ≤ k then (n * Nat.pow 10 k.toNat, 1) else (n, Nat.pow 10 (-k).toNat)

-- The reals that round to one word: `low / den` to `high / den` around `mid / den`.
structure Interval where
  low : Nat
  mid : Nat
  high : Nat
  den : Nat
  closed : Bool

-- All reals nearer to `m * 2 ^ e` than to its neighbours, in quarters of the last
-- place. Below a power of two the gap halves. The ends round to an even `m`.
def interval (f : Format) (m : Nat) (e : Int) : Interval :=
  let below := if m = 1 <<< f.fraction ∧ f.leastExponent < e then 1 else 2
  let up := 1 <<< (e - 2).toNat
  ⟨(4 * m - below) * up, 4 * m * up, (4 * m + 2) * up, 1 <<< (2 - e).toNat, m % 2 = 0⟩

def Interval.contains (i : Interval) (d : Decimal) : Bool :=
  let (num, den) := scale d.digits d.exponent
  if i.closed then i.low * den ≤ num * i.den && num * i.den ≤ i.high * den
  else i.low * den < num * i.den && num * i.den < i.high * den

-- The neighbour of `mid` with `count` digits that lies in the interval. Of two the nearer
-- is taken, and the larger of two equally near.
def Interval.withDigits (i : Interval) (count : Nat) : Option Decimal :=
  let k := magnitude i.mid i.den - count + 1
  let (unit, den) := scale 1 k
  let below := i.mid * den / (i.den * unit)
  let rest := i.mid * den % (i.den * unit)
  let nearFirst := if 2 * rest < i.den * unit then [below, below + 1] else [below + 1, below]
  (nearFirst.map (fun digits => (⟨digits, k⟩ : Decimal))).find? i.contains

-- The fewest digits that read back to the word; nine always do.
def shortest (m : Nat) (e : Int) : Decimal :=
  let around := interval Format.single m e
  let found := ((List.range 9).findSome? (fun n => around.withDigits (n + 1))).getD ⟨0, 0⟩
  trim (digitCount found.digits) found

-- `m * 2 ^ e` in units of `10 ^ (-places)`, an exact half going to the even neighbour.
def fixedUnits (places m : Nat) (e : Int) : Nat :=
  let num := (m * Nat.pow 10 places) <<< e.toNat
  let den := 1 <<< (-e).toNat
  let quotient := num / den
  let twice := 2 * (num % den)
  if twice < den then quotient
  else if twice = den then quotient + quotient % 2
  else quotient + 1

def zeros (n : Nat) : String := String.ofList (List.replicate n '0')

def pointed (digits places : Nat) : String :=
  let text := toString digits
  let padded := zeros (places + 1 - text.length) ++ text
  let whole := padded.length - places
  let chars := padded.toList
  String.ofList (chars.take whole) ++ "." ++ String.ofList (chars.drop whole)

def positional (d : Decimal) : String :=
  if 0 ≤ d.exponent then toString d.digits ++ zeros d.exponent.toNat
  else pointed d.digits (-d.exponent).toNat

def scientific (d : Decimal) : String :=
  let count := digitCount d.digits
  let power := d.exponent + (count - 1 : Nat)
  let mantissa := if count = 1 then toString d.digits else pointed d.digits (count - 1)
  mantissa ++ "e" ++ toString power

end Decimal

namespace Single

-- NaN and the infinities share their names in every style; a NaN has no sign.
def styled (finite : Nat → Int → String) (w : Single) : String :=
  match w.decode with
  | .nan => "NaN"
  | .infinite negative => if negative then "-inf" else "inf"
  | .finite negative m e => (if negative then "-" else "") ++ finite m e

-- Shader style: plain notation with a point from `1e-4` up to below `1e16`, and an exponent outside.
def literal : Single → String :=
  styled fun m e =>
    if m = 0 then "0.0"
    else
      let d := Decimal.shortest m e
      let leading := d.exponent + (Decimal.digitCount d.digits - 1 : Nat)
      if leading < -4 ∨ 16 ≤ leading then d.scientific
      else if 0 ≤ d.exponent then d.positional ++ ".0"
      else d.positional

-- Result style: plain notation at every size, and no point in a whole number.
def plain : Single → String :=
  styled fun m e => if m = 0 then "0" else (Decimal.shortest m e).positional

def fixed (places : Nat) : Single → String :=
  styled fun m e => Decimal.pointed (Decimal.fixedUnits places m e) places

end Single
end GridKernel
