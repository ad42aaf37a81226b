import GridKernel.Error

namespace GridKernel

structure Coords where
  x : Nat
  y : Nat
  z : Nat
deriving DecidableEq, Inhabited

def Coords.get (c : Coords) : Axis → Nat
  | .x => c.x
  | .y => c.y
  | .z => c.z

-- Coordinates and sizes of a grid are 32-bit numbers.
@[noinline]
def coordinateRange : Nat := 0x100000000

def axisProduct (axes : List Nat) : Nat := axes.foldl (· * ·) 1

structure Grid where
  axes : List Nat
  ranked : 1 ≤ axes.length ∧ axes.length ≤ 3
  positive : ∀ a ∈ axes, 0 < a
  bounded : axisProduct axes < 0x100000000
deriving DecidableEq

namespace Grid

-- Check a list of axes. The first zero axis is reported before the size of the product.
def ofAxes (axes : List Nat) : Except ArgumentFault Grid :=
  if ranked : 1 ≤ axes.length ∧ axes.length ≤ 3 then
    if positive : ∀ a ∈ axes, 0 < a then
      if bounded : axisProduct axes < 0x100000000 then .ok ⟨axes, ranked, positive, bounded⟩
      else .error .gridOverflow
    else .error (.zeroAxis (axes.findIdx (· = 0)))
  else .error (.axisCount axes.length)

-- Sizes of all three axes; an axis that is not used has size one.
def sizes (g : Grid) : Coords := ⟨g.axes.getD 0 1, g.axes.getD 1 1, g.axes.getD 2 1⟩

def total (g : Grid) : Nat := axisProduct g.axes

def outputShape (g : Grid) : List Nat := g.axes.reverse

end Grid

structure Context where
  thread : Coords
  extent : Coords
deriving DecidableEq

-- The context of element `id`. Coordinates are 32-bit numbers, and an axis of size zero
-- counts as one in the division.
def Context.ofLinear (id : Nat) (extent : Coords) : Context :=
  let width := max extent.x 1
  let height := max extent.y 1
  ⟨⟨id % width % coordinateRange, id / width % height % coordinateRange,
    id / (width * height) % coordinateRange⟩, extent⟩

end GridKernel
