import GridKernel.Tensor
import GridKernel.Grid
import GridKernel.Number.Whole

namespace GridKernel

structure View where
  elements : Elements
  sizes : Coords

namespace View

def ofTensor (t : Tensor) : View :=
  let shape := paddedShape t.shape
  ⟨t.data, ⟨shape.getD 2 1, shape.getD 1 1, shape.getD 0 1⟩⟩

-- The coordinate an index addresses on an axis. The size is compared as a 64-bit number.
def coordinate? (size : Nat) (index : Float) : Option Nat :=
  match Whole.floorInt? index with
  | some k => if 0 ≤ k ∧ k < Double.nearestNat size then some k.toNat else none
  | none => none

-- Row-major address.
def address (v : View) (z y x : Nat) : Except EvalError Nat := do
  let row ← sized .overflow (z * v.sizes.y + y)
  sized .overflow (row * v.sizes.x + x)

def elementAt (v : View) (z y x : Nat) : Except EvalError Float := do
  let position ← v.address z y x
  .ok ((v.elements.get? position).getD 0.0)

-- Read an element. Fewer than three indices address the innermost axes, and the others
-- are read at zero; indices after the third are ignored.
def load (v : View) (indices : List Float) : Except EvalError Float :=
  match indices with
  | [] => v.elementAt 0 0 0
  | [ix] =>
    match coordinate? v.sizes.x ix with
    | some x => v.elementAt 0 0 x
    | none => .ok 0.0
  | [iy, ix] =>
    match coordinate? v.sizes.y iy, coordinate? v.sizes.x ix with
    | some y, some x => v.elementAt 0 y x
    | _, _ => .ok 0.0
  | iz :: iy :: ix :: _ =>
    match coordinate? v.sizes.z iz, coordinate? v.sizes.y iy, coordinate? v.sizes.x ix with
    | some z, some y, some x => v.elementAt z y x
    | _, _, _ => .ok 0.0

end View

inductive Value where
  | scalar (value : Float)
  | array (view : View)

namespace Value

-- Native functions see an array as zero.
def number : Value → Float
  | .scalar v => v
  | .array _ => 0.0

def bind (position : Nat) (type : ValueType) (arg : Arg) : Except EvalError Value :=
  match type, arg with
  | .float, .scalar v => .ok (.scalar v)
  | .int, .scalar v => .ok (.scalar (Whole.trunc v))
  | .floatArray, .array t => .ok (.array (.ofTensor t))
  | type, arg => .error (.typeMismatch (.argumentKind position arg.kind type))

def bindFrom (position : Nat) : List ValueType → List Arg → Except EvalError (List Value)
  | type :: types, arg :: args => do
    let value ← bind position type arg
    let values ← bindFrom (position + 1) types args
    .ok (value :: values)
  | _, _ => .ok []

def bindAll (types : List ValueType) (args : List Arg) : Except EvalError (List Value) :=
  if types.length ≠ args.length then
    .error (.typeMismatch (.argumentCount args.length types.length))
  else bindFrom 0 types args

end Value
end GridKernel
