import GridKernel.Error

namespace GridKernel

-- Sizes and addresses are 64-bit words.
@[noinline]
def sizeRange : Nat := 0x10000000000000000

inductive ElementType where
  | f32
  | f64
  | i32
  | i64
deriving DecidableEq, Inhabited

namespace ElementType

def name : ElementType → String
  | .f32 => "f32"
  | .f64 => "f64"
  | .i32 => "i32"
  | .i64 => "i64"

def ofName? (name : String) : Option ElementType := [.f32, .f64, .i32, .i64].find? (·.name = name)

def byteSize : ElementType → Nat
  | .f32 => 4
  | .f64 => 8
  | .i32 => 4
  | .i64 => 8

def tag : ElementType → Nat
  | .f32 => 0
  | .f64 => 1
  | .i32 => 2
  | .i64 => 3

end ElementType

inductive Elements where
  | f32 (data : Array Single)
  | f64 (data : Array Double)
  | i32 (data : Array Int32)
  | i64 (data : Array Int64)
deriving DecidableEq

namespace Elements

def type : Elements → ElementType
  | .f32 _ => .f32
  | .f64 _ => .f64
  | .i32 _ => .i32
  | .i64 _ => .i64

def size : Elements → Nat
  | .f32 data => data.size
  | .f64 data => data.size
  | .i32 data => data.size
  | .i64 data => data.size

def get? (e : Elements) (i : Nat) : Option Float :=
  match e with
  | .f32 data => data[i]?.map Single.toFloat
  | .f64 data => data[i]?.map Double.toFloat
  | .i32 data => data[i]?.map fun v => (Double.ofInt v.toInt).toFloat
  | .i64 data => data[i]?.map fun v => (Double.ofInt v.toInt).toFloat

def singles : Elements → Array Single
  | .f32 data => data
  | .f64 data => data.map Double.toSingle
  | .i32 data => data.map fun v => Single.ofInt v.toInt
  | .i64 data => data.map fun v => Single.ofInt v.toInt

-- Elements of a type from 32-bit words. Integers take the nearest value in range.
def ofSingles (type : ElementType) (words : Array Single) : Elements :=
  match type with
  | .f32 => .f32 words
  | .f64 => .f64 (words.map Single.toDouble)
  | .i32 => .i32 (words.map fun w => Int32.ofInt (w.roundClamped (-2147483648) 2147483647))
  | .i64 =>
    .i64 (words.map fun w =>
      Int64.ofInt (w.roundClamped (-9223372036854775808) 9223372036854775807))

end Elements

structure Tensor where
  shape : List Nat
  data : Elements
deriving DecidableEq

-- A number as a size word.
def sized {ε : Type} (overflow : ε) (n : Nat) : Except ε Nat := if n < sizeRange then .ok n else .error overflow

-- The axes are multiplied from the outermost on, and every product on the way has to be a size word:
-- a zero axis does not make up for an overflow before it.
def elementCount (shape : List Nat) : Except KernelError Nat :=
  shape.foldlM (fun count axis => sized .overflow (count * axis)) 1

def paddedShape (shape : List Nat) : List Nat := List.replicate (3 - shape.length) 1 ++ shape.take 3

namespace Tensor

def ofShape (shape : List Nat) (data : Elements) : Except KernelError Tensor :=
  if shape.length = 0 ∨ 3 < shape.length then .error (.invalidArgument (.rank shape.length))
  else do
    let count ← elementCount shape
    if count ≠ data.size then .error (.invalidArgument (.shapeCount shape count data.size))
    else .ok ⟨shape, data⟩

def ofElements (data : Elements) : Tensor := ⟨[data.size], data⟩

-- A matrix from its rows, which must all have the length of the first.
def ofRows {α : Type} (pack : Array α → Elements) (rows : List (Array α)) : Except KernelError Tensor :=
  let columns := (rows.head?.map Array.size).getD 0
  if rows.any (·.size ≠ columns) then .error (.invalidArgument .raggedRows)
  else ofShape [rows.length, columns] (pack (rows.foldl (· ++ ·) #[]))

def type (t : Tensor) : ElementType := t.data.type
def rank (t : Tensor) : Nat := t.shape.length
def size (t : Tensor) : Nat := t.data.size
def singles (t : Tensor) : Array Single := t.data.singles

end Tensor

inductive Arg where
  | scalar (value : Float)
  | array (value : Tensor)

def Arg.kind : Arg → String
  | .scalar _ => "scalar"
  | .array _ => "array"

end GridKernel
