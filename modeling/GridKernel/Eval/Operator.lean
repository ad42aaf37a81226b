import GridKernel.Kernel.Expr
import GridKernel.Number.Whole

namespace GridKernel

def flag (b : Bool) : Float := if b then 1.0 else 0.0

-- A NaN is not zero, so it counts as true.
def isTrue (v : Float) : Bool := v != 0.0

def UnaryOp.apply (op : UnaryOp) (v : Float) : Float :=
  match op with
  | .neg => -v
  | .not => flag (v == 0.0)
  | .abs => v.abs
  | .sqrt => v.sqrt
  | .exp => v.exp
  | .log => v.log
  | .log2 => v.log2
  | .sin => v.sin
  | .cos => v.cos
  | .tan => v.tan
  | .asin => v.asin
  | .acos => v.acos
  | .atan => v.atan
  | .floor => Whole.floor v
  | .ceil => Whole.ceil v
  | .trunc => Whole.trunc v
  | .sign => if 0.0 < v then 1.0 else if v < 0.0 then -1.0 else v
  | .fract => v - Whole.floor v

-- The smaller of two numbers; a NaN gives way to the other operand.
def lesser (a b : Float) : Float :=
  if a.isNaN then b else if b.isNaN then a else if b < a then b else a

def greater (a b : Float) : Float :=
  if a.isNaN then b else if b.isNaN then a else if a < b then b else a

def BinaryOp.apply (op : BinaryOp) (a b : Float) : Float :=
  match op with
  | .add => a + b
  | .sub => a - b
  | .mul => a * b
  | .div => a / b
  | .rem => Whole.remainder a b
  | .pow => a.pow b
  | .min => lesser a b
  | .max => greater a b
  | .atan2 => a.atan2 b
  | .lt => flag (a < b)
  | .le => flag (a ≤ b)
  | .gt => flag (b < a)
  | .ge => flag (b ≤ a)
  | .eq => flag (a == b)
  | .ne => flag (a != b)
  | .and => flag (isTrue a && isTrue b)
  | .or => flag (isTrue a || isTrue b)

end GridKernel
