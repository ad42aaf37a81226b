import GridKernel.Number.Binary

namespace GridKernel

-- Types of parameters and results. An integer is truncated toward zero wherever it is passed.
inductive ValueType where
  | float
  | int
  | floatArray
deriving DecidableEq, Inhabited

namespace ValueType

def name : ValueType → String
  | .float => "float"
  | .int => "int"
  | .floatArray => "float[]"

def ofName? (name : String) : Option ValueType := [.float, .int, .floatArray].find? (·.name = name)

def isArray (t : ValueType) : Bool := t = .floatArray

end ValueType

inductive Axis where
  | x
  | y
  | z
deriving DecidableEq

def Axis.name : Axis → String
  | .x => "x"
  | .y => "y"
  | .z => "z"

def Axis.ofName? (name : String) : Option Axis := [.x, .y, .z].find? (·.name = name)

inductive UnaryOp where
  | neg | not | abs | sqrt | exp | log | log2 | sin | cos | tan | asin | acos | atan
  | floor | ceil | trunc | sign | fract
deriving DecidableEq

def UnaryOp.name : UnaryOp → String
  | .neg => "neg"
  | .not => "not"
  | .abs => "abs"
  | .sqrt => "sqrt"
  | .exp => "exp"
  | .log => "log"
  | .log2 => "log2"
  | .sin => "sin"
  | .cos => "cos"
  | .tan => "tan"
  | .asin => "asin"
  | .acos => "acos"
  | .atan => "atan"
  | .floor => "floor"
  | .ceil => "ceil"
  | .trunc => "trunc"
  | .sign => "sign"
  | .fract => "fract"

def UnaryOp.all : List UnaryOp :=
  [.neg, .not, .abs, .sqrt, .exp, .log, .log2, .sin, .cos, .tan, .asin, .acos, .atan,
    .floor, .ceil, .trunc, .sign, .fract]

def UnaryOp.ofName? (name : String) : Option UnaryOp := all.find? (·.name = name)

inductive BinaryOp where
  | add | sub | mul | div | rem | pow | min | max | atan2
  | lt | le | gt | ge | eq | ne | and | or
deriving DecidableEq

namespace BinaryOp

def name : BinaryOp → String
  | .add => "add"
  | .sub => "sub"
  | .mul => "mul"
  | .div => "div"
  | .rem => "rem"
  | .pow => "pow"
  | .min => "min"
  | .max => "max"
  | .atan2 => "atan2"
  | .lt => "lt"
  | .le => "le"
  | .gt => "gt"
  | .ge => "ge"
  | .eq => "eq"
  | .ne => "ne"
  | .and => "and"
  | .or => "or"

def all : List BinaryOp :=
  [.add, .sub, .mul, .div, .rem, .pow, .min, .max, .atan2, .lt, .le, .gt, .ge, .eq, .ne, .and, .or]

def ofName? (name : String) : Option BinaryOp := all.find? (·.name = name)

def isComparison : BinaryOp → Bool
  | .lt | .le | .gt | .ge | .eq | .ne => true
  | _ => false

def isLogical : BinaryOp → Bool
  | .and | .or => true
  | _ => false

end BinaryOp

-- An expression. A constant is kept as its bit pattern, so two constants are the same
-- exactly when their bits are. Indices are outermost first and address the innermost
-- axes of an array. A parameter stands for its number, or for a whole array where it is
-- passed to a call.
inductive Expr where
  | const (value : Double)
  | param (index : Nat)
  | var (slot : Nat)
  | thread (axis : Axis)
  | extent (axis : Axis)
  | index (param : Nat) (indices : List Expr)
  | unary (op : UnaryOp) (input : Expr)
  | binary (op : BinaryOp) (left right : Expr)
  | select (cond yes no : Expr)
  | call (name : String) (args : List Expr)
deriving Inhabited

namespace Expr

def ofFloat (x : Float) : Expr := .const (.ofFloat x)

def threadIndex (rank : Nat) : List Expr := [thread .z, thread .y, thread .x].drop (3 - rank)

mutual

def nodes : Expr → List Expr
  | .const v => [.const v]
  | .param i => [.param i]
  | .var s => [.var s]
  | .thread a => [.thread a]
  | .extent a => [.extent a]
  | .index p es => .index p es :: nodesOf es
  | .unary op e => .unary op e :: nodes e
  | .binary op a b => .binary op a b :: (nodes a ++ nodes b)
  | .select c a b => .select c a b :: (nodes c ++ nodes a ++ nodes b)
  | .call f es => .call f es :: nodesOf es

def nodesOf : List Expr → List Expr
  | [] => []
  | e :: es => nodes e ++ nodesOf es

end

def callee? : Expr → Option String
  | .call name _ => some name
  | _ => none

def indexed? : Expr → Option Nat
  | .index p _ => some p
  | _ => none

end Expr
end GridKernel
