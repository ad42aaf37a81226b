import GridKernel.Kernel.Expr

namespace GridKernel.Shader

inductive Arith where
  | add
  | sub
  | mul
  | div
  | rem
deriving DecidableEq

-- Operators of two numbers that shaders write as calls.
inductive Math where
  | pow
  | min
  | max
  | atan2
deriving DecidableEq

inductive Relation where
  | lt
  | le
  | gt
  | ge
  | eq
  | ne
deriving DecidableEq

mutual

inductive Term where
  | literal (value : Float)
  | param (index : Nat)
  | var (slot : Nat)
  | thread (axis : Axis)
  | extent (axis : Axis)
  | load (slot : Nat) (indices : List Term)
  | negate (input : Term)
  | apply (op : UnaryOp) (input : Term)
  | arith (op : Arith) (left right : Term)
  | math (op : Math) (left right : Term)
  | select (no yes : Term) (test : Test)
  | helper (name : String) (args : List Term)

inductive Test where
  | compare (relation : Relation) (left right : Term)
  | both (left right : Test)
  | either (left right : Test)

end

inductive Command where
  | declare (slot : Nat) (value : Term)
  | assign (slot : Nat) (value : Term)
  | loop (counter : Nat) (start stop : Term) (body : List Command)
  | branch (test : Test) (yes no : List Command)
  | ret (value : Term)

-- A helper function of the program, with the numbers of its parameters.
structure Helper where
  name : String
  params : List Nat
  body : List Command

-- Between numbers and 32-bit integers, and from a number to a whole one.
inductive Conversion where
  | floor
  | trunc
  | word
  | number
  | bits
deriving DecidableEq

inductive Code where
  | number (value : Float)
  | word (value : Nat)
  | name (text : String)
  | element (buffer : String) (index : Code)
  | convert (conversion : Conversion) (input : Code)
  | arith (op : Arith) (left right : Code)

structure Let where
  name : String
  value : Code

structure Check where
  relation : Relation
  left : Code
  right : Code

-- A function without loops. It returns zero if one of its checks fails.
structure Function where
  name : String
  params : List (String × String)
  lets : List Let
  checks : List Check
  result : Code

inductive WordName where
  | invocation (axis : Axis)
  | extent (axis : Axis)
  | outputLength
  | rowStride
  | element
deriving DecidableEq

-- Terms over 32-bit integers; only the entry point computes with them.
inductive WordTerm where
  | word (name : WordName)
  | arith (op : Arith) (left right : WordTerm)
deriving DecidableEq

-- The element an invocation computes: the rows of a launch follow one another.
def elementTerm : WordTerm :=
  .arith .add (.word (.invocation .x)) (.arith .mul (.word (.invocation .y)) (.word .rowStride))

def coordinateTerm : Axis → WordTerm
  | .x => .arith .rem (.word .element) (.word (.extent .x))
  | .y => .arith .rem (.arith .div (.word .element) (.word (.extent .x))) (.word (.extent .y))
  | .z =>
    .arith .div (.word .element) (.arith .mul (.word (.extent .x)) (.word (.extent .y)))

def zero : Term := .literal 0.0

def truth (test : Test) : Term := .select zero (.literal 1.0) test

def nonzero (t : Term) : Test := .compare .ne t zero

def unary (op : UnaryOp) (t : Term) : Term :=
  match op with
  | .neg => .negate t
  | .not => truth (.compare .eq t zero)
  | other => .apply other t

def binary (op : BinaryOp) (a b : Term) : Term :=
  match op with
  | .add => .arith .add a b
  | .sub => .arith .sub a b
  | .mul => .arith .mul a b
  | .div => .arith .div a b
  | .rem => .arith .rem a b
  | .pow => .math .pow a b
  | .min => .math .min a b
  | .max => .math .max a b
  | .atan2 => .math .atan2 a b
  | .lt => truth (.compare .lt a b)
  | .le => truth (.compare .le a b)
  | .gt => truth (.compare .gt a b)
  | .ge => truth (.compare .ge a b)
  | .eq => truth (.compare .eq a b)
  | .ne => truth (.compare .ne a b)
  | .and => truth (.both (nonzero a) (nonzero b))
  | .or => truth (.either (nonzero a) (nonzero b))

-- Integers are truncated wherever they are passed.
def passed (type : ValueType) (t : Term) : Term := if type = .int then .apply .trunc t else t

end GridKernel.Shader
