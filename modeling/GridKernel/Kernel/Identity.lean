import GridKernel.Kernel.Body

namespace GridKernel

inductive Token where
  | size (n : Nat)
  | tag (n : Nat)
  | bits (b : UInt64)
  | name (s : String)
deriving DecidableEq

def ValueType.rank : ValueType → Nat
  | .float => 0
  | .int => 1
  | .floatArray => 2

def Axis.rank : Axis → Nat
  | .x => 0
  | .y => 1
  | .z => 2

def UnaryOp.rank (op : UnaryOp) : Nat := op.ctorIdx
def BinaryOp.rank (op : BinaryOp) : Nat := op.ctorIdx

namespace Expr

mutual

def stream : Expr → List Token
  | .const v => [.tag 0, .bits v.bits]
  | .param i => [.tag 1, .size i]
  | .var s => [.tag 2, .size s]
  | .thread a => [.tag 3, .tag a.rank]
  | .extent a => [.tag 4, .tag a.rank]
  | .index p es => .tag 5 :: .size p :: .size es.length :: streamOf es
  | .unary op e => .tag 6 :: .tag op.rank :: stream e
  | .binary op a b => .tag 7 :: .tag op.rank :: (stream a ++ stream b)
  | .select c a b => .tag 8 :: (stream c ++ (stream a ++ stream b))
  | .call f es => .tag 9 :: .name f :: .size es.length :: streamOf es

def streamOf : List Expr → List Token
  | [] => []
  | e :: es => stream e ++ streamOf es

end

end Expr

namespace Stmt

mutual

def stream : Stmt → List Token
  | .declare slot e => .tag 0 :: .size slot :: e.stream
  | .assign slot e => .tag 1 :: .size slot :: e.stream
  | .loop counter start stop body =>
    .tag 2 :: .size counter :: (start.stream ++ (stop.stream ++ (.size body.length :: streamOf body)))
  | .branch cond yes no =>
    .tag 3 :: (cond.stream ++ (.size yes.length :: (streamOf yes ++ (.size no.length :: streamOf no))))
  | .ret e => .tag 4 :: e.stream

def streamOf : List Stmt → List Token
  | [] => []
  | s :: ss => stream s ++ streamOf ss

end

end Stmt

def Param.stream (p : Param) : List Token :=
  match p.type with
  | none => [.tag 0]
  | some type => [.tag 1, .tag type.rank]

-- The stream of a body. Two bodies are the same kernel exactly when their streams are equal.
def Body.stream (b : Body) : List Token :=
  .size b.params.length :: (b.params.flatMap Param.stream ++
    (.size b.locals :: .size b.stmts.length :: Stmt.streamOf b.stmts))

end GridKernel
