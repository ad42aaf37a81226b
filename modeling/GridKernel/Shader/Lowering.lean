import GridKernel.Eval.Operator
import GridKernel.Function.Snapshot
import GridKernel.Shader.Term

namespace GridKernel

def Expr.fold : Expr → Option Float
  | .const v => some v.toFloat
  | .unary op input => do
    let v ← fold input
    some (op.apply v)
  | .binary op left right => do
    let a ← fold left
    let b ← fold right
    some (op.apply a b)
  | .select cond yes no => do
    let c ← fold cond
    let y ← fold yes
    let n ← fold no
    some (if c != 0.0 then y else n)
  | _ => none

namespace Shader

-- How names and parameters of one function are written: helpers by name, types of its
-- parameters, and the input slot of each array parameter. Helpers have no arrays.
structure Names where
  lookup : String → Option Definition
  types : List ValueType
  slot? : Nat → Option Nat

def Names.isArray (n : Names) (index : Nat) : Bool :=
  match n.types[index]? with
  | some type => type.isArray
  | none => false

mutual

def lower (names : Names) : Expr → Except CompileFault Term
  | .const v => .ok (.literal v.toFloat)
  | .param index =>
    if names.isArray index then .error (.arrayAsValue index) else .ok (.param index)
  | .var slot => .ok (.var slot)
  | .thread axis => .ok (.thread axis)
  | .extent axis => .ok (.extent axis)
  | .index param indices =>
    match names.slot? param with
    | none => .error (.unboundArray param)
    | some slot => do
      let terms ← lowerAll names indices
      .ok (.load slot (List.replicate (3 - indices.length) zero ++ terms))
  | .unary op input =>
    match (Expr.unary op input).fold with
    | some v => .ok (.literal v)
    | none => do
      let t ← lower names input
      .ok (unary op t)
  | .binary op left right =>
    match (Expr.binary op left right).fold with
    | some v => .ok (.literal v)
    | none => do
      let a ← lower names left
      let b ← lower names right
      .ok (binary op a b)
  | .select cond yes no =>
    match (Expr.select cond yes no).fold with
    | some v => .ok (.literal v)
    | none => do
      let n ← lower names no
      let y ← lower names yes
      let c ← lower names cond
      .ok (.select n y (nonzero c))
  | .call name args =>
    match names.lookup name with
    | none => .error (.unknownFunction name)
    | some callee =>
      if callee.paramTypes.length ≠ args.length then
        .error (.arity name callee.paramTypes.length args.length)
      else do
        let terms ← lowerArgs names callee.paramTypes args
        .ok (passed callee.returnType (.helper name terms))

def lowerAll (names : Names) : List Expr → Except CompileFault (List Term)
  | [] => .ok []
  | e :: es => do
    let t ← lower names e
    let ts ← lowerAll names es
    .ok (t :: ts)

def lowerArgs (names : Names) : List ValueType → List Expr → Except CompileFault (List Term)
  | type :: types, e :: es => do
    let t ← lower names e
    let ts ← lowerArgs names types es
    .ok (passed type t :: ts)
  | _, _ => .ok []

end

end Shader
end GridKernel
