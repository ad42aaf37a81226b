import GridKernel.Kernel.Body
import GridKernel.Error

namespace GridKernel

def maxIndices : Nat := 3

-- What a body may refer to from outside its statements.
structure Interface where
  params : List Param
  types : List ValueType
  locals : Nat

-- Locals in scope, and all locals declared so far in any block.
structure Scope where
  visible : List Nat
  declared : List Nat

def Scope.empty : Scope := ⟨[], []⟩

namespace Interface

def paramType (i : Interface) (index : Nat) : Except ArgumentFault ValueType :=
  match i.types[index]? with
  | some type => .ok type
  | none => .error (.paramOutOfRange index i.types.length)

def paramName (i : Interface) (index : Nat) : String :=
  match i.params[index]? with
  | some p => p.name
  | none => "?"

def declare (i : Interface) (slot : Nat) (s : Scope) : Except ArgumentFault Scope :=
  if i.locals ≤ slot then .error (.slotOutOfRange slot i.locals)
  else if s.declared.contains slot then .error (.slotRedeclared slot)
  else .ok ⟨slot :: s.visible, slot :: s.declared⟩

mutual

-- Check an expression. Only an argument of a call may be a whole array.
def checkExpr (i : Interface) (visible : List Nat) (arrayAllowed : Bool) :
    Expr → Except ArgumentFault Unit
  | .const _ => .ok ()
  | .thread _ => .ok ()
  | .extent _ => .ok ()
  | .param index => do
    let type ← i.paramType index
    if type.isArray && !arrayAllowed then .error (.arrayAsScalar (i.paramName index)) else .ok ()
  | .var slot => if visible.contains slot then .ok () else .error (.readUndeclared slot)
  | .index param indices => do
    let type ← i.paramType param
    if !type.isArray then .error (.notIndexable (i.paramName param))
    else if indices.length = 0 ∨ maxIndices < indices.length then .error (.indexCount indices.length)
    else checkExprs i visible false indices
  | .unary _ input => checkExpr i visible false input
  | .binary _ left right => do
    checkExpr i visible false left
    checkExpr i visible false right
  | .select cond yes no => do
    checkExpr i visible false cond
    checkExpr i visible false yes
    checkExpr i visible false no
  | .call name args =>
    if name = "" then .error .emptyCallee else checkExprs i visible true args

def checkExprs (i : Interface) (visible : List Nat) (arrayAllowed : Bool) :
    List Expr → Except ArgumentFault Unit
  | [] => .ok ()
  | e :: es => do
    checkExpr i visible arrayAllowed e
    checkExprs i visible arrayAllowed es

end

mutual

-- Check a statement and return the scope behind it. A nested block gives back the
-- scope it was entered with, but its declarations stay counted.
def checkStmt (i : Interface) : Stmt → Scope → Except ArgumentFault Scope
  | .declare slot value, s => do
    checkExpr i s.visible false value
    i.declare slot s
  | .assign slot value, s => do
    if !s.visible.contains slot then .error (.assignUndeclared slot)
    else
      checkExpr i s.visible false value
      .ok s
  | .loop counter start stop body, s => do
    checkExpr i s.visible false start
    checkExpr i s.visible false stop
    let inner ← i.declare counter s
    let after ← checkBlock i body inner
    .ok ⟨s.visible, after.declared⟩
  | .branch cond yes no, s => do
    checkExpr i s.visible false cond
    let afterYes ← checkBlock i yes s
    let afterNo ← checkBlock i no ⟨s.visible, afterYes.declared⟩
    .ok ⟨s.visible, afterNo.declared⟩
  | .ret value, s => do
    checkExpr i s.visible false value
    .ok s

def checkBlock (i : Interface) : List Stmt → Scope → Except ArgumentFault Scope
  | [], s => .ok s
  | stmt :: rest, s => do
    let after ← checkStmt i stmt s
    if stmt.returns && !rest.isEmpty then .error .unreachable
    else checkBlock i rest after

end

end Interface

def Body.validate (b : Body) (types : List ValueType) : Except ArgumentFault Unit := do
  if types.length ≠ b.params.length then .error (.typeCount types.length b.params.length)
  else
    let _ ← Interface.checkBlock ⟨b.params, types, b.locals⟩ b.stmts .empty
    if Stmt.anyReturns b.stmts then .ok () else .error .noReturn

end GridKernel
