import GridKernel.Kernel.Expr

namespace GridKernel

-- Statements. A declared local lives until the end of its block; a loop counts its local
-- from `start` in steps of one while it is below `stop`, which is read again each time.
inductive Stmt where
  | declare (slot : Nat) (value : Expr)
  | assign (slot : Nat) (value : Expr)
  | loop (counter : Nat) (start stop : Expr) (body : List Stmt)
  | branch (cond : Expr) (yes no : List Stmt)
  | ret (value : Expr)
deriving Inhabited

namespace Stmt

mutual

def nodes : Stmt → List Expr
  | .declare _ e => e.nodes
  | .assign _ e => e.nodes
  | .loop _ start stop body => start.nodes ++ stop.nodes ++ nodesOf body
  | .branch cond yes no => cond.nodes ++ nodesOf yes ++ nodesOf no
  | .ret e => e.nodes

def nodesOf : List Stmt → List Expr
  | [] => []
  | s :: ss => nodes s ++ nodesOf ss

end

mutual

-- The statement returns on every path through it. A loop may run no iteration.
def returns : Stmt → Bool
  | .ret _ => true
  | .branch _ yes no => anyReturns yes && anyReturns no
  | _ => false

def anyReturns : List Stmt → Bool
  | [] => false
  | s :: ss => returns s || anyReturns ss

end

end Stmt

def insertName (name : String) : List String → List String
  | [] => [name]
  | first :: rest =>
    if name < first then name :: first :: rest
    else if name = first then first :: rest
    else first :: insertName name rest

def nameSet (names : List String) : List String := names.foldl (fun set n => insertName n set) []

-- A declared parameter. Without a type, a kernel infers one from use and a helper takes a number.
structure Param where
  name : String
  type : Option ValueType
deriving DecidableEq, Inhabited

structure Body where
  params : List Param
  locals : Nat
  stmts : List Stmt
deriving Inhabited

namespace Body

def nodes (b : Body) : List Expr := Stmt.nodesOf b.stmts

def calls (b : Body) : List String := nameSet (b.nodes.filterMap Expr.callee?)

def indexedParams (b : Body) : List Nat := b.nodes.filterMap Expr.indexed?

-- Kernel parameter types: as declared, else an array if the body indexes it, else a number.
def inferredTypes (b : Body) : List ValueType :=
  let indexed := b.indexedParams
  b.params.mapIdx fun i p =>
    p.type.getD (if indexed.contains i then .floatArray else .float)

def declaredTypes (b : Body) : List ValueType := b.params.map (·.type.getD .float)

end Body
end GridKernel
