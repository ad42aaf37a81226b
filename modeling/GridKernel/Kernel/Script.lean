import GridKernel.Kernel.Body

namespace GridKernel

inductive Term where
  | const (value : Double)
  | param (handle : Nat)
  | var (handle : Nat)
  | counter (handle : Nat)
  | thread (axis : Axis)
  | extent (axis : Axis)
  | at (param : Nat) (indices : List Term)
  | unary (op : UnaryOp) (input : Term)
  | binary (op : BinaryOp) (left right : Term)
  | select (cond yes no : Term)
  | call (name : String) (args : List Term)
deriving Inhabited

inductive Instr where
  | param (name : String) (type : Option ValueType)
  | var (init : Term)
  | assign (var : Nat) (value : Term)
  | loop (start stop : Term) (body : List Instr)
  | branch (cond : Term) (yes no : List Instr)
  | ret (value : Term)
deriving Inhabited

structure Draft where
  params : List Param := []
  locals : Nat := 0
  paramHandles : List Nat := []
  varHandles : List Nat := []
  counterHandles : List Nat := []

namespace Draft

def addParam (d : Draft) (p : Param) : Draft :=
  { d with params := d.params ++ [p], paramHandles := d.paramHandles ++ [d.params.length] }

-- The slot taken is the old number of locals.
def addVar (d : Draft) : Draft :=
  { d with locals := d.locals + 1, varHandles := d.varHandles ++ [d.locals] }

def addCounter (d : Draft) : Draft :=
  { d with locals := d.locals + 1, counterHandles := d.counterHandles ++ [d.locals] }

end Draft

namespace Term

mutual

-- The expression a term stands for; a handle that was never created has none.
def resolve (d : Draft) : Term → Option Expr
  | .const v => some (.const v)
  | .param k => d.paramHandles[k]?.map .param
  | .var k => d.varHandles[k]?.map .var
  | .counter k => d.counterHandles[k]?.map .var
  | .thread a => some (.thread a)
  | .extent a => some (.extent a)
  | .at p indices => do
    let index ← d.paramHandles[p]?
    let indices ← resolveAll d indices
    some (.index index indices)
  | .unary op t => do
    let e ← resolve d t
    some (.unary op e)
  | .binary op a b => do
    let left ← resolve d a
    let right ← resolve d b
    some (.binary op left right)
  | .select c a b => do
    let cond ← resolve d c
    let yes ← resolve d a
    let no ← resolve d b
    some (.select cond yes no)
  | .call name args => do
    let args ← resolveAll d args
    some (.call name args)

def resolveAll (d : Draft) : List Term → Option (List Expr)
  | [] => some []
  | t :: ts => do
    let e ← resolve d t
    let es ← resolveAll d ts
    some (e :: es)

end

end Term

namespace Instr

mutual

-- Run one step, giving the statements it adds to its block. A loop reads its bounds and
-- takes its slot before its body runs.
def run : Instr → Draft → Option (Draft × List Stmt)
  | .param name type, d => some (d.addParam ⟨name, type⟩, [])
  | .var init, d => do
    let value ← init.resolve d
    some (d.addVar, [.declare d.locals value])
  | .assign handle value, d => do
    let slot ← d.varHandles[handle]?
    let value ← value.resolve d
    some (d, [.assign slot value])
  | .loop start stop body, d => do
    let start ← start.resolve d
    let stop ← stop.resolve d
    let (after, stmts) ← runAll body d.addCounter
    some (after, [.loop d.locals start stop stmts])
  | .branch cond yes no, d => do
    let cond ← cond.resolve d
    let (afterYes, yes) ← runAll yes d
    let (afterNo, no) ← runAll no afterYes
    some (afterNo, [.branch cond yes no])
  | .ret value, d => do
    let value ← value.resolve d
    some (d, [.ret value])

def runAll : List Instr → Draft → Option (Draft × List Stmt)
  | [], d => some (d, [])
  | step :: rest, d => do
    let (after, first) ← run step d
    let (last, more) ← runAll rest after
    some (last, first ++ more)

end

end Instr

def Body.ofScript? (script : List Instr) : Option (Body × List Nat) := do
  let (d, stmts) ← Instr.runAll script {}
  some (⟨d.params, d.locals, stmts⟩, d.paramHandles)

end GridKernel
