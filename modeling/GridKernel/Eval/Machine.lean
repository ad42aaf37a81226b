import GridKernel.Eval.Operator
import GridKernel.Eval.View
import GridKernel.Function.Definition

namespace GridKernel

abbrev Locals := Array Float

structure Env where
  lookup : String → Option Definition
  context : Context
  enter : Definition → List Value → Except EvalError Float
  args : List Value

inductive Flow where
  | next (locals : Locals)
  | done (value : Float)

@[inline]
def Locals.read (locals : Locals) (slot : Nat) : Except EvalError Float :=
  match locals[slot]? with
  | some v => .ok v
  | none => .error (.badLocal slot)

@[inline]
def Locals.write (locals : Locals) (slot : Nat) (value : Float) : Except EvalError Locals :=
  if slot < locals.size then .ok (locals.setIfInBounds slot value) else .error (.badLocal slot)

def ofCoordinate (n : Nat) : Float := (Double.ofInt n).toFloat

namespace Env

def scalarArg (env : Env) (index : Nat) : Except EvalError Float :=
  match env.args[index]? with
  | some (.scalar v) => .ok v
  | some (.array _) => .error (.typeMismatch (.arrayAsScalar index))
  | none => .error (.typeMismatch (.unbound index))

def arrayArg? (env : Env) (index : Nat) : Option View :=
  match env.args[index]? with
  | some (.array view) => some view
  | _ => none

-- A whole array can only be handed on from a parameter.
def arrayFor (env : Env) (callee : String) (e : Expr) : Except EvalError Value :=
  match e with
  | .param index =>
    match env.arrayArg? index with
    | some view => .ok (.array view)
    | none => .error (.typeMismatch (.arrayExpected callee))
  | _ => .error (.typeMismatch (.arrayExpected callee))

mutual

def eval (env : Env) (locals : Locals) : Expr → Except EvalError Float
  | .const v => .ok v.toFloat
  | .param index => env.scalarArg index
  | .var slot => locals.read slot
  | .thread axis => .ok (ofCoordinate (env.context.thread.get axis))
  | .extent axis => .ok (ofCoordinate (env.context.extent.get axis))
  | .index param indices =>
    match env.arrayArg? param with
    | none => .error (.typeMismatch (.notArray param))
    | some view => do
      let values ← evalAll env locals indices
      view.load values
  | .unary op input => do
    let v ← eval env locals input
    .ok (op.apply v)
  | .binary op left right => do
    let a ← eval env locals left
    let b ← eval env locals right
    .ok (op.apply a b)
  | .select cond yes no => do
    let c ← eval env locals cond
    if isTrue c then eval env locals yes else eval env locals no
  | .call name args =>
    match env.lookup name with
    | none => .error (.unknownFunction name)
    | some callee =>
      if callee.paramTypes.length ≠ args.length then
        .error (.arityMismatch name callee.paramTypes.length args.length)
      else do
        let values ← evalArgs env locals name callee.paramTypes args
        env.enter callee values

def evalAll (env : Env) (locals : Locals) : List Expr → Except EvalError (List Float)
  | [] => .ok []
  | e :: es => do
    let v ← eval env locals e
    let vs ← evalAll env locals es
    .ok (v :: vs)

def evalArgs (env : Env) (locals : Locals) (callee : String) :
    List ValueType → List Expr → Except EvalError (List Value)
  | type :: types, e :: es =>
    let first : Except EvalError Value :=
      match type with
      | .floatArray => env.arrayFor callee e
      | .int => (eval env locals e).map fun v => .scalar (Whole.trunc v)
      | .float => (eval env locals e).map .scalar
    do
      let value ← first
      let values ← evalArgs env locals callee types es
      .ok (value :: values)
  | _, _ => .ok []

end

@[specialize]
def iterate (test : Locals → Except EvalError Bool) (step : Locals → Except EvalError Flow)
    (budget : Nat) (locals : Locals) : Except EvalError Flow :=
  match test locals with
  | .error e => .error e
  | .ok false => .ok (.next locals)
  | .ok true =>
    match budget with
    | 0 => .error .loopLimit
    | left + 1 =>
      match step locals with
      | .ok (.next after) => iterate test step left after
      | other => other

-- The counter is still below the bound, which is read first.
@[inline]
def below (env : Env) (counter : Nat) (stop : Expr) (locals : Locals) : Except EvalError Bool := do
  let bound ← env.eval locals stop
  let v ← locals.read counter
  .ok (v < bound)

@[inline]
def advance (counter : Nat) : Flow → Except EvalError Flow
  | .done v => .ok (.done v)
  | .next locals => do
    let v ← locals.read counter
    let after ← locals.write counter (v + Whole.one)
    .ok (.next after)

mutual

def exec (env : Env) : Stmt → Locals → Except EvalError Flow
  | .declare slot value, locals => do
    let v ← env.eval locals value
    let after ← locals.write slot v
    .ok (.next after)
  | .assign slot value, locals => do
    let v ← env.eval locals value
    let after ← locals.write slot v
    .ok (.next after)
  | .loop counter start stop body, locals => do
    let first ← env.eval locals start
    let entered ← locals.write counter first
    iterate (env.below counter stop)
      (fun locals => do
        let flow ← execBlock env body locals
        advance counter flow)
      maxIterations entered
  | .branch cond yes no, locals => do
    let c ← env.eval locals cond
    if isTrue c then execBlock env yes locals else execBlock env no locals
  | .ret value, locals => do
    let v ← env.eval locals value
    .ok (.done v)

def execBlock (env : Env) : List Stmt → Locals → Except EvalError Flow
  | [], locals => .ok (.next locals)
  | stmt :: rest, locals =>
    match exec env stmt locals with
    | .ok (.next after) => execBlock env rest after
    | other => other

end

def runFrom (env : Env) (stmts : List Stmt) (locals : Locals) : Except EvalError Float :=
  match env.execBlock stmts locals with
  | .ok (.done v) => .ok v
  | .ok (.next _) => .error .missingReturn
  | .error e => .error e

end Env

def enter (lookup : String → Option Definition) (context : Context) :
    Nat → Definition → List Value → Except EvalError Float
  | 0, _, _ => .error .stackOverflow
  | depth + 1, callee, values =>
    let result : Except EvalError Float :=
      match callee.body with
      | .kernel body =>
        Env.runFrom ⟨lookup, context, enter lookup context depth, values⟩ body.stmts
          (Array.replicate body.locals 0.0)
      | .native _ apply => .ok (apply (values.map Value.number))
    result.map fun v => if callee.returnType = .int then Whole.trunc v else v

def evaluate (lookup : String → Option Definition) (context : Context) (body : Body)
    (args : List Value) : Except EvalError Float :=
  Env.runFrom ⟨lookup, context, enter lookup context maxCallDepth, args⟩ body.stmts
    (Array.replicate body.locals 0.0)

end GridKernel
