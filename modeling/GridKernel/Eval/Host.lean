import GridKernel.Eval.Machine
import GridKernel.Function.Snapshot

namespace GridKernel

def collect {ε α : Type} (element : Nat → Except ε α) : Nat → Nat → Array α → Except ε (Array α)
  | 0, _, done => .ok done
  | count + 1, id, done =>
    match element id with
    | .ok v => collect element count (id + 1) (done.push v)
    | .error e => .error e

def elementWord (functions : Snapshot) (body : Body) (sizes : Coords) (args : List Value)
    (id : Nat) : Except EvalError Single := do
  let v ← evaluate functions.get? (Context.ofLinear id sizes) body args
  .ok (Single.ofFloat v)

namespace Host

def words (functions : Snapshot) (body : Body) (types : List ValueType) (grid : Grid)
    (args : List Arg) : Except EvalError (Array Single) := do
  let values ← Value.bindAll types args
  collect (elementWord functions body grid.sizes values) grid.total 0 #[]

def run (functions : Snapshot) (body : Body) (types : List ValueType) (grid : Grid)
    (args : List Arg) : Except KernelError Tensor := do
  let words ← (words functions body types grid args).mapError .ofEval
  Tensor.ofShape grid.outputShape (.f32 words)

end Host
end GridKernel
