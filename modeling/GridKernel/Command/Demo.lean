import GridKernel.Session.State

namespace GridKernel

inductive Demo where
  | scale
  | add
  | matmul
  | polyfill
deriving DecidableEq

namespace Demo

def name : Demo → String
  | .scale => "scale"
  | .add => "add"
  | .matmul => "matmul"
  | .polyfill => "polyfill"

def title : Demo → String
  | .scale => "Scale"
  | .add => "Add"
  | .matmul => "Matmul"
  | .polyfill => "Polyfill"

def about : Demo → String
  | .scale => "Multiply every element by a scalar"
  | .add => "Element-wise sum of two arrays"
  | .matmul => "Square matrix product"
  | .polyfill => "Helper functions and built-in polyfills"

def all : List Demo := [.scale, .add, .matmul, .polyfill]

def ofName? (name : String) : Option Demo := all.find? (·.name = name)

-- An array over the grid whose element `i` is `i * step`, in 32-bit arithmetic.
def ramp (grid : Grid) (step : Float) : Tensor :=
  let factor := (Single.ofFloat step).toFloat
  ⟨grid.outputShape, .f32 (Array.ofFn fun i : Fin grid.total =>
    Single.ofFloat ((Single.ofInt i.val).toFloat * factor))⟩

def arrayParam (name : String) : Param := ⟨name, some .floatArray⟩

def scaleBody (rank : Nat) : Body :=
  ⟨[arrayParam "a", ⟨"s", some .float⟩], 0,
    [.ret (.binary .mul (.index 0 (Expr.threadIndex rank)) (.param 1))]⟩

def addBody (rank : Nat) : Body :=
  ⟨[arrayParam "a", arrayParam "b"], 0,
    [.ret (.binary .add (.index 0 (Expr.threadIndex rank)) (.index 1 (Expr.threadIndex rank)))]⟩

-- Local 0 is the sum and local 1 runs along the row and the column.
def matmulBody : Body :=
  ⟨[arrayParam "a", arrayParam "b", ⟨"size", some .int⟩], 2,
    [.declare 0 (.ofFloat 0.0),
      .loop 1 (.ofFloat 0.0) (.param 2)
        [.assign 0 (.binary .add (.var 0)
          (.binary .mul (.index 0 [.thread .y, .var 1]) (.index 1 [.var 1, .thread .x])))],
      .ret (.var 0)]⟩

def smoothstepName : String := "smoothstep01"

-- The polynomial v * v * (3 - 2 * v).
def smoothstepBody : Body :=
  ⟨[⟨"v", some .float⟩], 0,
    [.ret (.call "clamp01" [.binary .mul (.binary .mul (.param 0) (.param 0))
      (.binary .sub (.ofFloat 3.0) (.binary .mul (.ofFloat 2.0) (.param 0)))])]⟩

def polyfillBody (grid : Grid) : Body :=
  ⟨[arrayParam "a"], 1,
    [.declare 0 (.binary .div (.index 0 (Expr.threadIndex grid.axes.length))
        (.const (.ofInt grid.total))),
      .ret (.binary .add (.call smoothstepName [.var 0])
        (.call "log10" [.binary .add (.var 0) (.ofFloat 1.0)]))]⟩

inductive Fault where
  | notSquare
  | session (cause : KernelError)

def Fault.message : Fault → String
  | .notSquare => "matmul needs square 2-D dimensions, e.g. --dimensions 16,16"
  | .session cause => cause.message

def prepare (s : Session) (grid : Grid) : Demo → Except Fault (Session × Body × List Arg)
  | .scale =>
    .ok (s, scaleBody grid.axes.length, [.array (ramp grid 1.0), .scalar 2.0])
  | .add =>
    .ok (s, addBody grid.axes.length, [.array (ramp grid 1.0), .array (ramp grid 0.5)])
  | .matmul =>
    match grid.axes with
    | [columns, rows] =>
      if columns = rows then
        .ok (s, matmulBody, [.array (ramp grid 0.01), .array (ramp grid 0.02),
          .scalar (Double.ofInt columns).toFloat])
      else .error .notSquare
    | _ => .error .notSquare
  | .polyfill =>
    match s.register (.make smoothstepName (.kernel smoothstepBody) none none) with
    | (s, .ok ()) => .ok (s, polyfillBody grid, [.array (ramp grid 1.0)])
    | (_, .error e) => .error (.session e)

end Demo
end GridKernel
