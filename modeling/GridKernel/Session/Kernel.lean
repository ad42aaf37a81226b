import GridKernel.Config.Settings
import GridKernel.Kernel.Identity
import GridKernel.Kernel.Validity
import GridKernel.Function.Registry
import GridKernel.Shader.Program
import GridKernel.Tensor

namespace GridKernel

structure Signature where
  body : List Token
  types : List ValueType
  axes : List Nat
  functions : Fingerprint
deriving DecidableEq

inductive Backend where
  | gpu
  | cpu
deriving DecidableEq

def Backend.name : Backend → String
  | .gpu => "gpu"
  | .cpu => "cpu"

-- Where a kernel runs. A fallback remembers the signature and the device generation that
-- failed; as long as both stay the same, the device is not tried again.
inductive Route where
  | device
  | pinned
  | fallback (failed : Signature) (generation : Nat)
deriving DecidableEq

def Route.backend : Route → Backend
  | .device => .gpu
  | .pinned => .cpu
  | .fallback _ _ => .cpu

structure Kernel where
  body : Body
  types : List ValueType
  grid : Grid
  mode : Mode
  route : Route

-- What a run gives: the value itself if the grid has one element.
inductive Output where
  | scalar (value : Single)
  | array (value : Tensor)

namespace Output

def ofTensor (t : Tensor) : Output :=
  match t.size, t.singles[0]? with
  | 1, some v => .scalar v
  | _, _ => .array t

def words : Output → Array Single
  | .scalar v => #[v]
  | .array t => t.singles

end Output

namespace Kernel

-- A kernel with inferred types, not yet on a device. The grid is checked before the body.
def make (body : Body) (settings : Settings) : Except ArgumentFault Kernel := do
  let grid ← settings.grid
  body.validate body.inferredTypes
  .ok ⟨body, body.inferredTypes, grid, settings.mode, .pinned⟩

def backend (k : Kernel) : Backend := k.route.backend

def id (k : Kernel) : List Token := k.body.stream

def functions (k : Kernel) (r : Registry) : Snapshot := r.snapshot k.body.calls

def signatureOf (k : Kernel) (functions : Snapshot) : Signature :=
  ⟨k.id, k.types, k.grid.axes, functions.fingerprint⟩

def signature (k : Kernel) (r : Registry) : Signature := k.signatureOf (k.functions r)

def request (k : Kernel) (functions : Snapshot) : Request := ⟨k.body, k.types, k.grid, functions⟩

def checkArg (position : Nat) (type : ValueType) (arg : Arg) : Except ArgumentFault Unit :=
  match type, arg with
  | .floatArray, .array t => if t.size = 0 then .error (.emptyArray position) else .ok ()
  | .float, .scalar _ => .ok ()
  | .int, .scalar _ => .ok ()
  | type, arg => .error (.argumentKind position arg.kind type)

def checkFrom (position : Nat) : List ValueType → List Arg → Except ArgumentFault Unit
  | type :: types, arg :: args => do
    checkArg position type arg
    checkFrom (position + 1) types args
  | _, _ => .ok ()

-- Arguments fit the parameters one for one, and no array is empty.
def checkArgs (k : Kernel) (args : List Arg) : Except ArgumentFault Unit :=
  if args.length ≠ k.types.length then .error (.argumentCount k.types.length args.length)
  else checkFrom 0 k.types args

def scalarWords (args : List Arg) (positions : List Nat) : List Single :=
  positions.map fun i : Nat =>
    match args[i]? with
    | some (Arg.scalar v) => Single.ofFloat v
    | _ => Single.zero

def arrays (args : List Arg) (positions : List Nat) : List Tensor :=
  positions.filterMap fun i : Nat =>
    match args[i]? with
    | some (Arg.array t) => some t
    | _ => none

def typeText : ValueType → String
  | .float => "Float"
  | .int => "Int"
  | .floatArray => "FloatArray"

def modeText : Mode → String
  | .auto => "Auto"
  | .gpu => "Gpu"
  | .cpu => "Cpu"

def backendText : Backend → String
  | .gpu => "Gpu"
  | .cpu => "Cpu"

def debugText (k : Kernel) (id : String) : String :=
  "Kernel \x7b id: " ++ id ++ ", params: " ++ Text.listed (k.types.map typeText) ++
    ", dimensions: " ++ Text.listedNats k.grid.axes ++ ", mode: " ++ modeText k.mode ++
    ", backend: " ++ backendText k.backend ++ " \x7d"

end Kernel
end GridKernel
