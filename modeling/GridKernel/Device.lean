import GridKernel.Buffer.ByteOrder
import GridKernel.Eval.Host
import GridKernel.Shader.Program

namespace GridKernel

-- Operations that fail as long as their switch is on.
structure Faults where
  compile : Bool := false
  dispatch : Bool := false
  readback : Bool := false
deriving DecidableEq, Inhabited

-- The generation counts how often a lost context came back.
structure Device where
  faults : Faults := {}
  hostOrder : Option ByteOrder := none
  lost : Bool := false
  generation : Nat := 0
  built : Nat := 0
  dispatches : Nat := 0
  uploaded : Nat := 0
deriving DecidableEq, Inhabited

structure DeviceProgram where
  manifest : Manifest
  request : Request

def bindWords : List ValueType → List Single → List Nat → List (Array Single) →
    Except RunFault (List Value)
  | [], _, _, _ => .ok []
  | .floatArray :: types, scalars, z :: y :: x :: shapes, words :: inputs => do
    let values ← bindWords types scalars shapes inputs
    .ok (.array ⟨.f32 words, ⟨x, y, z⟩⟩ :: values)
  | .floatArray :: _, _, _, _ => .error .shapesShort
  | .int :: types, word :: scalars, shapes, inputs => do
    let values ← bindWords types scalars shapes inputs
    .ok (.scalar (Whole.trunc word.toFloat) :: values)
  | .float :: types, word :: scalars, shapes, inputs => do
    let values ← bindWords types scalars shapes inputs
    .ok (.scalar word.toFloat :: values)
  | _ :: _, [], _, _ => .error .scalarsShort

namespace Device

def order (d : Device) : ByteOrder := d.hostOrder.getD .little

def attach (d : Device) (order : ByteOrder) : Device := { d with hostOrder := some order }

def lose (d : Device) : Device := { d with lost := true }

def restore (d : Device) : Device :=
  if d.lost then { d with lost := false, generation := d.generation + 1 } else d

-- Load a shader. Its text must define the entry point.
def compile (d : Device) (source : Shader.Source) : Except CompileFault (DeviceProgram × Device) :=
  if d.lost then .error .contextLost
  else if d.faults.compile then .error .injected
  else if !Text.occurs ("fn " ++ source.entry ++ "(").toList source.text.toList then
    .error (.entryMissing source.entry)
  else .ok (⟨source.manifest, source.request⟩, { d with built := d.built + 1 })

def upload (d : Device) (bytes : Bytes) : Except RunFault Device :=
  if d.lost then .error .contextLost
  else if bytes.isEmpty then .error .emptyUpload
  else .ok { d with uploaded := d.uploaded + bytes.size }

def allocate (d : Device) (size : Nat) : Except RunFault Bytes :=
  if d.lost then .error .contextLost
  else if size = 0 then .error .emptyAllocation
  else .ok (Array.replicate size 0)

def arguments (d : Device) (p : DeviceProgram) (buffers : List Bytes) :
    Except RunFault (List Value) := do
  let scalars ← Bytes.toSingles d.order (buffers.getD 0 #[])
  let shapes ← Bytes.toWords d.order 4 (buffers.getD 1 #[])
  let inputs ← ((buffers.drop 2).take p.manifest.arrayParams.length).mapM (Bytes.toSingles d.order)
  bindWords p.request.types scalars.toList shapes.toList inputs

-- The words a launch writes to a result buffer with room for `capacity` of them. Elements
-- that no thread of the launch computes are zero.
def resultWords (p : DeviceProgram) (args : List Value) (threads capacity : Nat) :
    Except RunFault (Array Single) := do
  let count := min (min p.manifest.outputLength threads) capacity
  let words ← (collect
    (elementWord p.request.functions p.request.body p.request.grid.sizes args) count 0 #[]).mapError
      .ofEval
  .ok (words ++ Array.replicate (capacity - count) Single.zero)

def dispatch (d : Device) (p : DeviceProgram) (buffers : List Bytes) (across rows : Nat) :
    Except RunFault (Bytes × Device) :=
  if d.lost then .error .contextLost
  else if d.faults.dispatch then .error .injectedDispatch
  else if buffers.length ≠ p.manifest.bindings.length then
    .error (.bindingCount p.manifest.bindings.length buffers.length)
  else do
    let args ← d.arguments p buffers
    let threads ← sized .overflow (across * rows * p.manifest.workgroupSize)
    let words ← resultWords p args threads ((buffers.getLastD #[]).size / 4)
    .ok (Bytes.ofSingles d.order words, { d with dispatches := d.dispatches + 1 })

def read (d : Device) (buffer : Bytes) (size : Nat) : Except RunFault Bytes :=
  if d.lost then .error .contextLost
  else if d.faults.readback then .error .injectedReadback
  else .ok (buffer.take size)

def debugText (d : Device) : String :=
  "SoftwareDevice \x7b faults: FaultPlan \x7b compile: " ++ Text.truth d.faults.compile ++
    ", dispatch: " ++ Text.truth d.faults.dispatch ++ ", readback: " ++
    Text.truth d.faults.readback ++ " \x7d, lost: " ++ Text.truth d.lost ++ ", programs_built: " ++
    toString d.built ++ ", dispatches: " ++ toString d.dispatches ++ " \x7d"

end Device
end GridKernel
