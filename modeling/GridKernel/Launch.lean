import GridKernel.Buffer.Codec
import GridKernel.Device

namespace GridKernel

-- The buffers of an execution in binding order, without the result, and the size of the result.
structure Launch where
  uploads : List Bytes
  resultSize : Nat

namespace Launch

def shapeWords (input : Encoded) : Except RunFault (List Nat) :=
  if input.bytes.size ≠ input.texture.byteSize then .error .textureMismatch
  else if input.sizes.any (0x100000000 ≤ ·) then .error .axisTooLong
  else .ok input.sizes

-- A buffer cannot be empty, so one word stands in for no words.
def padded (words : Array Nat) : Array Nat := if words.isEmpty then #[0] else words

def make (order : ByteOrder) (m : Manifest) (inputs : List Encoded) (scalars : List Single) :
    Except KernelError Launch :=
  if inputs.length ≠ m.arrayParams.length then
    .error (.executionFailed (.inputCount m.arrayParams.length inputs.length))
  else if scalars.length ≠ m.scalarParams.length then
    .error (.executionFailed (.scalarCount m.scalarParams.length scalars.length))
  else do
    let texture ← Texture.ofElements m.outputLength
    let shapes ← (inputs.mapM shapeWords).mapError .executionFailed
    let scalarWords := (scalars.map (·.bits.toNat)).toArray
    .ok { uploads :=
            Bytes.ofWords order 4 (padded scalarWords) ::
              Bytes.ofWords order 4 (padded shapes.flatten.toArray) :: inputs.map (·.bytes)
          resultSize := texture.byteSize }

-- Upload buffers in order. Those before a failure stay counted.
def uploadAll : List Bytes → Device → Device × Except RunFault Unit
  | [], d => (d, .ok ())
  | bytes :: rest, d =>
    match d.upload bytes with
    | .ok after => uploadAll rest after
    | .error e => (d, .error e)

def perform (l : Launch) (p : DeviceProgram) (d : Device) : Device × Except RunFault Bytes :=
  match uploadAll l.uploads d with
  | (d, .error e) => (d, .error e)
  | (d, .ok ()) =>
    match d.allocate l.resultSize with
    | .error e => (d, .error e)
    | .ok result =>
      match d.dispatch p (l.uploads ++ [result]) p.manifest.workgroupsX p.manifest.workgroupsY with
      | .error e => (d, .error e)
      | .ok (bytes, d) => (d, d.read bytes l.resultSize)

end Launch

def Device.run (d : Device) (codec : Codec) (p : DeviceProgram) (inputs : List Encoded)
    (scalars : List Single) (outputShape : List Nat) : Device × Except KernelError Encoded :=
  match Launch.make codec.order p.manifest inputs scalars with
  | .error e => (d, .error e)
  | .ok launch =>
    match launch.perform p d with
    | (d, .error e) => (d, .error (.ofRun e))
    | (d, .ok bytes) => (d, Encoded.ofBytes bytes outputShape .f32)

end GridKernel
