import GridKernel.Grid

namespace GridKernel

def maxWorkgroups : Nat := 65535

inductive Role where
  | scalars
  | shapes
  | input (param : Nat)
  | result
deriving DecidableEq

structure Binding where
  number : Nat
  name : String
  role : Role
  readOnly : Bool
deriving DecidableEq

structure Manifest where
  bindings : List Binding
  scalarParams : List Nat
  arrayParams : List Nat
  outputLength : Nat
  workgroupSize : Nat
  workgroupsX : Nat
  workgroupsY : Nat
deriving DecidableEq

def positions (test : ValueType → Bool) (types : List ValueType) : List Nat :=
  (types.zipIdx.filter fun (type, _) => test type).map Prod.snd

namespace Manifest

def inputBindings (arrayParams : List Nat) : List Binding :=
  arrayParams.mapIdx fun slot param => ⟨2 + slot, "in" ++ toString slot, .input param, true⟩

-- The layout for parameter types and a grid. The groups fill rows of at most
-- `maxWorkgroups`; counts are 32-bit numbers.
def ofTypes (types : List ValueType) (grid : Grid) (workgroupSize : Nat) : Manifest :=
  let arrayParams := positions ValueType.isArray types
  let groups := max ((grid.total + workgroupSize - 1) / workgroupSize) 1
  let across := min groups maxWorkgroups
  let rows := (groups + across - 1) / across
  { bindings :=
      ⟨0, "scalars", .scalars, true⟩ :: ⟨1, "shapes", .shapes, true⟩ ::
        (inputBindings arrayParams ++ [⟨2 + arrayParams.length, "result", .result, false⟩])
    scalarParams := positions (fun type => !type.isArray) types
    arrayParams := arrayParams
    outputLength := grid.total
    workgroupSize := workgroupSize
    workgroupsX := across % 0x100000000
    workgroupsY := rows % 0x100000000 }

-- Threads in one row of the launch, and the same as the 32-bit number that a caller gets.
def rowStride (m : Manifest) : Nat := m.workgroupsX * m.workgroupSize

def stride (m : Manifest) : Except KernelError Nat :=
  if m.rowStride < 0x100000000 then .ok m.rowStride else .error .overflow

end Manifest
end GridKernel
