import GridKernel.Shader.CallGraph
import GridKernel.Shader.Commands
import GridKernel.Shader.Manifest
import GridKernel.Shader.Printer

namespace GridKernel

structure Request where
  body : Body
  types : List ValueType
  grid : Grid
  functions : Snapshot

namespace Shader

def workgroupSize : Nat := 256
def entryName : String := "main"

structure Program where
  manifest : Manifest
  sizes : Coords
  helpers : List Helper
  lets : List Let
  body : List Command

structure Source where
  text : String
  entry : String
  manifest : Manifest
  request : Request

def bindingLine (b : Binding) : String :=
  let access := if b.readOnly then "read" else "read_write"
  let element := if b.role = .shapes then "u32" else "f32"
  "@group(0) @binding(" ++ toString b.number ++ ") var<storage, " ++ access ++ "> " ++ b.name ++
    ": array<" ++ element ++ ">;"

def constants (m : Manifest) (sizes : Coords) : List (WordName × Nat) :=
  [(.extent .x, sizes.x), (.extent .y, sizes.y), (.extent .z, sizes.z),
    (.outputLength, m.outputLength), (.rowStride, m.rowStride)]

def constantLine (name : WordName) (value : Nat) : String :=
  "const " ++ name.text ++ ": u32 = " ++ (Code.word value).text none ++ ";"

def bitsFunction : Function where
  name := "kf_bits"
  params := [("bits", "u32")]
  lets := []
  checks := []
  result := .convert .bits (.name "bits")

-- The loader of an input slot: floored indices, and zero outside the array.
def loader (slot : Nat) : Function where
  name := "load_in" ++ toString slot
  params := [("iz", "f32"), ("iy", "f32"), ("ix", "f32")]
  lets := [
    ⟨"dz", .element "shapes" (.word (slot * 3))⟩,
    ⟨"dy", .element "shapes" (.word (slot * 3 + 1))⟩,
    ⟨"dx", .element "shapes" (.word (slot * 3 + 2))⟩,
    ⟨"z", .convert .floor (.name "iz")⟩,
    ⟨"y", .convert .floor (.name "iy")⟩,
    ⟨"x", .convert .floor (.name "ix")⟩]
  checks := [
    ⟨.ge, .name "z", .number 0.0⟩, ⟨.lt, .name "z", .convert .number (.name "dz")⟩,
    ⟨.ge, .name "y", .number 0.0⟩, ⟨.lt, .name "y", .convert .number (.name "dy")⟩,
    ⟨.ge, .name "x", .number 0.0⟩, ⟨.lt, .name "x", .convert .number (.name "dx")⟩]
  result := .element ("in" ++ toString slot)
    (.arith .add
      (.arith .mul
        (.arith .add (.arith .mul (.convert .word (.name "z")) (.name "dy")) (.convert .word (.name "y")))
        (.name "dx"))
      (.convert .word (.name "x")))

-- A scalar parameter of the kernel, read from its word of the scalar buffer.
def scalarLet (param word : Nat) (whole : Bool) : Let :=
  let value := Code.element "scalars" (.word word)
  ⟨"p" ++ toString param, if whole then .convert .trunc value else value⟩

def Program.loaders (p : Program) : List Function :=
  (List.range p.manifest.arrayParams.length).map loader

def threadParam : String × String := ("thread", "vec3<f32>")

def helperLines (h : Helper) : List String :=
  headLine ("fn_" ++ h.name) (threadParam :: h.params.map fun i => ("p" ++ toString i, "f32")) ::
    (blockLines 1 h.body ++ ["\x7d"])

def kernelLines (p : Program) : List String :=
  headLine "kernel_main" [threadParam] ::
    (p.lets.map (fun l => letLine l.name (l.value.text none)) ++ blockLines 1 p.body ++ ["\x7d"])

def bindingUse (slot : Nat) : String := "    _ = in" ++ toString slot ++ "[0];"

-- The entry point: an invocation finds its element, stops if there is none, and passes the
-- coordinates of the element to the kernel as numbers.
def entryLines (m : Manifest) : List String :=
  ["@compute @workgroup_size(" ++ toString workgroupSize ++ ")",
    "fn " ++ entryName ++ "(@builtin(global_invocation_id) gid: vec3<u32>) \x7b",
    "    _ = scalars[0];", "    _ = shapes[0];"] ++
  (List.range m.arrayParams.length).map bindingUse ++
  [letLine WordName.element.text (elementTerm.text none),
    "    if (" ++ WordName.element.text ++ " >= " ++ WordName.outputLength.text ++ ") \x7b",
    "        return;",
    "    \x7d",
    letLine "x" ((coordinateTerm .x).text none),
    letLine "y" ((coordinateTerm .y).text none),
    letLine "z" ((coordinateTerm .z).text none),
    "    result[id] = kernel_main(vec3<f32>(f32(x), f32(y), f32(z)));",
    "\x7d"]

-- Each section but the first follows an empty line.
def Program.lines (p : Program) : List String :=
  p.manifest.bindings.map bindingLine ++
    "" :: (constants p.manifest p.sizes).map (fun constant => constantLine constant.1 constant.2) ++
    "" :: bitsFunction.lines ++ p.loaders.flatMap (fun f => "" :: f.lines) ++
    p.helpers.flatMap (fun h => "" :: helperLines h) ++ "" :: kernelLines p ++ "" :: entryLines p.manifest

def Program.text (p : Program) : String :=
  p.lines.foldl (fun text line => text ++ line ++ "\n") ""

-- A helper with a native body has no form; `checkDevice` refuses it first.
def lowerHelper (functions : Snapshot) (d : Definition) : Except CompileFault (Option Helper) :=
  match d.body with
  | .native _ _ => .ok none
  | .kernel body => do
    let commands ← lowerBlock ⟨functions.get?, d.paramTypes, fun _ => none⟩ body.stmts
    .ok (some ⟨d.name, List.range body.params.length, commands⟩)

-- Build the program of a kernel. Helpers are lowered in name order, then the kernel.
def build (r : Request) : Except CompileFault Program := do
  r.functions.checkDevice
  let manifest := Manifest.ofTypes r.types r.grid workgroupSize
  let helpers ← r.functions.functions.mapM (lowerHelper r.functions)
  let body ← lowerBlock ⟨r.functions.get?, r.types, manifest.arrayParams.idxOf?⟩ r.body.stmts
  .ok { manifest := manifest
        sizes := r.grid.sizes
        helpers := helpers.filterMap id
        lets := manifest.scalarParams.mapIdx fun word param =>
          scalarLet param word (r.types[param]? = some .int)
        body := body }

def synthesize (r : Request) : Except CompileFault Source := do
  let program ← build r
  .ok ⟨program.text, entryName, program.manifest, r⟩

end Shader
end GridKernel
