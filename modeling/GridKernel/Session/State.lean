import GridKernel.Cache
import GridKernel.Launch
import GridKernel.Session.Kernel

namespace GridKernel

structure Compiled where
  program : DeviceProgram
  text : String

abbrev ProgramCache := Cache Signature Compiled

structure Session where
  registry : Registry
  cache : ProgramCache
  device : Option Device
  codec : Codec
  synthesize : Request → Except KernelError Shader.Source

def Shader.generate (r : Request) : Except KernelError Shader.Source :=
  (Shader.synthesize r).mapError .compilationFailed

namespace Session

def new (device : Option Device) (order : ByteOrder) (strict : Bool) (capacity : Option Nat)
    (synthesize : Request → Except KernelError Shader.Source) : Session where
  registry := Registry.new strict
  cache := Cache.new capacity
  device := device.map (·.attach order)
  codec := ⟨order⟩
  synthesize := synthesize

def backendName (s : Session) : String := if s.device.isSome then "software" else "cpu"

def generation? (s : Session) : Option Nat := s.device.map (·.generation)

-- Register a helper. Programs built with the one it replaces are dropped.
def register (s : Session) (d : Definition) : Session × Except KernelError Unit :=
  match s.registry.register d with
  | (registry, .error e) => ({ s with registry := registry }, .error e)
  | (registry, .ok .added) => ({ s with registry := registry }, .ok ())
  | (registry, .ok .replaced) =>
    ({ s with registry := registry, cache := (s.cache.invalidate d.name).1 }, .ok ())

def build (s : Session) (device : Device) (k : Kernel) (functions : Snapshot) :
    Device × Outcome Signature Compiled :=
  match s.synthesize (k.request functions) with
  | .error e => (device, .error e)
  | .ok source =>
    match device.compile source with
    | .error e => (device, .error (.compilationFailed e))
    | .ok (program, after) =>
      (after, .ok ⟨k.signatureOf functions, functions.names, ⟨program, source.text⟩⟩)

def program (s : Session) (k : Kernel) : Session × Outcome Signature Compiled :=
  match s.device with
  | none => (s, .error (.compilationFailed .noContext))
  | some device =>
    let functions := k.functions s.registry
    let key := k.signatureOf functions
    match s.cache.lookup key with
    | (cache, .hit found) => ({ s with cache := cache }, .ok found)
    | (cache, .joined flight) =>
      ({ s with cache := cache }, (cache.received? flight).getD Cache.aborted)
    | (cache, .leads flight) =>
      let (device, outcome) := s.build device k functions
      ({ s with cache := cache.finish key flight outcome, device := some device }, outcome)

def execute (s : Session) (device : Device) (k : Kernel) (p : DeviceProgram) (args : List Arg) :
    Device × Except KernelError Output :=
  match (Kernel.arrays args p.manifest.arrayParams).mapM s.codec.encode with
  | .error e => (device, .error e)
  | .ok inputs =>
    match device.run s.codec p inputs (Kernel.scalarWords args p.manifest.scalarParams)
      k.grid.outputShape with
    | (device, .error e) => (device, .error e)
    | (device, .ok encoded) =>
      (device, (s.codec.decode encoded k.grid.outputShape).map Output.ofTensor)

def runDevice (s : Session) (k : Kernel) (args : List Arg) : Session × Except KernelError Output :=
  match s.device with
  | none => (s, .error (.executionFailed .noContext))
  | some _ =>
    match s.program k with
    | (s, .error e) => (s, .error e)
    | (s, .ok found) =>
      match s.device with
      | none => (s, .error (.executionFailed .noContext))
      | some device =>
        let (device, result) := s.execute device k found.artifact.program args
        ({ s with device := some device }, result)

def runHost (s : Session) (k : Kernel) (args : List Arg) : Except KernelError Output :=
  (Host.run (k.functions s.registry) k.body k.types k.grid args).map Output.ofTensor

-- The signature under which a run tries the device, if it does.
def attempt? (s : Session) (k : Kernel) : Option Signature :=
  match k.route with
  | .pinned => none
  | .device => some (k.signature s.registry)
  | .fallback failed generation =>
    let signature := k.signature s.registry
    if signature = failed ∧ s.generation? = some generation then none else some signature

def latch (s : Session) (k : Kernel) (failed : Signature) : Kernel :=
  match s.generation? with
  | some generation => { k with route := .fallback failed generation }
  | none => k

def fallsBack (k : Kernel) (e : KernelError) : Bool := k.mode.allowsFallback && e.allowsFallback

-- Compile a kernel. Unless it is for the host alone its program is built at once.
def compile (s : Session) (body : Body) (settings : Settings) : Session × Except KernelError Kernel :=
  match Kernel.make body settings with
  | .error e => (s, .error (.invalidArgument e))
  | .ok k =>
    if k.mode = .cpu then (s, .ok k)
    else
      let signature := k.signature s.registry
      match s.program k with
      | (s, .ok _) => (s, .ok { k with route := .device })
      | (s, .error e) =>
        if fallsBack k e then (s, .ok (s.latch k signature)) else (s, .error e)

def run (s : Session) (k : Kernel) (args : List Arg) :
    Session × Kernel × Except KernelError Output :=
  match k.checkArgs args with
  | .error e => (s, k, .error (.invalidArgument e))
  | .ok () =>
    match s.attempt? k with
    | none => (s, k, s.runHost k args)
    | some signature =>
      match s.runDevice k args with
      | (s, .ok out) => (s, { k with route := .device }, .ok out)
      | (s, .error e) =>
        if fallsBack k e then (s, s.latch k signature, s.runHost k args) else (s, k, .error e)

def shader (s : Session) (k : Kernel) : Session × Except KernelError String :=
  if k.mode = .cpu then (s, .error (.invalidArgument .pinned))
  else
    match s.program k with
    | (s, .ok found) => (s, .ok found.artifact.text)
    | (s, .error e) => (s, .error e)

def debugText (s : Session) : String :=
  "Gpu \x7b backend: " ++ Text.quoted s.backendName ++ ", cache: " ++ s.cache.stats.debugText ++
    " \x7d"

end Session
end GridKernel
