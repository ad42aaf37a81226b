import GridKernel.Command.Help
import GridKernel.Command.ReadError

namespace GridKernel

-- The outside of the program. `timed` gives a value with the text of the time it took.
structure Console (m : Type → Type) where
  readFile : String → m (Except ReadError String)
  print : String → m Unit
  timed : {α : Type} → (Unit → α) → m (α × String)

def previewLength : Nat := 8

def Output.line : Output → String
  | .scalar v => "Result: " ++ v.plain
  | .array t =>
    let values := t.singles.toList
    let shown := (values.take previewLength).map (Single.fixed 4)
    "Result: shape " ++ Text.listedNats t.shape ++ " [" ++ Text.joined ", " shown ++
      (if previewLength < values.length then ", ..." else "") ++ "]"

namespace RunOptions

-- The settings of a run: those of the file, overridden by the command line.
def settings (o : RunOptions) (fromFile : Settings) : Settings :=
  { dimensions := o.dimensions <|> fromFile.dimensions
    mode := o.mode.getD fromFile.mode }

def session (o : RunOptions) : Session :=
  Session.new (if o.software then some {} else none) .little false none Shader.generate

end RunOptions

namespace Console

variable {m : Type → Type} [Monad m]

def loadSettings (c : Console m) (o : RunOptions) : ExceptT String m Settings := do
  match o.config with
  | none => return o.settings {}
  | some path =>
    match ← ExceptT.lift (c.readFile path) with
    | .error e => throw ("Failed to read " ++ path ++ ": " ++ e.message)
    | .ok text =>
      match Settings.parse text with
      | .ok fromFile => return o.settings fromFile
      | .error e => throw (KernelError.config e).message

def printShader (c : Console m) (shader : Except KernelError String) : m Unit :=
  match shader with
  | .ok text => c.print ("\n" ++ text ++ "\n")
  | .error e => c.print ("(no shader: " ++ e.message ++ ")")

def runDemo (c : Console m) (o : RunOptions) : ExceptT String m Unit := do
  let settings ← c.loadSettings o
  match settings.grid with
  | .error e => throw (KernelError.invalidArgument e).message
  | .ok grid =>
  c.print s!"Running {o.demo.title} on {o.session.backendName} [{settings.mode.name}]..."
  match o.demo.prepare o.session grid with
  | .error e => throw e.message
  | .ok (session, body, args) =>
  let ((session, compiled), compileTime) ← c.timed fun _ => session.compile body settings
  match compiled with
  | .error e => throw e.message
  | .ok kernel =>
  let (afterShader, shader) := if o.showShader then session.shader kernel else (session, .ok "")
  if o.showShader then c.printShader shader
  let ((final, kernel, result), runTime) ← c.timed fun _ => afterShader.run kernel args
  match result with
  | .error e => throw e.message
  | .ok out =>
  c.print out.line
  c.print ("Backend:  " ++ Kernel.backendText kernel.backend)
  c.print ("Compile:  " ++ compileTime)
  c.print ("Run:      " ++ runTime)
  c.print s!"Programs: {final.cache.stats.compiles} compiled, {final.cache.stats.hits} cache hit(s)"

def printAll (c : Console m) : List String → m Unit
  | [] => pure ()
  | line :: rest => do
    c.print line
    printAll c rest

def perform (c : Console m) : Command → ExceptT String m Unit
  | .run options => c.runDemo options
  | .info => c.printAll infoLines
  | .help topic => c.printAll topic.lines
  | .version => c.print versionLine

end Console
end GridKernel
