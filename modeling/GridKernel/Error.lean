import GridKernel.Kernel.Expr
import GridKernel.Text

namespace GridKernel

inductive Mismatch where
  | argumentCount (given declared : Nat)
  | argumentKind (position : Nat) (given : String) (declared : ValueType)
  | arrayAsScalar (param : Nat)
  | unbound (param : Nat)
  | notArray (param : Nat)
  | arrayExpected (callee : String)
  | described (text : String)
deriving DecidableEq

def Mismatch.message : Mismatch → String
  | .argumentCount given declared => s!"{given} argument(s) for {declared} parameter(s)"
  | .argumentKind position given declared =>
    s!"argument {position} is {given} but the parameter is " ++ declared.name
  | .arrayAsScalar param => s!"parameter {param} is an array and was read as a scalar"
  | .unbound param => s!"parameter {param} has no bound argument"
  | .notArray param => s!"parameter {param} is not an array"
  | .arrayExpected callee => s!"'{callee}' expects an array argument"
  | .described text => text

def maxCallDepth : Nat := 64

def maxIterations : Nat := 16777216

-- What is said where arithmetic leaves its word. It ends the program there: no layer above takes it
-- for a failure of its own, and no other backend answers it.
def overflowText : String := "arithmetic overflow"

inductive EvalError where
  | unknownFunction (name : String)
  | arityMismatch (name : String) (expected got : Nat)
  | typeMismatch (cause : Mismatch)
  | stackOverflow
  | loopLimit
  | missingReturn
  | badLocal (slot : Nat)
  | overflow
deriving DecidableEq

def EvalError.message : EvalError → String
  | .unknownFunction name => s!"call to unknown function '{name}'"
  | .arityMismatch name expected got =>
    s!"function '{name}' takes {expected} argument(s) but {got} were given"
  | .typeMismatch cause => "type mismatch: " ++ cause.message
  | .stackOverflow => s!"call depth exceeded {maxCallDepth}"
  | .loopLimit => s!"loop exceeded {maxIterations} iterations"
  | .missingReturn => "body finished without returning a value"
  | .badLocal slot => s!"local slot {slot} is out of range"
  | .overflow => overflowText

def EvalError.kind : EvalError → String
  | .unknownFunction _ => "UnknownFunction"
  | .arityMismatch _ _ _ => "ArityMismatch"
  | .typeMismatch _ => "TypeMismatch"
  | .stackOverflow => "StackOverflow"
  | .loopLimit => "LoopLimit"
  | .missingReturn => "MissingReturn"
  | .badLocal _ => "BadLocal"
  | .overflow => "Overflow"

inductive ArgumentFault where
  | typeCount (supplied declared : Nat)
  | unreachable
  | noReturn
  | slotOutOfRange (slot declared : Nat)
  | slotRedeclared (slot : Nat)
  | assignUndeclared (slot : Nat)
  | readUndeclared (slot : Nat)
  | paramOutOfRange (index declared : Nat)
  | arrayAsScalar (name : String)
  | notIndexable (name : String)
  | indexCount (given : Nat)
  | emptyCallee
  | badName (name : String)
  | arrayReturn (name : String)
  | definitionTypes (name : String) (types params : Nat)
  | nativeArray (name : String)
  | reservedName (name : String)
  | axisCount (given : Nat)
  | zeroAxis (position : Nat)
  | gridOverflow
  | rank (given : Nat)
  | shapeCount (shape : List Nat) (holds supplied : Nat)
  | raggedRows
  | emptyLayout
  | decodeCount (elements : Nat) (shape : List Nat)
  | argumentCount (takes given : Nat)
  | emptyArray (position : Nat)
  | argumentKind (position : Nat) (given : String) (declared : ValueType)
  | pinned
  | axisTooLong
  | described (text : String)
deriving DecidableEq

def ArgumentFault.message : ArgumentFault → String
  | .typeCount supplied declared =>
    s!"{supplied} parameter type(s) supplied for {declared} parameter(s)"
  | .unreachable => "unreachable statement after return"
  | .noReturn => "body does not return a value on every path"
  | .slotOutOfRange slot declared => s!"local slot {slot} exceeds the {declared} declared slot(s)"
  | .slotRedeclared slot => s!"local {slot} declared twice"
  | .assignUndeclared slot => s!"assignment to undeclared local {slot}"
  | .readUndeclared slot => s!"read of undeclared local {slot}"
  | .paramOutOfRange index declared => s!"parameter {index} out of range ({declared} declared)"
  | .arrayAsScalar name => s!"array parameter '{name}' used as a scalar value"
  | .notIndexable name => s!"parameter '{name}' is not an array and cannot be indexed"
  | .indexCount given => s!"array access needs 1 to 3 indices, got {given}"
  | .emptyCallee => "call to a function with an empty name"
  | .badName name => s!"'{name}' is not a valid function name"
  | .arrayReturn name => s!"function '{name}' cannot return an array"
  | .definitionTypes name types params =>
    s!"function '{name}' declares {types} parameter type(s) for {params} parameter(s)"
  | .nativeArray name => s!"native function '{name}' only takes scalar parameters"
  | .reservedName name => s!"'{name}' is a reserved built-in function"
  | .axisCount given => s!"dimensions must have 1 to 3 axes, got {given}"
  | .zeroAxis position => s!"dimension {position} is zero; all axes must be positive"
  | .gridOverflow => "dimension product overflows u32"
  | .rank given => s!"array rank must be 1 to 3, got {given}"
  | .shapeCount shape holds supplied =>
    "shape " ++ Text.listedNats shape ++ s!" holds {holds} element(s) but {supplied} were supplied"
  | .raggedRows => "rows have different lengths"
  | .emptyLayout => "cannot lay out an empty array"
  | .decodeCount elements shape =>
    s!"cannot decode {elements} element(s) into shape " ++ Text.listedNats shape
  | .argumentCount takes given => s!"kernel takes {takes} argument(s), {given} given"
  | .emptyArray position => s!"argument {position} is an empty array"
  | .argumentKind position given declared =>
    s!"argument {position} is {given} but the parameter is " ++ declared.name
  | .pinned => "kernel is pinned to the CPU executor"
  | .axisTooLong => "array axis exceeds u32"
  | .described text => text

inductive CompileFault where
  | unknownFunctions (names : List String)
  | nativeBody (name : String)
  | arrayParameter (name : String)
  | recursion (chain : List String)
  | arrayAsValue (param : Nat)
  | unboundArray (param : Nat)
  | unknownFunction (name : String)
  | arity (name : String) (takes given : Nat)
  | noContext
  | contextLost
  | injected
  | entryMissing (name : String)
  | aborted
  | described (text : String)
deriving DecidableEq

def CompileFault.message : CompileFault → String
  | .unknownFunctions names => "call to unknown function(s): " ++ Text.joined ", " names
  | .nativeBody name => s!"function '{name}' has a host-native body"
  | .arrayParameter name => s!"function '{name}' takes an array parameter"
  | .recursion chain => "recursive call chain " ++ Text.joined " -> " chain
  | .arrayAsValue param => s!"array parameter {param} cannot be used as a value on the device"
  | .unboundArray param => s!"parameter {param} is not a bound array"
  | .unknownFunction name => s!"call to unknown function '{name}'"
  | .arity name takes given => s!"'{name}' takes {takes} argument(s), {given} given"
  | .noContext => "no GPU context available"
  | .contextLost => "software device context lost"
  | .injected => "injected compile fault"
  | .entryMissing name => s!"entry point '{name}' not found in shader"
  | .aborted => "compilation aborted"
  | .described text => text

inductive RunFault where
  | textureLimit (elements width height limit : Nat)
  | readbackShort (got expected : Nat)
  | partialWord (bytes width : Nat)
  | contextLost
  | injectedDispatch
  | injectedReadback
  | emptyUpload
  | emptyAllocation
  | bindingCount (expected got : Nat)
  | shapesShort
  | scalarsShort
  | device (cause : EvalError)
  | inputCount (takes got : Nat)
  | scalarCount (takes got : Nat)
  | textureMismatch
  | axisTooLong
  | noContext
  | described (text : String)
  | overflow
deriving DecidableEq

def RunFault.message : RunFault → String
  | .textureLimit elements width height limit =>
    s!"{elements} element(s) need a {width}x{height} texture, above the {limit} limit"
  | .readbackShort got expected => s!"readback returned {got} byte(s), expected {expected}"
  | .partialWord bytes width => s!"{bytes} byte(s) is not a whole number of {width}-byte words"
  | .contextLost => "software device context lost"
  | .injectedDispatch => "injected dispatch fault"
  | .injectedReadback => "injected readback fault"
  | .emptyUpload => "cannot upload an empty buffer"
  | .emptyAllocation => "cannot allocate an empty buffer"
  | .bindingCount expected got => s!"program expects {expected} binding(s), got {got}"
  | .shapesShort => "shape buffer too short"
  | .scalarsShort => "scalar buffer too short"
  | .device cause => "device fault: " ++ cause.message
  | .inputCount takes got => s!"program takes {takes} array input(s), got {got}"
  | .scalarCount takes got => s!"program takes {takes} scalar(s), got {got}"
  | .textureMismatch => "encoded buffer does not match its texture"
  | .axisTooLong => "array axis exceeds the device limit"
  | .noContext => "no GPU context available"
  | .described text => text
  | .overflow => overflowText

-- A failure of evaluation on the device.
def RunFault.ofEval : EvalError → RunFault
  | .overflow => .overflow
  | cause => .device cause

inductive ConfigFault where
  | unknownMode (text : String)
  | toml
  | described (text : String)
deriving DecidableEq

def ConfigFault.message : ConfigFault → String
  | .unknownMode text => s!"unknown mode '{text}' (expected auto, gpu or cpu)"
  | .toml => "TOML parse error"
  | .described text => text

inductive KernelError where
  | invalidArgument (cause : ArgumentFault)
  | compilationFailed (cause : CompileFault)
  | executionFailed (cause : RunFault)
  | redefinitionConflict (name detail : String)
  | evaluation (cause : EvalError)
  | config (cause : ConfigFault)
  | overflow
deriving DecidableEq

namespace KernelError

def message : KernelError → String
  | .invalidArgument cause => "invalid argument: " ++ cause.message
  | .compilationFailed cause => "compilation failed: " ++ cause.message
  | .executionFailed cause => "execution failed: " ++ cause.message
  | .redefinitionConflict name detail =>
    s!"function '{name}' redefined with an incompatible signature: {detail}"
  | .evaluation cause => "interpreter error: " ++ cause.message
  | .config cause => "config error: " ++ cause.message
  | .overflow => overflowText

def kind : KernelError → String
  | .invalidArgument _ => "InvalidArgument"
  | .compilationFailed _ => "CompilationFailed"
  | .executionFailed _ => "ExecutionFailed"
  | .redefinitionConflict _ _ => "FunctionRedefinitionConflict"
  | .evaluation _ => "Interpreter"
  | .config _ => "Config"
  | .overflow => "Overflow"

def ofEval : EvalError → KernelError
  | .overflow => .overflow
  | cause => .evaluation cause

def ofRun : RunFault → KernelError
  | .overflow => .overflow
  | cause => .executionFailed cause

-- Failures of the device path, which the host may answer instead.
def allowsFallback : KernelError → Bool
  | .compilationFailed _ => true
  | .executionFailed _ => true
  | _ => false

end KernelError
end GridKernel
