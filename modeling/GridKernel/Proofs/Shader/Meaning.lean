import GridKernel.Eval.Machine
import GridKernel.Shader.Program

namespace GridKernel.Shader

-- What a running function reaches beside its variables.
structure Frame where
  param : Nat → Option Float
  thread : Axis → Float
  extent : Axis → Option Float
  load : Nat → List Float → Option Float
  call : String → List Float → Option Float

abbrev Vars := List (Nat × Float)

namespace Vars

def get? (slot : Nat) : Vars → Option Float
  | [] => none
  | (name, value) :: rest => if name = slot then some value else get? slot rest

def set? (slot : Nat) (value : Float) : Vars → Option Vars
  | [] => none
  | (name, old) :: rest =>
    if name = slot then some ((name, value) :: rest)
    else (set? slot value rest).map ((name, old) :: ·)

-- Leave a block that was entered with `depth` variables.
def leave (depth : Nat) (vars : Vars) : Vars := vars.drop (vars.length - depth)

end Vars

def Arith.op : Arith → BinaryOp
  | .add => .add
  | .sub => .sub
  | .mul => .mul
  | .div => .div
  | .rem => .rem

def Math.op : Math → BinaryOp
  | .pow => .pow
  | .min => .min
  | .max => .max
  | .atan2 => .atan2

def Relation.holds : Relation → Float → Float → Bool
  | .lt, a, b => a < b
  | .le, a, b => a ≤ b
  | .gt, a, b => b < a
  | .ge, a, b => b ≤ a
  | .eq, a, b => a == b
  | .ne, a, b => a != b

mutual

def Term.value (frame : Frame) (vars : Vars) : Term → Option Float
  | .literal value => some value
  | .param index => frame.param index
  | .var slot => vars.get? slot
  | .thread axis => some (frame.thread axis)
  | .extent axis => frame.extent axis
  | .load slot indices => do
    let values ← values frame vars indices
    frame.load slot values
  | .negate input => do
    let v ← input.value frame vars
    some (-v)
  | .apply op input => do
    let v ← input.value frame vars
    some (op.apply v)
  | .arith op left right => do
    let a ← left.value frame vars
    let b ← right.value frame vars
    some (op.op.apply a b)
  | .math op left right => do
    let a ← left.value frame vars
    let b ← right.value frame vars
    some (op.op.apply a b)
  | .select no yes test => do
    let n ← no.value frame vars
    let y ← yes.value frame vars
    let chosen ← test.value frame vars
    some (if chosen then y else n)
  | .helper name args => do
    let values ← values frame vars args
    frame.call name values

-- The second test of a pair is not reached when the first decides.
def Test.value (frame : Frame) (vars : Vars) : Test → Option Bool
  | .compare relation left right => do
    let a ← left.value frame vars
    let b ← right.value frame vars
    some (relation.holds a b)
  | .both left right => do
    let first ← left.value frame vars
    if first then right.value frame vars else some false
  | .either left right => do
    let first ← left.value frame vars
    if first then some true else right.value frame vars

def values (frame : Frame) (vars : Vars) : List Term → Option (List Float)
  | [] => some []
  | t :: ts => do
    let v ← t.value frame vars
    let vs ← values frame vars ts
    some (v :: vs)

end

inductive Outcome where
  | next (vars : Vars)
  | returned (value : Float)

namespace Outcome

def leave (depth : Nat) : Outcome → Outcome
  | .next vars => .next (vars.leave depth)
  | .returned value => .returned value

def result? : Outcome → Option Float
  | .next _ => none
  | .returned value => some value

end Outcome

def repeatWhile (test : Vars → Option Bool) (step : Vars → Option Outcome) : Nat → Vars → Option Outcome
  | 0, _ => none
  | fuel + 1, vars => do
    let more ← test vars
    if more then
      match ← step vars with
      | .next after => repeatWhile test step fuel after
      | .returned value => some (.returned value)
    else some (.next vars)

def increment (counter : Nat) : Outcome → Option Outcome
  | .next vars => do
    let v ← vars.get? counter
    let after ← vars.set? counter (v + 1.0)
    some (.next after)
  | .returned value => some (.returned value)

mutual

def Command.run (frame : Frame) (fuel : Nat) : Command → Vars → Option Outcome
  | .declare slot value, vars => do
    let v ← value.value frame vars
    some (.next ((slot, v) :: vars))
  | .assign slot value, vars => do
    let v ← value.value frame vars
    let after ← vars.set? slot v
    some (.next after)
  | .loop counter start stop body, vars => do
    let first ← start.value frame vars
    let ended ← repeatWhile (Test.value frame · (.compare .lt (.var counter) stop))
      (fun inner => do
        let outcome ← runBlock frame fuel body inner
        increment counter (outcome.leave inner.length))
      fuel ((counter, first) :: vars)
    some (ended.leave vars.length)
  | .branch test yes no, vars => do
    let chosen ← test.value frame vars
    (if chosen then runBlock frame fuel yes vars else runBlock frame fuel no vars).map (Outcome.leave vars.length)
  | .ret value, vars => do
    let v ← value.value frame vars
    some (.returned v)

def runBlock (frame : Frame) (fuel : Nat) : List Command → Vars → Option Outcome
  | [], vars => some (.next vars)
  | command :: rest, vars => do
    match ← command.run frame fuel vars with
    | .next after => runBlock frame fuel rest after
    | .returned value => some (.returned value)

end

-- What is bound to a program: a word for each scalar, three sizes for each array, outermost
-- first, and the elements of each array. Index arithmetic is exact or, with a limit, on words.
structure Buffers where
  scalars : List Float
  shapes : List Nat
  inputs : List Elements
  limit : Option Nat

inductive Cell where
  | number (value : Float)
  | word (value : Nat)

namespace Cell

def number? : Cell → Option Float
  | .number value => some value
  | .word _ => none

def word? : Cell → Option Nat
  | .number _ => none
  | .word value => some value

end Cell

abbrev Cells := List (String × Cell)

-- Only numbers are compared.
def Relation.compares (relation : Relation) : Cell → Cell → Option Bool
  | .number a, .number b => some (relation.holds a b)
  | _, _ => none

namespace Buffers

def clamp (b : Buffers) (n : Nat) : Nat :=
  match b.limit with
  | none => n
  | some limit => min n (limit - 1)

def wrap (b : Buffers) (n : Nat) : Nat :=
  match b.limit with
  | none => n
  | some limit => n % limit

def index (b : Buffers) (x : Float) : Option Nat := (Whole.floorInt? x).map fun k => b.clamp k.toNat

def onWords (b : Buffers) : Arith → Nat → Nat → Option Nat
  | .add, m, n => some (b.wrap (m + n))
  | .sub, m, n => if n ≤ m then some (m - n) else b.limit.map (m + · - n)
  | .mul, m, n => some (b.wrap (m * n))
  | .div, m, n => some (if n = 0 then m else m / n)
  | .rem, m, n => some (if n = 0 then 0 else m % n)

def arith (b : Buffers) (op : Arith) : Cell → Cell → Option Cell
  | .number x, .number y => some (.number (op.op.apply x y))
  | .word m, .word n => (b.onWords op m n).map .word
  | _, _ => none

def convert (b : Buffers) : Conversion → Cell → Option Cell
  | .floor, .number x => some (.number (Whole.floor x))
  | .trunc, .number x => some (.number (Whole.trunc x))
  | .word, .number x => (b.index x).map .word
  | .number, .word n => some (.number (ofCoordinate n))
  | .bits, .word n => some (.number (Single.toFloat ⟨n.toUInt32⟩))
  | _, _ => none

-- An element of the buffer that is bound at a number: scalars, then shapes, then the arrays.
def element? (b : Buffers) (number i : Nat) : Option Cell :=
  match number with
  | 0 => b.scalars[i]?.map .number
  | 1 => b.shapes[i]?.map .word
  | slot + 2 => do
    let data ← b.inputs[slot]?
    (data.get? i).map .number

end Buffers

section Functions

variable (bindings : List Binding) (b : Buffers)

def Code.value (cells : Cells) : Code → Option Cell
  | .number value => some (.number value)
  | .word value => some (.word value)
  | .name text => cells.lookup text
  | .element buffer index => do
    let binding ← bindings.find? (·.name = buffer)
    let place ← index.value cells
    let i ← place.word?
    b.element? binding.number i
  | .convert conversion input => do
    let c ← input.value cells
    b.convert conversion c
  | .arith op left right => do
    let x ← left.value cells
    let y ← right.value cells
    b.arith op x y

def Check.value (cells : Cells) (c : Check) : Option Bool := do
  let x ← c.left.value bindings b cells
  let y ← c.right.value bindings b cells
  c.relation.compares x y

-- Each value is in scope for those that follow.
def letAll : List Let → Cells → Option Cells
  | [], cells => some cells
  | l :: rest, cells => do
    let c ← l.value.value bindings b cells
    letAll rest ((l.name, c) :: cells)

-- Parameters are bound in order, in front of what the whole program names.
def bindParams (params : List String) (args : List Cell) (outer : Cells) : Option Cells :=
  if params.length = args.length then some (params.zip args ++ outer) else none

def Function.call (f : Function) (outer : Cells) (args : List Cell) : Option Cell := do
  let given ← bindParams (f.params.map Prod.fst) args outer
  let cells ← letAll bindings b f.lets given
  let fine ← f.checks.allM (Check.value bindings b cells)
  if fine then f.result.value bindings b cells else some (.number 0.0)

end Functions

def paramName (index : Nat) : String := "p" ++ toString index

namespace Program

variable (p : Program) (b : Buffers) (thread : Coords)

def constantCells : Cells := (constants p.manifest p.sizes).map fun constant => (constant.1.text, .word constant.2)

def invoke (functions : List Function) (name : String) (args : List Cell) : Option Float := do
  let f ← functions.find? (·.name = name)
  let c ← f.call p.manifest.bindings b p.constantCells args
  c.number?

def frame (cells : Cells) (call : String → List Float → Option Float) : Frame where
  param index := (cells.lookup (paramName index)).bind Cell.number?
  thread axis := ofCoordinate (thread.get axis)
  extent axis := do
    let size ← cells.lookup (axisConstant axis)
    let c ← b.convert .number size
    c.number?
  load slot indices := p.invoke b p.loaders ("load_in" ++ toString slot) (indices.map .number)
  call := call

-- Call a helper by name. It runs for the element of its caller.
def call (fuel : Nat) : Nat → String → List Float → Option Float
  | 0, _, _ => none
  | depth + 1, name, args => do
    let h ← p.helpers.find? (·.name = name)
    let cells ← bindParams (h.params.map paramName) (args.map .number) p.constantCells
    let outcome ← runBlock (p.frame b thread cells (call fuel depth)) fuel h.body []
    outcome.result?

def value (fuel : Nat) : Option Float := do
  let cells ← letAll p.manifest.bindings b p.lets p.constantCells
  let outcome ← runBlock (p.frame b thread cells (p.call b thread fuel fuel)) fuel p.body []
  outcome.result?

-- The kernel of the program returns a value for an element.
def Yields (v : Float) : Prop := ∃ fuel, p.value b thread fuel = some v

end Program

end GridKernel.Shader
