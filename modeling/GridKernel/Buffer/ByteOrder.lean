import GridKernel.Number.Binary
import GridKernel.Error

namespace GridKernel

inductive ByteOrder where
  | little
  | big
deriving DecidableEq, Inhabited

namespace ByteOrder

def name : ByteOrder → String
  | .little => "little"
  | .big => "big"

def ofName? (name : String) : Option ByteOrder := [.little, .big].find? (·.name = name)

def needsSwap (o : ByteOrder) : Bool := o = .big

-- Place, counted from the least significant byte, of byte `i` of a word of `width` bytes.
def place (o : ByteOrder) (width i : Nat) : Nat := if o.needsSwap then width - 1 - i else i

end ByteOrder

abbrev Bytes := Array UInt8

namespace Bytes

def ofWords (order : ByteOrder) (width : Nat) (words : Array Nat) : Bytes :=
  Array.ofFn (n := words.size * width) fun i =>
    ((words.getD (i.val / width) 0 >>> (8 * order.place width (i.val % width))) % 256).toUInt8

def wordAt (order : ByteOrder) (width : Nat) (bytes : Bytes) (start : Nat) : Nat :=
  (List.range width).foldl
    (fun word i => word + (bytes.getD (start + i) 0).toNat <<< (8 * order.place width i)) 0

-- Read back words of `width` bytes; a part of a word at the end is refused.
def toWords (order : ByteOrder) (width : Nat) (bytes : Bytes) : Except RunFault (Array Nat) :=
  if bytes.size % width ≠ 0 then .error (.partialWord bytes.size width)
  else .ok (Array.ofFn (n := bytes.size / width) fun i => wordAt order width bytes (i.val * width))

def ofSingles (order : ByteOrder) (words : Array Single) : Bytes :=
  ofWords order 4 (words.map (·.bits.toNat))

def toSingles (order : ByteOrder) (bytes : Bytes) : Except RunFault (Array Single) := do
  let words ← toWords order 4 bytes
  .ok (words.map fun n => ⟨n.toUInt32⟩)

end Bytes
end GridKernel
