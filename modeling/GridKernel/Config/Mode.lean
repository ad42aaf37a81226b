import GridKernel.Error

namespace GridKernel

inductive Mode where
  | auto
  | gpu
  | cpu
deriving DecidableEq, Inhabited

namespace Text

-- White space as the Unicode property has it.
def isBlank (c : Char) : Bool :=
  let n := c.toNat
  (0x9 ≤ n && n ≤ 0xd) || n = 0x20 || n = 0x85 || n = 0xa0 || n = 0x1680 ||
    (0x2000 ≤ n && n ≤ 0x200a) || n = 0x2028 || n = 0x2029 || n = 0x202f || n = 0x205f || n = 0x3000

def trimmed (cs : List Char) : List Char :=
  ((cs.dropWhile isBlank).reverse.dropWhile isBlank).reverse

-- Only the ASCII letters change.
def lowered (cs : List Char) : List Char := cs.map Char.toLower

end Text

namespace Mode

def name : Mode → String
  | .auto => "auto"
  | .gpu => "gpu"
  | .cpu => "cpu"

def allowsFallback (m : Mode) : Bool := m ≠ .gpu

-- Read a mode. Case and surrounding blanks do not matter, and nothing at all means `auto`.
def parse (text : String) : Except ConfigFault Mode :=
  let word := String.ofList (Text.lowered (Text.trimmed text.toList))
  if word = "" ∨ word = "auto" then .ok .auto
  else if word = "gpu" then .ok .gpu
  else if word = "cpu" then .ok .cpu
  else .error (.unknownMode word)

end Mode
end GridKernel
