import GridKernel.Config.Mode
import GridKernel.Config.Toml
import GridKernel.Grid

namespace GridKernel

structure Settings where
  dimensions : Option (List Nat) := none
  mode : Mode := .auto
deriving DecidableEq, Inhabited

namespace Settings

def defaultAxes : List Nat := [1024]

def grid (s : Settings) : Except ArgumentFault Grid := Grid.ofAxes (s.dimensions.getD defaultAxes)

-- What a document has set so far.
structure Entries where
  dimensions : Option (List Nat) := none
  mode : Option Mode := none

def axis? (i : Int) : Option Nat :=
  if 0 ≤ i ∧ i < 0x100000000 then some i.toNat else none

def readValue (d : Entries) (key : String) (cs : List Char) : Option (Entries × List Char) :=
  if key = "dimensions" ∧ d.dimensions = none then do
    let (items, rest) ← Toml.integerArray cs
    let axes ← items.mapM axis?
    some ({ d with dimensions := some axes }, rest)
  else if key = "mode" ∧ d.mode = none then do
    let (text, rest) ← Toml.string cs
    let mode ← (Mode.parse (String.ofList text)).toOption
    some ({ d with mode := some mode }, rest)
  else none

-- Only a comment may follow on the same line.
def endLine? (cs : List Char) : Option (List Char) :=
  match Toml.skipComment (Toml.skipBlanks cs) with
  | [] => some []
  | rest => Toml.newline? rest

def readEntries : Nat → Entries → List Char → Option Entries
  | 0, _, _ => none
  | fuel + 1, d, cs =>
    match Toml.skipComment (Toml.skipLines cs.length cs) with
    | [] => some d
    | line =>
      match Toml.key line with
      | none => none
      | some (key, rest) =>
        match Toml.skipBlanks rest with
        | '=' :: rest =>
          match readValue d (String.ofList key) (Toml.skipBlanks rest) with
          | none => none
          | some (d, rest) => (endLine? rest).bind (readEntries fuel d)
        | _ => none

-- Read a document. A byte order mark in front is ignored.
def parse (text : String) : Except ConfigFault Settings :=
  let cs := match text.toList with
    | c :: rest => if c.toNat = 0xfeff then rest else c :: rest
    | [] => []
  match readEntries (cs.length + 1) {} cs with
  | some d => .ok ⟨d.dimensions, d.mode.getD .auto⟩
  | none => .error .toml

end Settings
end GridKernel
