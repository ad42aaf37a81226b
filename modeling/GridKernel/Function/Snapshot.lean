import GridKernel.Function.Definition

namespace GridKernel

structure Snapshot where
  functions : List Definition := []
  missing : List String := []

def insertDefinition (d : Definition) : List Definition → List Definition
  | [] => [d]
  | first :: rest =>
    if d.name < first.name then d :: first :: rest
    else first :: insertDefinition d rest

-- What of a snapshot enters the key of a program: the stamp of every helper, and the
-- missing names.
structure Fingerprint where
  stamps : List (String × Nat)
  missing : List String
deriving DecidableEq

namespace Snapshot

def get? (s : Snapshot) (name : String) : Option Definition := s.functions.find? (·.name = name)

def names (s : Snapshot) : List String := s.functions.map (·.name)

def fingerprint (s : Snapshot) : Fingerprint :=
  ⟨s.functions.map fun d => (d.name, d.generation), s.missing⟩

end Snapshot
end GridKernel
