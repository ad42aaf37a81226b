import GridKernel.Function.Snapshot

namespace GridKernel.Snapshot

def callsOf (s : Snapshot) (name : String) : List String :=
  match s.get? name with
  | some d => d.body.calls
  | none => []

-- Walk the calls below a name, depth first. The path leads from a root to the name, and
-- finished names are not entered again; a name that is met on its own path is recursive.
-- Names on a path differ, so the fuel is one more than the number of helpers.
def visit (s : Snapshot) :
    Nat → List String → List String → String → Except CompileFault (List String)
  | 0, _, finished, _ => .ok finished
  | fuel + 1, path, finished, name =>
    if finished.contains name then .ok finished
    else if path.contains name then .error (.recursion (path ++ [name]))
    else do
      let below ← (s.callsOf name).foldlM (visit s fuel (path ++ [name])) finished
      .ok (name :: below)

def checkAcyclic (s : Snapshot) : Except CompileFault Unit := do
  let _ ← s.names.foldlM (visit s (s.functions.length + 2) []) []
  .ok ()

-- The first helper, in name order, that a device has no form for.
def unsupported? (s : Snapshot) : Option CompileFault :=
  s.functions.findSome? fun d =>
    if d.body.isNative then some (.nativeBody d.name)
    else if d.paramTypes.any ValueType.isArray then some (.arrayParameter d.name)
    else none

def checkDevice (s : Snapshot) : Except CompileFault Unit :=
  if !s.missing.isEmpty then .error (.unknownFunctions s.missing)
  else
    match s.unsupported? with
    | some fault => .error fault
    | none => s.checkAcyclic

end GridKernel.Snapshot
