import GridKernel.Function.Builtin
import GridKernel.Function.Snapshot

namespace GridKernel

inductive Registration where
  | added
  | replaced
deriving DecidableEq

structure Registry where
  functions : List Definition := []
  nextGeneration : Nat := 1
  strict : Bool := false

namespace Registry

def get? (r : Registry) (name : String) : Option Definition := r.functions.find? (·.name = name)

def contains (r : Registry) (name : String) : Bool := (r.get? name).isSome

def isReserved (r : Registry) (name : String) : Bool :=
  match r.get? name with
  | some d => d.builtin
  | none => false

def size (r : Registry) : Nat := r.functions.length

def names (r : Registry) : List String := nameSet (r.functions.map (·.name))

def store (r : Registry) (d : Definition) : Registry :=
  { r with
    functions := { d with generation := r.nextGeneration } :: r.functions.filter (·.name ≠ d.name)
    nextGeneration := r.nextGeneration + 1 }

def installBuiltins (r : Registry) : Registry :=
  Builtin.all.foldl (fun r (name, body) =>
    r.store { Definition.make name (.kernel body) none none with builtin := true }) r

def new (strict : Bool) : Registry := installBuiltins { strict := strict }

-- All checks come before the first write.
def register (r : Registry) (d : Definition) : Registry × Except KernelError Registration :=
  match d.validate with
  | .error e => (r, .error (.invalidArgument e))
  | .ok () =>
    match r.get? d.name with
    | none => (r.store d, .ok .added)
    | some existing =>
      if existing.builtin then (r, .error (.invalidArgument (.reservedName d.name)))
      else if r.strict && !existing.sameTypes d then
        (r, .error (.redefinitionConflict d.name (existing.typeText ++ " vs " ++ d.typeText)))
      else (r.store d, .ok .replaced)

-- Registered helpers that a snapshot has not taken up yet.
def remaining (r : Registry) (s : Snapshot) : List Definition :=
  r.functions.filter fun d => !(s.functions.any (·.name = d.name))

theorem remaining_insert_lt (r : Registry) (s : Snapshot) (d : Definition)
    (known : r.get? d.name = some d) (fresh : s.functions.any (·.name = d.name) = false) :
    (r.remaining { s with functions := insertDefinition d s.functions }).length <
      (r.remaining s).length := by
  have member : d ∈ r.functions := List.mem_of_find?_eq_some known
  have grows (n : String) (fs : List Definition) :
      (insertDefinition d fs).any (·.name = n) = (decide (d.name = n) || fs.any (·.name = n)) := by
    induction fs with
    | nil => simp [insertDefinition]
    | cons f fs ih =>
      unfold insertDefinition
      split
      · simp
      · simp only [List.any_cons, ih]
        cases decide (d.name = n) <;> cases decide (f.name = n) <;> rfl
  have narrow : ∀ fs : List Definition, d ∈ fs →
      (fs.filter fun e => !((insertDefinition d s.functions).any (·.name = e.name))).length <
        (fs.filter fun e => !(s.functions.any (·.name = e.name))).length := by
    have weak : ∀ fs : List Definition,
        (fs.filter fun e => !((insertDefinition d s.functions).any (·.name = e.name))).length ≤
          (fs.filter fun e => !(s.functions.any (·.name = e.name))).length := by
      intro fs
      induction fs with
      | nil => simp
      | cons f fs ih =>
        simp only [List.filter_cons, grows]
        simp only [grows] at ih
        cases decide (d.name = f.name) <;> cases s.functions.any (·.name = f.name) <;>
          simp at ih ⊢ <;> omega
    intro fs within
    induction fs with
    | nil => cases within
    | cons f fs ih =>
      rcases List.mem_cons.mp within with rfl | later
      · have bound := weak fs
        simp only [List.filter_cons, grows, fresh]
        simp only [grows] at bound
        simp at bound ⊢
        omega
      · have bound := ih later
        simp only [List.filter_cons, grows]
        simp only [grows] at bound
        cases decide (d.name = f.name) <;> cases s.functions.any (·.name = f.name) <;>
          simp at bound ⊢ <;> omega
  exact narrow r.functions member

def close (r : Registry) (s : Snapshot) : List String → Snapshot
  | [] => s
  | name :: pending =>
    if fresh : s.functions.any (·.name = name) = false then
      match known : r.get? name with
      | some d =>
        have same : d.name = name := by simpa using List.find?_some known
        have smaller := remaining_insert_lt r s d (same ▸ known) (same ▸ fresh)
        close r { s with functions := insertDefinition d s.functions } (d.body.calls ++ pending)
      | none => close r { s with missing := insertName name s.missing } pending
    else close r s pending
termination_by pending => ((r.remaining s).length, pending.length)
decreasing_by
  · exact Prod.Lex.left _ _ smaller
  · exact Prod.Lex.right _ (by simp)
  · exact Prod.Lex.right _ (by simp)

def snapshot (r : Registry) (roots : List String) : Snapshot := r.close {} roots

def debugText (r : Registry) : String :=
  "FunctionRegistry \x7b functions: " ++ Text.listed (r.names.map Text.quoted) ++
    ", strict: " ++ Text.truth r.strict ++ " \x7d"

end Registry
end GridKernel
